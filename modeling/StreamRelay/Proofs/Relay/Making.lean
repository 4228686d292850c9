import StreamRelay.Proofs.Host.Fittings
import StreamRelay.Proofs.Setup.Failing
import StreamRelay.Proofs.Setup.Founding

namespace StreamRelay

namespace Host
variable {T : Type}

def Owned (h h' : Host T) : Prop := ∀ start held, Owns start held h → Owns start held h'

theorem owned_same {h h' : Host T} (sockets : h'.sockets = h.sockets) : Owned h h' :=
  fun _ _ owns => owns.same sockets

theorem calm_owned [Clock T] : Calm (T := T) Owned where
  refl _ _ _ owns := owns
  trans one two start held owns := two start held (one start held owns)
  emit _ _ _ := owned_same rfl
  note _ _ _ _ := owned_same rfl
  clock _ _ := owned_same rfl
  stderr _ _ := owned_same rfl
  console _ _ := owned_same rfl
  faults _ _ := owned_same rfl
  batches _ _ := owned_same rfl
  apply h action := (abides_apply h action).owns

structure Prior (h h' : Host T) : Prop where
  selector : h'.selectorOpen = h.selectorOpen
  refused : ∀ r ∈ h'.refusals, r.call = .register → r ∈ h.refusals

theorem prior_same {h h' : Host T} (selector : h'.selectorOpen = h.selectorOpen)
    (refusals : h'.refusals = h.refusals) : Prior h h' :=
  ⟨selector, fun _ there _ => refusals ▸ there⟩

theorem Prior.trans {a b c : Host T} (one : Prior a b) (two : Prior b c) : Prior a c :=
  ⟨two.selector.trans one.selector,
    fun r there call => one.refused r (two.refused r there call) call⟩

theorem prior_shut (h : Host T) (id : SocketId) : Prior h (h.shut id) := by
  refine prior_same ?_ refusals_shut
  unfold shut
  split <;> rfl

theorem mild_prior [Clock T] : Mild (T := T) Prior where
  refl _ := prior_same rfl rfl
  trans := .trans
  faults _ _ := prior_same rfl rfl
  batches _ _ := prior_same rfl rfl
  apply h action := prior_same (fitted_apply h action).selector (hears_apply h action).refusals

end Host

namespace Relay
variable {T P α : Type} [Clock T] [Resumable T P]
open Run Host

theorem prior_lively : Lively (T := T) Prior := mild_prior.lively fun _ _ => prior_same rfl rfl

theorem founding_prior : Founding (T := T) Prior Prior where
  toLively := prior_lively
  emit _ _ _ := prior_same rfl rfl
  sockets _ _ := prior_same rfl rfl
  serves _ _ _ := prior_same rfl rfl
  heeds _ _ _ := prior_same rfl rfl
  weaken path := path
  falls := .trans
  shut := prior_shut
  note h call id cause other := by
    refine ⟨rfl, fun r there register => ?_⟩
    cases List.mem_cons.mp there with
    | inl new =>
      subst new
      exact absurd register other
    | inr before => exact before

-- What a creation holds before its listener is watched.
structure Materials (given : Option Sink) (start : Host T) (sink : Sink) (held : List SocketId)
    (selector : Bool) (h : Host T) : Prop where
  fresh : Fresh h
  given : ∀ own ∈ given, sink = own
  sending : h.isOpen sink.sock = true
  standing : ∃ last, Standing start.sockets.length held last h
  selector : h.selectorOpen = selector
  refused : ∀ r ∈ h.refusals, r.call = .register → r ∈ start.refusals

structure Equipped (given : Option Sink) (start : Host T) (sink : Sink) (sock : SocketId)
    (h : Host T) : Prop where
  given : ∀ own ∈ given, sink = own
  sending : h.isOpen sink.sock = true
  selector : h.selectorOpen = true
  listening : h.isOpen sock = true
  entries : h.entries = [(h.number sock, ⟨sock, none⟩)]
  owns : h.Owns start.sockets.length [sink.sock, sock]

-- A relay that has not done anything yet.
structure Unused (r : Relay T) : Prop where
  unpaused : r.listener.paused = false
  listening : r.listener.closed = false
  table : r.table = {}
  counters : r.stats.counters = {}
  closed : r.closed = false

-- Nothing is left open, neither of what was given nor of what was acquired.
structure Undone (given : Option Sink) (start h : Host T) : Prop where
  released : ∀ own ∈ given, h.isOpen own.sock = false
  selector : h.selectorOpen = false
  owns : h.Owns start.sockets.length []

def Measurable (T : Type) [Clock T] (millis : Given Int) : Prop :=
  ∃ n, millis = .value n ∧ Clock.holds T n = true

theorem not_measurable_nothing : ¬Measurable T .nothing := by
  intro measurable
  obtain ⟨n, same, -⟩ := measurable
  cases same

theorem measurable_value {n : Int} : Measurable T (.value n) ↔ Clock.holds T n = true := by
  constructor
  · intro measurable
    obtain ⟨k, same, holds⟩ := measurable
    cases same
    exact holds
  · exact fun holds => ⟨n, rfl, holds⟩

inductive Unmade (config : Config) (given : Option Sink) (m : Machine T P) (f : Failure)
    (m' : Machine T P) : Prop where
  | unresolved (none : given = none) (ran : Sink.resolve config.udp m = .error f m')
  | undone (whole : f.isSetup = true) (undone : Undone given m.host m'.host)
  -- No step guards itself against failures that are no refusals; to register guards itself against
  -- values that it cannot take as well.
  | unguarded (own : f.isSetup = false) (other : f.isOs = false)
      (value : f.isValue = true →
        ∀ r ∈ m'.host.refusals, r.call = .register → r ∈ m.host.refusals)
  | unmeasured (own : f.isSetup = false) (immeasurable : ¬Measurable T config.pollMillis)
      (left : ∃ sink sock, Equipped given m.host sink sock m'.host)

section Steps
variable {given : Option Sink} {start h h' : Host T} {sink : Sink} {held : List SocketId}
  {selector : Bool}

omit [Clock T] in
theorem Materials.later {more : List SocketId} {last : Option Call} (materials : Materials given start sink held selector h)
    (dawns : Dawns h h') (prior : Prior h h')
    (standing : Standing start.sockets.length more last h') :
    Materials given start sink more selector h' := by
  have dawn := dawns materials.fresh
  have bounded := lt_of_isOpen materials.sending
  refine ⟨dawn.fresh, materials.given, ?_, ⟨last, standing⟩, ?_, ?_⟩
  · exact (dawn.stays.isOpen _ bounded).trans materials.sending
  · exact prior.selector.trans materials.selector
  · exact fun r there call => materials.refused r (prior.refused r there call) call

omit [Clock T] in
theorem Materials.prior (materials : Materials given start sink held selector h)
    (prior : Prior h h') : ∀ r ∈ h'.refusals, r.call = .register → r ∈ start.refusals :=
  fun r there call => materials.refused r (prior.refused r there call) call

omit [Clock T] in
theorem undone_shut (same : ∀ own ∈ given, sink = own) (selector : h.selectorOpen = false)
    (owns : h.Owns start.sockets.length [sink.sock]) : Undone given start (h.shut sink.sock) := by
  refine ⟨?_, (prior_shut h sink.sock).selector.trans selector, owns.shut⟩
  intro own there
  rw [← same own there, isOpen_shut, if_pos rfl]

omit [Clock T] [Resumable T P] in
theorem setupStep_falls {act : Run T P α} {caught : Failure → Bool} {undo : Run T P Unit}
    {wrap : Failure → Failure} {m : Machine T P} {done : α → Machine T P → Prop}
    {failed : Failure → Machine T P → Prop}
    (ends : Ends act m done fun f m' =>
      (caught f = true → Ends undo m' (fun _ => failed (wrap f)) failed) ∧
        (caught f = false → failed f m')) :
    Ends (setupStep act caught undo wrap) m done failed := by
  simp only [setupStep, ends_bind, ends_outcome]
  apply ends.imp
  · exact fun _ _ reached => reached
  · intro f m' fell
    cases guards : caught f with
    | true =>
      simp only [if_true, ends_bind, ends_fails]
      exact fell.1 guards
    | false => exact fell.2 guards

omit [Clock T] [Resumable T P] in
theorem guarded_guards {step : SetupStep} {act : Run T P Unit} {m : Machine T P} {sock : SocketId} :
    Ends (Endpoint.guarded sock step act) m (fun _ _ => True)
      fun f _ => f.isOs = true → f.isSetup = true := by
  simp only [Endpoint.guarded, ends_bind, ends_outcome]
  apply ends_any.imp
  · exact fun _ _ _ => trivial
  · intro f m' _
    split
    · rw [ends_bind, ends_close]
      exact fun _ => rfl
    · rename_i other
      exact fun refused => absurd refused other

variable [Idle T P] {m : Machine T P}

omit [Idle T P] in
theorem listening_guards (address : Address) (backlog : Given Int) (blocking : Bool) :
    Ends (Endpoint.listening address backlog blocking) m (fun _ _ => True)
      fun f _ => f.isOs = true → f.isSetup = true := by
  simp only [Endpoint.listening, Endpoint.newSocket, ends_bind, ends_outcome, ends_pure]
  apply ends_any.imp
  · intro sock made _
    apply guarded_guards.normally
    intro _ shared _
    apply guarded_guards.normally
    intro _ named _
    exact guarded_guards
  · intro f m' _
    split
    · exact fun _ => rfl
    · rename_i other
      exact fun refused => absurd refused other

theorem resolve_opens (address : Address) :
    Ends (Sink.resolve address) m (fun sink m' => m'.host.isOpen sink.sock = true)
      fun _ _ => True := by
  simp only [Sink.resolve, ends_bind, ends_outcome, ends_pure]
  apply ends_any.well
  intro dest found _
  apply ends_any.imp
  · intro sock made _
    apply (setBlocking_ends calm_fitted.steady false).well
    intro _ m' reached
    obtain ⟨h, s, -, known, opened, rfl⟩ := reached
    have same : (h.alter sock fun s => { s with timeout := some Clock.zero }).isOpen sock =
        h.isOpen sock := isOpen_alter fun _ => rfl
    exact same.trans ((isOpen_of_sock? known).trans opened)
  · intro f m' _
    split <;> trivial

end Steps

variable [Idle T P] {m : Machine T P} {given : Option Sink}

theorem orResolve_provides (fresh : Fresh m.host) (honest : m.host.Honest)
    (unselected : m.host.selectorOpen = false)
    (held : ∀ own ∈ given, m.host.isOpen own.sock = true) (config : Config) :
    Ends (Sink.orResolve given config.udp) m
      (fun sink m' => Materials given m.host sink [sink.sock] false m'.host)
      fun f m' => given = none ∧ Sink.resolve config.udp m = .error f m' := by
  have standing := Setup.standing_start m honest
  cases given with
  | some sink =>
    have stands : Standing m.host.sockets.length [sink.sock] m.host.lastStep m.host :=
      ⟨standing.honest, standing.owns.mono nofun, standing.last⟩
    exact ⟨fresh, fun own same => Option.some.inj same, held sink rfl, ⟨_, stands⟩, unselected,
      fun r there _ => there⟩
  | none =>
    have resolved := (Setup.resolve_falls standing config.udp).and ((resolve_opens config.udp).and
      ((founding_prior.resolve config.udp m).and ((orResolve_dawns (m := m) none config.udp).and Ends.ran)))
    apply resolved.imp
    · intro sink m' ended
      obtain ⟨stands, opened, ⟨prior, -⟩, ⟨dawns, -⟩, -⟩ := ended
      exact ⟨(dawns fresh).fresh, nofun, opened, ⟨_, stands⟩, prior.selector.trans unselected,
        prior.refused⟩
    · intro f m' ended
      exact ⟨rfl, ended.2.2.2.2⟩

variable {start : Host T} {sink : Sink}

theorem newSelector_opens (materials : Materials given start sink [sink.sock] false m.host) :
    Ends Os.newSelector m (fun _ m' => Materials given start sink [sink.sock] true m'.host)
      fun f m' => Materials given start sink [sink.sock] false m'.host ∧ f.isSetup = false := by
  obtain ⟨last, standing⟩ := materials.standing
  rw [Os.newSelector, ends_bind]
  have met := (incident_stands standing .selector).and
    ((prior_lively.incident .selector m).and (calm_dawns.mild.incident .selector m))
  apply met.imp
  · intro _ m' ended
    obtain ⟨stands, ⟨prior, -⟩, ⟨dawns, -⟩⟩ := ended
    have before := materials.later dawns prior stands
    have opened : Dawns m'.host { m'.host with selectorOpen := true } :=
      dawns_of_flows (Alike.settled ⟨rfl, rfl, rfl, rfl, rfl, fun _ kept => kept⟩)
        (flows_of_same rfl rfl rfl rfl)
    exact ⟨(opened before.fresh).fresh, before.given, before.sending,
      ⟨last, stands.same rfl rfl rfl⟩, rfl, before.refused⟩
  · intro f m' ended
    obtain ⟨⟨stands, own⟩, ⟨prior, -⟩, ⟨dawns, -⟩⟩ := ended
    exact ⟨materials.later dawns prior stands, own⟩

theorem listening_provides (materials : Materials given start sink [sink.sock] true m.host)
    (config : Config) :
    Ends (Endpoint.listening config.listen config.backlog false) m
      (fun sock m' => Materials given start sink [sink.sock, sock] true m'.host ∧
        Opened m'.host sock)
      fun f m' => Setup.Fallen start.sockets.length [sink.sock] f m'.host ∧
        (f.isOs = true → f.isSetup = true) ∧ Prior m.host m'.host := by
  obtain ⟨last, standing⟩ := materials.standing
  have opens := (Setup.listening_falls standing config.listen config.backlog false).and
    ((listening_guards config.listen config.backlog false).and
      ((founding_prior.listening config.listen config.backlog false m).and
        (listening_opened materials.fresh config.listen config.backlog false)))
  apply opens.imp
  · intro sock m' ended
    obtain ⟨stands, -, ⟨prior, -⟩, ⟨dawns, -⟩, opened, -⟩ := ended
    exact ⟨materials.later dawns prior stands, opened⟩
  · intro f m' ended
    exact ⟨ended.1, ended.2.1, ended.2.2.1.1⟩

omit [Clock T] [Resumable T P] [Idle T P] in
theorem Fallen.owns {f : Failure} {h : Host T} {n : SocketId} {held : List SocketId}
    (fallen : Setup.Fallen n held f h) (whole : f.isSetup = true) : h.Owns n held := by
  cases fallen with
  | named standing => exact standing.owns
  | misnamed standing => exact standing.owns
  | bare own => exact absurd (own.symm.trans whole) Bool.false_ne_true
  | foreign own => exact absurd (own.symm.trans whole) Bool.false_ne_true

theorem register_provides {sock : SocketId} (materials :
    Materials given start sink [sink.sock, sock] true m.host) :
    Ends (Os.register sock none) m (fun _ m' => Equipped given start sink sock m'.host)
      fun f m' => m'.host.Owns start.sockets.length [sink.sock, sock] ∧ f.isSetup = false := by
  obtain ⟨last, standing⟩ := materials.standing
  have own : Ends (Os.register sock none) m (fun _ _ => True) fun f _ => f.isSetup = false := by
    have honest : Honest (m.host.emit (.register (m.host.fileno sock))) := standing.honest
    simp only [Os.register, ends_noting, ends_bind, ends_asks, ends_emits]
    apply (incident_honest (m := ⟨_, m.prog⟩) honest .register).imp
    · intro _ m' _
      split
      · rfl
      · rw [ends_bind, ends_asks]
        split <;> trivial
    · exact fun _ _ fell => fell.2
  have calm := (calm_dawns (T := T)).and (calm_fitted.and calm_owned)
  apply ((register_ends calm.steady none).and own).imp
  · intro _ m' reached
    obtain ⟨⟨h, ⟨dawns, fitted, owned⟩, opened, -, rfl⟩, -⟩ := reached
    have dawn := dawns materials.fresh
    refine ⟨materials.given, ?_, fitted.selector.trans materials.selector, opened, ?_, ?_⟩
    · exact (dawn.stays.isOpen _ (lt_of_isOpen materials.sending)).trans materials.sending
    · simp only [Host.watch, dawn.fresh.entries, List.nil_append]
      rfl
    · exact (owned _ _ standing.owns).same rfl
  · intro f m' reached
    obtain ⟨⟨h, ⟨-, -, owned⟩, rfl⟩, own⟩ := reached
    exact ⟨(owned _ _ standing.owns).same rfl, own⟩

omit [Clock T] [Resumable T P] [Idle T P] in
theorem undone_all {h : Host T} {sock : SocketId} (same : ∀ own ∈ given, sink = own)
    (owns : h.Owns start.sockets.length [sink.sock, sock]) :
    Undone given start ((h.shut sock).quit.shut sink.sock) := by
  have closed : (h.shut sock).Owns start.sockets.length [sink.sock] := by
    apply Owns.shut
    exact owns
  exact undone_shut same rfl (closed.same rfl)

-- Each step finds what the steps before it acquired, and gives it back if it fails.
theorem create_makes (fresh : Fresh m.host) (honest : m.host.Honest)
    (unselected : m.host.selectorOpen = false)
    (held : ∀ own ∈ given, m.host.isOpen own.sock = true) (config : Config)
    (control : Option Control) :
    Ends (create config control given) m
      (fun relay m' => Measurable T config.pollMillis ∧ Unused relay ∧
        Equipped given m.host relay.sink relay.listener.sock m'.host)
      (Unmade config given m) := by
  simp only [create, ends_bind]
  apply (orResolve_provides fresh honest unselected held config).imp
  · intro sink resolved before
    apply setupStep_falls
    apply (newSelector_opens before).imp
    · intro _ chosen materials
      apply setupStep_falls
      apply (listening_provides materials config).imp
      · intro sock heeded ended
        obtain ⟨ready, opened⟩ := ended
        obtain ⟨s, known, -⟩ := opened.stream
        have isOpen := (isOpen_of_sock? known).symm.trans opened.isOpen
        simp only [ends_asks, Os.name, ends_bind, ends_pure]
        apply (ends_opened known isOpen).mpr
        apply setupStep_falls
        apply (register_provides ready).imp
        · intro _ watched equipped
          have unused (timeout : T) (address : Address) (stats : Stats T)
              (counters : stats.counters = {}) : Unused (T := T) {
                config, pollTimeout := timeout, sink, listener := { sock, address }, stats
                control } := ⟨rfl, rfl, rfl, counters, rfl⟩
          cases millis : config.pollMillis with
          | nothing =>
            exact .unmeasured rfl (millis ▸ not_measurable_nothing) ⟨sink, sock, equipped⟩
          | value n =>
            simp only
            split
            · rename_i holds
              exact ⟨measurable_value.mpr holds, unused _ _ _ rfl, equipped⟩
            · rename_i immeasurable
              have refuses : ¬Measurable T config.pollMillis :=
                millis ▸ immeasurable ∘ measurable_value.mp
              exact .unmeasured rfl refuses ⟨sink, sock, equipped⟩
        · intro f fell refused
          constructor
          · exact fun _ => .undone rfl (undone_all ready.given refused.1)
          · intro stranger
            rw [Bool.or_eq_false_iff] at stranger
            refine .unguarded refused.2 stranger.1 fun value => ?_
            exact absurd (stranger.2.symm.trans value) Bool.false_ne_true
      · intro f m' ended
        obtain ⟨fallen, guards, prior⟩ := ended
        constructor
        · intro whole
          have owns := Fallen.owns fallen whole
          exact .undone whole (undone_shut materials.given rfl (owns.same rfl))
        · intro bare
          refine .unguarded bare ?_ fun _ => materials.prior prior
          cases refused : f.isOs with
          | false => rfl
          | true => exact absurd (bare.symm.trans (guards refused)) Bool.false_ne_true
    · intro f m' ended
      obtain ⟨still, own⟩ := ended
      obtain ⟨last, standing⟩ := still.standing
      constructor
      · exact fun _ => .undone rfl (undone_shut still.given still.selector standing.owns)
      · exact fun other => .unguarded own other fun _ => still.refused
  · exact fun f m' ended => .unresolved ended.1 ended.2

-- Whatever fails while a relay is made, and whatever happens meanwhile.
theorem create_all_or_nothing (fresh : Fresh m.host) (honest : m.host.Honest)
    (unselected : m.host.selectorOpen = false)
    (held : ∀ own ∈ given, m.host.isOpen own.sock = true) (config : Config)
    (control : Option Control) :
    Ends (create config control given) m
      (fun relay m' => Measurable T config.pollMillis ∧ Unused relay ∧
        Equipped given m.host relay.sink relay.listener.sock m'.host)
      (Unmade config given m) :=
  create_makes fresh honest unselected held config control

-- A host with a socket for datagrams, which refuses to watch anything.
@[irreducible] def refusing : Machine Float Unit where
  host.clock := 0
  host.sockets := [{ fd := 3, transport := .datagram }]
  host.faults := [(.register, .incident [] (some (.value "Invalid file object")))]
  prog := ()

def readySink : Sink := ⟨0, plainConfig.udp⟩

theorem fresh_refusing : Fresh refusing.host := by
  unfold refusing
  refine ⟨⟨rfl, List.nodup_nil, fun id waits => absurd waits List.not_mem_nil⟩, rfl, rfl, rfl, rfl,
    rfl, fun id s known => ?_⟩
  cases id with
  | zero =>
    cases known
    exact ⟨rfl, rfl⟩
  | succ n => cases known

theorem create_all_or_nothing_refusing :
    Fresh refusing.host ∧ refusing.host.Honest ∧ refusing.host.selectorOpen = false ∧
      (∀ own ∈ some readySink, refusing.host.isOpen own.sock = true) ∧
      Ends (create plainConfig none (some readySink)) refusing
        (fun relay m' => Measurable Float plainConfig.pollMillis ∧ Unused relay ∧
          Equipped (some readySink) refusing.host relay.sink relay.listener.sock m'.host)
        (Unmade plainConfig (some readySink) refusing) ∧
      endsWell (create plainConfig none (some readySink)) refusing = false := by
  have held : ∀ own ∈ some readySink, refusing.host.isOpen own.sock = true := by
    intro own same
    cases same
    decide +kernel
  have honest : refusing.host.Honest := by decide +kernel
  have unselected : refusing.host.selectorOpen = false := by decide +kernel
  exact ⟨fresh_refusing, honest, unselected, held,
    create_all_or_nothing fresh_refusing honest unselected held plainConfig none,
    by decide +kernel⟩

def endlessConfig : Config := { plainConfig with pollMillis := Int.pow 10 400 }

@[irreducible] def willing : Machine Float Unit where
  host := { refusing.host with faults := [] }
  prog := ()

theorem create_leaves : ¬∀ (m : Machine Float Unit) (config : Config) (sink : Sink),
    Fresh m.host → m.host.Honest → m.host.selectorOpen = false → m.host.isOpen sink.sock = true →
      Ends (create config none (some sink)) m
        (fun relay m' => Unused relay ∧
          Equipped (some sink) m.host relay.sink relay.listener.sock m'.host)
        fun f m' => f.isSetup = true ∧ Undone (some sink) m.host m'.host := by
  intro atomic
  have fresh : Fresh willing.host := by
    unfold willing
    obtain ⟨⟨server, once, bounded⟩, receipts, offers, datagrams, accepted, entries, untouched⟩ :=
      fresh_refusing
    exact ⟨⟨server, once, bounded⟩, receipts, offers, datagrams, accepted, entries, untouched⟩
  have ends := atomic willing endlessConfig readySink fresh (by decide +kernel) (by decide +kernel)
    (by decide +kernel)
  have left : (match create endlessConfig none (some readySink) willing with
    | .ok _ _ => false
    | .error _ m' => m'.host.isOpen readySink.sock) = true := by decide +kernel
  unfold Ends at ends
  generalize create endlessConfig none (some readySink) willing = result at *
  cases result with
  | ok relay m' => exact Bool.false_ne_true left
  | error f m' =>
    have released := ends.2.released readySink rfl
    exact Bool.false_ne_true (released.symm.trans left)

end Relay
end StreamRelay
