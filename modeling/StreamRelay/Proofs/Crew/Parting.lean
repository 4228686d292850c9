import StreamRelay.Proofs.Crew.Opening

namespace StreamRelay.Crew
variable {T : Type}
open Run Host

-- Whether a crew is marked as closed, and its sink and its listener are open, at each point of its life.
inductive Progress : Bool → Bool → Bool → Duty → Prop where
  | works {duty : Duty} (going : duty.why? = none) : Progress false true true duty
  | marks {why : Why} : Progress false true true (.closing why [.marking])
  | tells {why : Why} : Progress true true true
      (.closing why [.telling, .shutting, .surveying, .calling, .releasing, .summing])
  | shuts {why : Why} : Progress true true true
      (.closing why [.shutting, .surveying, .calling, .releasing, .summing])
  | surveys {why : Why} : Progress true true false
      (.closing why [.surveying, .calling, .releasing, .summing])
  | wakes {why : Why} {sock : SocketId} {socks : List SocketId} : Progress true true false
      (.closing why (.waking sock :: (socks.map .waking ++ [.calling, .releasing, .summing])))
  | calls {why : Why} : Progress true true false (.closing why [.calling, .releasing, .summing])
  | joins {why : Why} {r : Reader} {readers : List Reader} : Progress true true false
      (.closing why (.joining r :: (readers.map .joining ++ [.releasing, .summing])))
  | releases {why : Why} : Progress true true false (.closing why [.releasing, .summing])
  | sums {why : Why} : Progress true false false (.closing why [.summing])
  | ends {why : Why} : Progress true false false (.closing why [])
  | gone {why : Why} : Progress true false false (.gone why none)
  -- Only to wake somebody can fail, and then not for a cause that the system gives.
  | cut {why : Why} {f : Failure} (foreign : f.isOs = false) :
      Progress true true false (.gone why (some f))

namespace Progress
variable {closed sink listener : Bool} {duty : Duty} {why : Why} {rest : List Chore}

theorem wakings (socks : List SocketId) : Progress true true false
    (.closing why (socks.map .waking ++ [.calling, .releasing, .summing])) := by
  cases socks with
  | nil => exact .calls
  | cons sock socks => exact .wakes

theorem joinings (readers : List Reader) : Progress true true false
    (.closing why (readers.map .joining ++ [.releasing, .summing])) := by
  cases readers with
  | nil => exact .releases
  | cons r readers => exact .joins

theorem of_going (progress : Progress closed sink listener duty) (going : duty.why? = none) :
    closed = false ∧ sink = true ∧ listener = true := by
  cases progress with
  | works => exact ⟨rfl, rfl, rfl⟩
  | _ => cases going

theorem of_closed (progress : Progress closed false listener duty) :
    (∃ why, duty = .closing why [.summing] ∨ duty = .closing why [] ∨ duty = .gone why none) := by
  cases progress with
  | sums => exact ⟨_, .inl rfl⟩
  | ends => exact ⟨_, .inr (.inl rfl)⟩
  | gone => exact ⟨_, .inr (.inr rfl)⟩

theorem of_marking (progress : Progress closed sink listener (.closing why (.marking :: rest))) :
    closed = false := by
  cases progress with
  | works going => cases going
  | marks => rfl

theorem of_releasing (progress : Progress closed sink listener (.closing why (.releasing :: rest))) :
    sink = true ∧ rest = [.summing] := by
  cases progress with
  | works going => cases going
  | releases => exact ⟨rfl, rfl⟩

theorem ending (progress : Progress closed sink listener (.closing why [])) :
    Progress closed sink listener (.gone why none) := by
  cases progress with
  | works going => cases going
  | ends => exact .gone

end Progress

namespace Phase

-- Whether the reader has closed its socket.
def parted : Phase → Bool
  | signing _ | leaving _ | away _ | fading _ | dead _ => true
  | _ => false

theorem parted_of_finished {phase : Phase} (finished : phase.finished = true) :
    phase.parted = true := by
  cases phase <;> first | rfl | exact absurd finished Bool.false_ne_true

end Phase

-- A reader keeps the sink that it has, and leaves off only when it closes its socket.
structure Parts (hand hand' : Hand) (m m' : Machine T (Crew T)) : Prop where
  sink : m'.prog.sink = m.prog.sink
  parted : hand'.phase.parted = true →
    hand.phase.parted = true ∨ m'.host.isOpen hand.sock = false

def Stands (m : Machine T (Crew T)) (duty : Duty) : Prop :=
  Progress m.prog.closed (m.host.isOpen m.prog.sink.sock) (m.host.isOpen m.prog.sock) duty

structure Fixed (m m' : Machine T (Crew T)) : Prop where
  sink : m'.prog.sink = m.prog.sink
  sock : m'.prog.sock = m.prog.sock

section Looping
variable {m m' : Machine T (Crew T)} {duty duty' : Duty} {id : SocketId}

theorem Fixed.stands {closed sink listener : Bool} (fixed : Fixed m m')
    (marked : m'.prog.closed = closed) (sending : m'.host.isOpen m.prog.sink.sock = sink)
    (hearing : m'.host.isOpen m.prog.sock = listener)
    (progress : Progress closed sink listener duty) : Stands m' duty := by
  rw [Stands, fixed.sink, fixed.sock, marked, sending, hearing]
  exact progress

theorem Loops.going (loops : Loops duty m duty' m') (going : duty.why? = none) :
    duty'.why? = none ∨ ∃ why, duty' = .closing why [.marking] := by
  cases loops with
  | idles free free' _ work => exact .inl (Duty.free_of_idle free').2.2.2
  | leaves | refuses => exact .inr ⟨_, rfl⟩
  | accepts | prepares | lists | hires | starts => exact .inl rfl
  | closes | ends | rests => cases going

theorem Loops.serves (loops : Loops duty m duty' m') (going : duty.why? = none)
    (orderly : m.host.Orderly) (aside : Aside m.host id)
    (clients : ∀ sock ∈ duty.inHand, sock ∈ m.host.accepted) :
    m'.host.isOpen id = m.host.isOpen id ∧ m'.prog.closed = m.prog.closed := by
  have same {own : List SocketId} {new : List (SocketId × Bytes)} {h h' : Host T}
      (work : Working own new h h') (orderly : h.Orderly) (aside : Aside h id) (other : id ∉ own) :
      h'.isOpen id = h.isOpen id := (work.1 orderly).2.isOpen other aside.bounded
  cases loops with
  | idles _ _ _ work | leaves _ _ _ work | refuses work _ =>
    exact ⟨same work orderly aside List.not_mem_nil, rfl⟩
  | @accepts h middle p s first rest peer fd work known queue =>
    exact ⟨(isOpen_dequeue (h := middle)).trans (same work orderly aside List.not_mem_nil), rfl⟩
  | @prepares sock peer h h' p work =>
    have other : id ∉ [sock] := by
      intro mine
      have client := clients sock (List.mem_singleton_self sock)
      exact aside.accepted (List.mem_singleton.mp mine ▸ client)
    exact ⟨same work orderly aside other, rfl⟩
  | lists | hires | starts => exact ⟨rfl, rfl⟩
  | closes | ends | rests => cases going

theorem Loops.fixed (loops : Loops duty m duty' m') : Fixed m m' := by
  cases loops with
  | closes work same _ =>
    cases same with
    | inl same =>
      subst same
      exact ⟨rfl, rfl⟩
    | inr marked =>
      subst marked
      exact ⟨rfl, rfl⟩
  | _ => exact ⟨rfl, rfl⟩

theorem Loops.aside (loops : Loops duty m duty' m') (orderly : m.host.Orderly)
    (aside : Aside m.host id) : Aside m'.host id := by
  cases loops with
  | idles _ _ _ work | leaves _ _ _ work | prepares work | refuses work _ =>
    exact aside.going (work.1 orderly).2
  | closes work _ _ | ends work => exact aside.going (work.1 orderly).2
  | accepts work known queue => exact (aside.going (work.1 orderly).2).accept known queue
  | lists | hires | starts | rests => exact ⟨aside.accepted, aside.idle, aside.bounded⟩

theorem isOpen_logged (h : Host T) (level : Level) (text : String) (id : SocketId) :
    (h.logged level text).isOpen id = h.isOpen id := by
  obtain ⟨trace, stderr, same⟩ := h.logged_same level text
  rw [same]
  rfl

end Looping

section Moving
variable [Clock T] {m m' : Machine T (Crew T)} {h h' : Host T} {p : Crew T} {duty duty' : Duty}
  {hands : List Hand} {why : Why} {chore : Chore} {rest : List Chore} {id : SocketId}

omit [Clock T] in
theorem Parts.busy {hand hand' : Hand} (sink : m'.prog.sink = m.prog.sink)
    (goes : hand'.phase.parted = false) : Parts hand hand' m m' :=
  ⟨sink, fun parted => absurd (goes.symm.trans parted) Bool.false_ne_true⟩

theorem turn_parts (hand : Hand) (h : Host T) (p : Crew T) :
    Ends hand.turn ⟨h, p⟩ (fun hand' m' => Parts hand hand' ⟨h, p⟩ m') fun _ _ => False := by
  apply (turn_moves hand h p).normally
  rintro _ _ ⟨phase, rfl, moves⟩
  obtain ⟨thread, sock, peer, now, counted⟩ := hand
  have shut : (h.shut sock).isOpen sock = false := isOpen_shut.trans (if_pos rfl)
  cases moves with
  | ended | gets | fails | dies | passes | drops | counts | overlooks | reports | notes =>
    exact .busy rfl rfl
  | closes => exact ⟨rfl, fun _ => .inr ((isOpen_logged _ _ _ _).trans shut)⟩
  | falls => exact ⟨rfl, fun _ => .inr shut⟩
  | signs | leaves | fades => exact ⟨rfl, fun _ => .inl rfl⟩
  | rests => exact ⟨rfl, fun parted => .inl parted⟩

-- To wake a reader opens and closes nothing, and fails for no cause that the system gives.
theorem wake_settles : Ends (wake id) m (fun _ m' => Hosted Host.Settled m m')
    fun f m' => Hosted Host.Settled m m' ∧ f.isOs = false := by
  have course := calm_settled.course (T := T) (P := Crew T)
  have shuts : Keeps (P := Crew T) (T := T) Host.Settled (Os.shutdown id) := by
    have told (h : Host T) : Host.Settled h { h with shutdowns := h.shutdowns ++ [h.number id] } :=
      Alike.settled ⟨rfl, rfl, rfl, rfl, rfl, fun _ kept => kept⟩
    have alters (h : Host T) : Host.Settled h (h.alter id fun s => { s with shut := true }) :=
      settled_alter (fun _ => rfl) (fun _ => rfl) fun _ => rfl
    refine .bind course (changes_keeps told) fun _ => ?_
    refine .bind course (calm_settled.mild.incident .shutdown) fun _ => ?_
    exact .bind course (opened_keeps calm_settled.steady.lively) fun _ => changes_keeps alters
  simp only [wake, ends_bind, ends_outcome]
  apply (shuts m).imp
  · exact fun _ _ path => path
  · intro f m' path
    split
    · exact path
    · rename_i foreign
      exact ⟨path, Bool.eq_false_iff.mpr foreign⟩

-- What a chore of a crew comes to: how far that gets it, and that none but the release of it closes
-- the sink.
structure Proceeds (chore : Chore) (m m' : Machine T (Crew T)) (duty : Duty) : Prop where
  fixed : Fixed m m'
  stands : Stands m' duty
  sink : m.host.isOpen m.prog.sink.sock = true → chore ≠ .releasing →
    m'.host.isOpen m.prog.sink.sock = true

theorem chore_proceeds (orderly : h.Orderly) (listener : Aside h p.sock)
    (sink : Aside h p.sink.sock) (apart : p.sink.sock ≠ p.sock)
    (stands : Stands ⟨h, p⟩ (.closing why (chore :: rest))) :
    Ends chore.turn ⟨h, p⟩
      (fun more m' => Proceeds chore ⟨h, p⟩ m' (.closing why (more ++ rest)))
      fun f m' => Proceeds chore ⟨h, p⟩ m' (.gone why (some f)) := by
  have shut (id : SocketId) : (h.shut id).isOpen id = false := isOpen_shut.trans (if_pos rfl)
  have spares {id other : SocketId} (differs : id ≠ other) :
      (h.shut id).isOpen other = h.isOpen other := isOpen_shut.trans (if_neg differs)
  have bound {m' : Machine T (Crew T)} {duty : Duty} {closed heard : Bool}
      (fixed : Fixed ⟨h, p⟩ m') (marked : m'.prog.closed = closed)
      (sending : m'.host.isOpen p.sink.sock = true) (hearing : m'.host.isOpen p.sock = heard)
      (progress : Progress closed true heard duty) : Proceeds chore ⟨h, p⟩ m' duty :=
    ⟨fixed, fixed.stands marked sending hearing progress, fun _ _ => sending⟩
  unfold Stands at stands
  simp only at stands
  generalize marked : p.closed = closed at stands
  generalize sending : h.isOpen p.sink.sock = open' at stands
  generalize hearing : h.isOpen p.sock = heard at stands
  cases stands with
  | works going => cases going
  | marks =>
    simp only [Chore.turn, ends_bind, ends_gets, marked]
    exact bound ⟨rfl, rfl⟩ rfl sending hearing .tells
  | tells => exact bound ⟨rfl, rfl⟩ marked sending hearing .shuts
  | shuts =>
    exact bound ⟨rfl, rfl⟩ marked ((spares apart.symm).trans sending) (shut p.sock) .surveys
  | surveys => exact bound ⟨rfl, rfl⟩ marked sending hearing (.wakings _)
  | @wakes _ sock socks =>
    have still {h' : Host T} (settled : Host.Settled h h') {duty : Duty}
        (progress : Progress true true false duty) :
        Proceeds (.waking sock) ⟨h, p⟩ ⟨h', p⟩ duty := by
      have stays := (settled orderly).2
      exact bound ⟨rfl, rfl⟩ marked ((stays.isOpen _ sink.bounded).trans sending)
        ((stays.isOpen _ listener.bounded).trans hearing) progress
    simp only [Chore.turn, ends_bind]
    apply wake_settles.imp
    · intro _ m' path
      obtain ⟨h', settled, rfl⟩ := path.cases
      exact still settled (.wakings socks)
    · intro f m' fell
      obtain ⟨path, foreign⟩ := fell
      obtain ⟨h', settled, rfl⟩ := path.cases
      exact still settled (.cut foreign)
  | calls => exact bound ⟨rfl, rfl⟩ marked sending hearing (.joinings _)
  | @joins _ r readers => exact bound ⟨rfl, rfl⟩ marked sending hearing (.joinings readers)
  | releases =>
    have fixed : Fixed ⟨h, p⟩ (⟨h.shut p.sink.sock, p⟩ : Machine T (Crew T)) := ⟨rfl, rfl⟩
    refine ⟨fixed, ?_, fun _ other => absurd rfl other⟩
    exact fixed.stands marked (shut p.sink.sock) ((spares apart).trans hearing) .sums
  | sums =>
    let last := h.logged .info ("forwarder stopped; " ++ p.stats.summary h.clock)
    have same (id : SocketId) : last.isOpen id = h.isOpen id := isOpen_logged h _ _ id
    have fixed : Fixed ⟨h, p⟩ (⟨last, p⟩ : Machine T (Crew T)) := ⟨rfl, rfl⟩
    refine ⟨fixed, ?_, fun opened _ => absurd (sending.symm.trans opened) Bool.false_ne_true⟩
    exact fixed.stands marked ((same _).trans sending) ((same _).trans hearing) .ends

-- All that is true of a crew, and of its sink, at every stage.
structure Attended (s : Stage T) : Prop where
  ledger : Ledger s
  staff : Staff s
  listener : Aside s.machine.host s.machine.prog.sock
  sink : Aside s.machine.host s.machine.prog.sink.sock
  apart : s.machine.prog.sink.sock ≠ s.machine.prog.sock
  stands : Stands s.machine s.duty
  parted : ∀ hand ∈ s.hands, hand.phase.parted = true → s.machine.host.isOpen hand.sock = false

namespace Attended

theorem progresses (attended : Attended ⟨m, duty, hands⟩) (ran : duty.turn m = .ok duty' m') :
    Stands m' duty' := by
  obtain ⟨ledger, staff, listener, sink, apart, stands, parted⟩ := attended
  simp only at listener sink apart stands
  have orderly := ledger.strict.orderly
  have serves (going : duty.why? = none) : Stands m' duty' := by
    have loops := (turn_loops duty m.host m.prog).of_ok ran
    have clients : ∀ sock ∈ duty.inHand, sock ∈ m.host.accepted :=
      fun sock there => ledger.accepted (List.mem_append_right _ there)
    have fixed := loops.fixed
    obtain ⟨sending, closed⟩ := loops.serves going orderly sink clients
    obtain ⟨hearing, -⟩ := loops.serves going orderly listener clients
    obtain ⟨unclosed, open', heard⟩ := stands.of_going going
    rw [Stands, fixed.sink, fixed.sock, closed, sending, hearing, unclosed, open', heard]
    rcases loops.going going with still | ⟨why, rfl⟩
    · exact .works still
    · exact .marks
  cases duty with
  | closing why left =>
    cases left with
    | nil =>
      cases ran
      exact stands.ending
    | cons chore rest =>
      have ends : Ends (Duty.turn (.closing why (chore :: rest))) m
          (fun duty' m' => Stands m' duty') fun _ _ => True := by
        simp only [Duty.turn, ends_bind, ends_outcome, ends_pure]
        apply (chore_proceeds orderly listener sink apart stands).imp
        · exact fun _ _ proceeds => proceeds.stands
        · exact fun _ _ proceeds => proceeds.stands
      exact ends.of_ok ran
  | gone why cut =>
    cases ran
    exact stands
  | _ => exact serves rfl

theorem turn {a b : Stage T} (attended : Attended a) (turn : Turn a b) : Attended b := by
  have ages := turn_ages attended.ledger turn
  have ledger := attended.ledger.turn turn
  have staff := attended.staff.turn attended.ledger.strict.orderly turn
  have bounded (hand : Hand) (there : hand ∈ a.hands) :
      hand.sock < a.machine.host.sockets.length :=
    (attended.ledger.strict.taken _ (attended.ledger.client there)).2
  cases turn with
  | @loop m m' duty duty' hands ran =>
    have loops := (turn_loops duty m.host m.prog).of_ok ran
    have orderly := attended.ledger.strict.orderly
    obtain ⟨sink, sock⟩ := loops.fixed
    refine ⟨ledger, staff, ?_, ?_, ?_, attended.progresses ran, ?_⟩
    · exact sock ▸ loops.aside orderly attended.listener
    · exact sink ▸ loops.aside orderly attended.sink
    · exact sink ▸ sock ▸ attended.apart
    · intro hand there parted
      rcases List.mem_append.mp there with before | new
      · exact ages.shut _ (bounded hand before) (attended.parted hand before parted)
      · cases duty with
        | starting r =>
          cases List.mem_singleton.mp new
          cases parted
        | _ => exact absurd new List.not_mem_nil
  | @hand m m' duty before after hand hand' ran =>
    have advances := (turn_advances hand m.host m.prog).of_ok ran
    obtain ⟨sink, parts⟩ := (turn_parts hand m.host m.prog).of_ok ran
    obtain ⟨got, -, work⟩ := advances.host
    obtain ⟨-, goes⟩ := work.1 attended.ledger.strict.orderly
    have mine : hand ∈ before ++ hand :: after := mem_middle.mpr (.inl rfl)
    have client := attended.ledger.client mine
    have other {id : SocketId} (aside : Aside m.host id) : m'.host.isOpen id = m.host.isOpen id := by
      refine goes.isOpen (fun own => aside.accepted ?_) aside.bounded
      exact List.mem_singleton.mp own ▸ client
    refine ⟨ledger, staff, ?_, ?_, ?_, ?_, ?_⟩
    · exact advances.listener ▸ attended.listener.going goes
    · exact sink ▸ attended.sink.going goes
    · exact sink ▸ advances.listener ▸ attended.apart
    · have stands := attended.stands
      rw [Stands, sink, advances.listener, advances.closed, other attended.sink,
        other attended.listener]
      exact stands
    · intro one there parted
      rcases mem_middle.mp there with rfl | others
      · rw [advances.sock]
        cases parts parted with
        | inl already => exact ages.shut _ (bounded hand mine) (attended.parted hand mine already)
        | inr shut => exact shut
      · have known : one ∈ before ++ hand :: after := mem_middle.mpr (.inr others)
        exact ages.shut _ (bounded one known) (attended.parted one known parted)

omit [Clock T] in
-- What happens outside concerns neither the listener nor the sink, and opens nothing again.
theorem outside (attended : Attended ⟨⟨h, p⟩, duty, hands⟩)
    (path : Going [] [] h h') (ledger : Ledger ⟨⟨h', p⟩, duty, hands⟩) :
    Attended ⟨⟨h', p⟩, duty, hands⟩ := by
  obtain ⟨-, goes⟩ := path attended.ledger.strict.orderly
  have same {id : SocketId} (aside : Aside h id) : h'.isOpen id = h.isOpen id :=
    goes.isOpen List.not_mem_nil aside.bounded
  refine ⟨ledger, attended.staff.same goes.threads rfl rfl, attended.listener.going goes,
    attended.sink.going goes, attended.apart, ?_, fun hand there parted => ?_⟩
  · have stands := attended.stands
    rw [Stands]
    simp only [same attended.sink, same attended.listener]
    exact stands
  · have bounded := (attended.ledger.strict.taken _ (attended.ledger.client there)).2
    exact goes.ages.shut _ bounded (attended.parted hand there parted)

theorem step {a b : Stage T} (attended : Attended a) (step : Step a b) : Attended b := by
  have ledger := attended.ledger.step step
  cases step with
  | turn taken => exact attended.turn taken
  | @outside m duty hands action => exact attended.outside (calm_going.apply m.host action) ledger
  | @told m duty hands => exact attended.outside (working_raise m.host).1 ledger

theorem reached {start s : Stage T} (attended : Attended start) (path : Reached start s) :
    Attended s := by
  induction path with
  | refl => exact attended
  | tail _ step ih => exact ih.step step

end Attended

theorem step_fixed {a b : Stage T} (step : Step a b) : Fixed a.machine b.machine := by
  cases step with
  | outside | told => exact ⟨rfl, rfl⟩
  | turn taken =>
    cases taken with
    | @loop m m' duty duty' hands ran => exact ((turn_loops duty m.host m.prog).of_ok ran).fixed
    | @hand m m' duty before after hand hand' ran =>
      exact ⟨((turn_parts hand m.host m.prog).of_ok ran).sink,
        ((turn_advances hand m.host m.prog).of_ok ran).listener⟩

theorem Attended.stays_shut {a b : Stage T} (attended : Attended a) (path : Reached a b)
    (shut : a.machine.host.isOpen a.machine.prog.sink.sock = false) :
    b.machine.host.isOpen b.machine.prog.sink.sock = false := by
  induction path with
  | refl => exact shut
  | tail path step ih =>
    have before := attended.reached path
    rw [(step_fixed step).sink]
    exact (step_ages before.ledger step).shut _ before.sink.bounded ih

theorem Supplied.attended (supplied : Supplied m) : Attended ⟨m, .announcing, []⟩ := by
  have begun := supplied.created.begun
  obtain ⟨spare, apart⟩ := supplied.sink
  obtain ⟨l, known, opened, -⟩ := begun.listens
  have nobody (id : SocketId) : id ∉ m.host.accepted := by
    rw [begun.fresh.accepted]
    exact List.not_mem_nil
  refine ⟨begun.ledger, begun.staff, ?_, ?_, apart, ?_, nofun⟩
  · exact ⟨nobody _, begun.idle, lt_of_sock? known⟩
  · exact ⟨nobody _, spare.idle, lt_of_isOpen spare.isOpen⟩
  · simp only [Stands, begun.closed, spare.isOpen, isOpen_of_sock? known, opened]
    exact .works rfl

end Moving
end StreamRelay.Crew
