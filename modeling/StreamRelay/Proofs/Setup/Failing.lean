import StreamRelay.Crew.Serve
import StreamRelay.Proofs.Relay.Creation
import StreamRelay.Proofs.Setup.Steps

namespace StreamRelay.Setup
variable {T P α : Type}
open Run

-- A failure that is named for the call that failed, with everything closed that the setup opened or
-- was given.
structure Clean (start : SocketId) (given : Option Sink) (f : Failure) (h : Host T) : Prop where
  named : ∃ step cause, f = .setup step cause ∧ h.lastStep = some step.call
  closed : h.Owns start []
  released : ∀ sink ∈ given, h.isOpen sink.sock = false

def Covered (f : Failure) (last : Option Call) : Prop :=
  last ≠ some .setBlocking ∧ last ≠ some .setTimeout ∧ (last = some .lookup → f.isSetup = true)

-- A setup that the system refuses fails cleanly exactly if the call that failed is covered.
def Careful (given : Option Sink) (act : Run T P α) (m : Machine T P) : Prop :=
  Ends act m (fun _ _ => True) fun f m' => f.isOs = true ∨ f.isSetup = true →
    (Clean m.host.sockets.length given f m'.host ↔ Covered f m'.host.lastStep)

inductive Fallen (start : SocketId) (held : List SocketId) : Failure → Host T → Prop where
  | named {step : SetupStep} {cause : Failure} {h : Host T}
      (standing : Standing start held (some step.call) h) : Fallen start held (.setup step cause) h
  -- To set a listener's mode is guarded together with the call before it.
  | misnamed {cause : Failure} {h : Host T} (standing : Standing start held (some .setBlocking) h) :
      Fallen start held (.setup .listen cause) h
  | bare {f : Failure} {h : Host T} {call : Call} (own : f.isSetup = false)
      (last : h.lastStep = some call) (unguarded : call ∈ [Call.lookup, .setBlocking, .setTimeout]) :
      Fallen start held f h
  | foreign {f : Failure} {h : Host T} (own : f.isSetup = false) (other : f.isOs = false) :
      Fallen start held f h

variable {start sock : SocketId} {held : List SocketId} {last : Option Call} {f : Failure}
  {h : Host T}

theorem call_ne_setBlocking (step : SetupStep) : step.call ≠ .setBlocking := by
  cases step <;> nofun

theorem call_ne_setTimeout (step : SetupStep) : step.call ≠ .setTimeout := by
  cases step <;> nofun

theorem Fallen.shut (fallen : Fallen start (held ++ [sock]) f h) (whole : f.isSetup = true) :
    Fallen start held f (h.shut sock) := by
  cases fallen with
  | named standing => exact .named standing.shut
  | misnamed standing => exact .misnamed standing.shut
  | bare own => simp [own] at whole
  | foreign own => simp [own] at whole

theorem Fallen.passes {other : List SocketId} (fallen : Fallen start held f h)
    (own : f.isSetup = false) : Fallen start other f h := by
  cases fallen with
  | named | misnamed => exact absurd own.symm Bool.false_ne_true
  | bare own last unguarded => exact .bare own last unguarded
  | foreign own other => exact .foreign own other

theorem Fallen.clean_iff {given : Option Sink} (fallen : Fallen start [] f h)
    (refused : f.isOs = true ∨ f.isSetup = true)
    (released : f.isSetup = true → ∀ sink ∈ given, h.isOpen sink.sock = false) :
    Clean start given f h ↔ Covered f h.lastStep := by
  cases fallen with
  | @named step cause h standing =>
    have covered : Covered (.setup step cause) h.lastStep := by
      rw [standing.last]
      refine ⟨?_, ?_, fun _ => rfl⟩
      · exact fun same => call_ne_setBlocking step (Option.some.inj same)
      · exact fun same => call_ne_setTimeout step (Option.some.inj same)
    have clean : Clean start given (.setup step cause) h :=
      ⟨⟨step, cause, rfl, standing.last⟩, standing.owns, released rfl⟩
    exact iff_of_true clean covered
  | misnamed standing =>
    apply iff_of_false
    · intro clean
      obtain ⟨step, cause, same, last⟩ := clean.named
      rw [standing.last] at last
      exact call_ne_setBlocking step (Option.some.inj last).symm
    · exact fun covered => covered.1 standing.last
  | @bare f h call own last unguarded =>
    apply iff_of_false
    · intro clean
      obtain ⟨step, cause, rfl, -⟩ := clean.named
      exact Bool.false_ne_true own.symm
    · intro covered
      rw [last] at covered
      simp only [List.mem_cons, List.not_mem_nil, or_false] at unguarded
      obtain rfl | rfl | rfl := unguarded
      · have whole := covered.2.2 rfl
        simp [own] at whole
      · exact covered.1 rfl
      · exact covered.2.1 rfl
  | foreign own other => simp [own, other] at refused

section Parts
variable [Clock T] [Resumable T P] [Idle T P] {m : Machine T P}

omit [Clock T] [Resumable T P] [Idle T P] in
theorem guarded_falls {step : SetupStep} {act : Run T P Unit} {done : Unit → Machine T P → Prop}
    (ends : Ends act m done fun f m' => f.isSetup = false ∧
      (Standing start (held ++ [sock]) (some step.call) m'.host ∨
        step = .listen ∧ Standing start (held ++ [sock]) (some .setBlocking) m'.host)) :
    Ends (Endpoint.guarded sock step act) m done fun f m' => Fallen start held f m'.host := by
  simp only [Endpoint.guarded, ends_bind, ends_outcome]
  apply ends.imp
  · exact fun _ _ reached => reached
  · intro f m' fell
    split
    · rw [ends_bind, ends_close]
      cases fell.2 with
      | inl own => exact .named own.shut
      | inr other =>
        rw [other.1]
        exact .misnamed other.2.shut
    · rename_i other
      exact .foreign fell.1 (Bool.eq_false_iff.mpr other)

omit [Clock T] [Resumable T P] [Idle T P] in
theorem attempts_guarded (step : SetupStep) {act : Run T P Unit}
    (attempts : Attempts step.call act) (standing : Standing start (held ++ [sock]) last m.host) :
    Ends (Endpoint.guarded sock step act) m
      (fun _ m' => Standing start (held ++ [sock]) (some step.call) m'.host)
      fun f m' => Fallen start held f m'.host := by
  apply guarded_falls
  apply (attempts start _ last m standing).imp
  · exact fun _ _ stands => stands
  · exact fun _ _ fell => ⟨fell.2, .inl fell.1⟩

theorem newSocket_falls (standing : Standing start held last m.host) (transport : Transport)
    {step : SetupStep} (named : step.call = .socket) :
    Ends (Endpoint.newSocket transport step) m
      (fun id m' => start ≤ id ∧ Standing start (held ++ [id]) (some .socket) m'.host)
      fun f m' => Fallen start held f m'.host := by
  simp only [Endpoint.newSocket, ends_bind, ends_outcome]
  apply (socket_stands transport standing).imp
  · exact fun _ _ made => made
  · intro f m' fell
    split
    · rw [← named] at fell
      exact .named fell.1
    · rename_i other
      exact .foreign fell.2 (Bool.eq_false_iff.mpr other)

theorem listening_falls (standing : Standing start held last m.host) (address : Address)
    (backlog : Given Int) (blocking : Bool) :
    Ends (Endpoint.listening address backlog blocking) m
      (fun id m' => Standing start (held ++ [id]) (some .setBlocking) m'.host)
      fun f m' => Fallen start held f m'.host := by
  simp only [Endpoint.listening, ends_bind, ends_pure]
  apply (newSocket_falls standing .stream rfl).normally
  intro id made opened
  apply (attempts_guarded .reuseAddress reuseAddress_attempts opened.2).normally
  intro _ shared second
  apply (attempts_guarded .bind (bind_attempts address) second).normally
  intro _ named third
  apply guarded_falls
  rw [ends_bind]
  apply (listen_attempts backlog start _ _ _ third).imp
  · intro _ heeded fourth
    apply (setBlocking_attempts blocking start _ _ _ fourth).imp
    · exact fun _ _ stands => stands
    · exact fun _ _ fell => ⟨fell.2, .inr ⟨rfl, fell.1⟩⟩
  · exact fun _ _ fell => ⟨fell.2, .inl fell.1⟩

theorem receiving_falls (standing : Standing start held last m.host) (address : Address)
    (timeout : T) :
    Ends (Endpoint.receiving address timeout) m
      (fun id m' => ∃ last, Standing start (held ++ [id]) last m'.host)
      fun f m' => Fallen start held f m'.host := by
  simp only [Endpoint.receiving, ends_bind, ends_pure, ends_onlyIf]
  apply (newSocket_falls standing .datagram rfl).normally
  intro id made opened
  apply (attempts_guarded .bind (bind_attempts address) opened.2).normally
  intro _ named second
  split
  · apply (setTimeout_attempts _ start _ _ _ second).imp
    · exact fun _ _ third => ⟨_, third⟩
    · exact fun f m' fell => .bare fell.2 fell.1.last (by decide)
  · exact ⟨_, second⟩

theorem lookupFirst_falls (standing : Standing start held last m.host) (address : Address) :
    Ends (Sink.lookupFirst address) m
      (fun _ m' => Standing start held (some .lookup) m'.host)
      fun f m' => Fallen start held f m'.host := by
  simp only [Sink.lookupFirst, ends_bind, ends_outcome]
  apply (lookup_attempts address start held last m standing).imp
  · intro found m' stands
    cases found with
    | nil => exact .foreign rfl rfl
    | cons dest rest => exact stands
  · intro f m' fell
    split
    · exact .named fell.1
    · exact .bare fell.2 fell.1.last (by decide)

theorem resolve_falls (standing : Standing start held last m.host) (address : Address) :
    Ends (Sink.resolve address) m
      (fun sink m' => Standing start (held ++ [sink.sock]) (some .setBlocking) m'.host)
      fun f m' => Fallen start held f m'.host := by
  rw [Sink.resolve, ends_bind]
  apply (lookupFirst_falls standing address).normally
  intro dest found looked
  simp only [ends_bind, ends_outcome]
  apply (socket_stands .datagram looked).imp
  · intro sock made opened
    apply (setBlocking_attempts false start _ _ _ opened.2).imp
    · exact fun _ _ stands => stands
    · exact fun f m' fell => .bare fell.2 fell.1.last (by decide)
  · intro f m' fell
    split
    · exact .named fell.1
    · rename_i other
      exact .foreign fell.2 (Bool.eq_false_iff.mpr other)

theorem create_falls (standing : Standing start [] last m.host) (config : Config)
    (given : Option Sink) :
    Ends (Crew.create config given) m (fun _ _ => True) fun f m' => Fallen start [] f m'.host ∧
      (f.isSetup = true → ∀ sink ∈ given, m'.host.isOpen sink.sock = false) := by
  have resolved : Ends (Sink.orResolve given config.udp) m
      (fun sink m' => (∀ own ∈ given, sink = own) ∧
        ∃ last, Standing start ([] ++ [sink.sock]) last m'.host)
      fun f m' => Fallen start [] f m'.host ∧ given = none := by
    cases given with
    | some sink =>
      refine ⟨fun own there => Option.some.inj there, last, ?_⟩
      exact ⟨standing.honest, standing.owns.mono nofun, standing.last⟩
    | none =>
      apply (resolve_falls standing config.udp).imp
      · exact fun sink m' stands => ⟨nofun, _, stands⟩
      · exact fun f m' fell => ⟨fell, rfl⟩
  rw [Crew.create, ends_bind]
  apply resolved.imp
  · intro sink ready prepared
    obtain ⟨same, before, stands⟩ := prepared
    simp only [ends_bind, ends_outcome]
    apply (listening_falls stands config.listen config.backlog true).imp
    · intro sock made opened
      have passed {f : Failure} {m' : Machine T P} {held : List SocketId} (fell :
          Standing start held (some .setTimeout) m'.host ∧ f.isSetup = false) :
          Fallen start [] f m'.host ∧
            (f.isSetup = true → ∀ sink ∈ given, m'.host.isOpen sink.sock = false) :=
        ⟨.bare fell.2 fell.1.last (by decide), fun whole => by simp [fell.2] at whole⟩
      apply (setTimeout_attempts _ start _ _ _ opened).imp
      · intro _ set last
        rw [Os.name, ends_bind]
        apply (opened_stands last).imp
        · exact fun _ _ _ => trivial
        · exact fun _ _ fell => passed fell
      · exact fun _ _ fell => passed fell
    · intro f m' fell
      split
      · rename_i whole
        rw [ends_bind, Sink.close, ends_close]
        refine ⟨fell.shut whole, fun _ own there => ?_⟩
        rw [← same own there, Host.isOpen_shut, if_pos rfl]
      · rename_i other
        have own := Bool.eq_false_iff.mpr other
        exact ⟨fell.passes own, fun whole => absurd whole other⟩
  · intro f m' fell
    refine ⟨fell.1, fun _ own there => ?_⟩
    rw [fell.2] at there
    cases there

end Parts

theorem standing_start (m : Machine T P) (honest : m.host.Honest) :
    Standing m.host.sockets.length [] m.host.lastStep m.host :=
  ⟨honest, Host.owns_start m.host, rfl⟩

theorem careful_of_falls {act : Run T P α} {m : Machine T P} {given : Option Sink}
    (falls : Ends act m (fun _ _ => True) fun f m' => Fallen m.host.sockets.length [] f m'.host ∧
      (f.isSetup = true → ∀ sink ∈ given, m'.host.isOpen sink.sock = false)) :
    Careful given act m := by
  apply falls.imp
  · exact fun _ _ _ => trivial
  · exact fun f m' fell refused => fell.1.clean_iff refused fell.2

-- Whatever call the system refuses, and whatever happens meanwhile.
theorem setups_careful [Clock T] [Resumable T P] [Idle T P] (m : Machine T P)
    (honest : m.host.Honest) (address : Address) (backlog : Given Int) (blocking : Bool)
    (timeout : T) (config : Config) (sink : Option Sink) :
    Careful none (Sink.resolve address) m ∧
      Careful none (Endpoint.listening address backlog blocking) m ∧
      Careful none (Endpoint.receiving address timeout) m ∧
      Careful sink (Crew.create config sink) m := by
  have standing := standing_start m honest
  have alone {f : Failure} {h : Host T} (fallen : Fallen m.host.sockets.length [] f h) :
      Fallen m.host.sockets.length [] f h ∧
        (f.isSetup = true → ∀ sink ∈ (none : Option Sink), h.isOpen sink.sock = false) :=
    ⟨fallen, fun _ => nofun⟩
  refine ⟨careful_of_falls ?_, careful_of_falls ?_, careful_of_falls ?_, careful_of_falls ?_⟩
  · exact (resolve_falls standing address).imp (fun _ _ _ => trivial) fun _ _ => alone
  · exact (listening_falls standing address backlog blocking).imp (fun _ _ _ => trivial)
      fun _ _ => alone
  · exact (receiving_falls standing address timeout).imp (fun _ _ _ => trivial) fun _ _ => alone
  · exact create_falls standing config sink

def strictHost : Host Int where
  clock := 0
  faults := [(.setTimeout, .incident [] (some (.os (.ofNumber 22 "Invalid argument"))))]

theorem setups_careful_strict : Host.Honest strictHost ∧
    Careful none (Sink.resolve ⟨"h", (7 : Int)⟩) (⟨strictHost, ()⟩ : Machine Int Unit) ∧
      Careful none (Endpoint.listening ⟨"h", (7 : Int)⟩ (8 : Int) true)
        (⟨strictHost, ()⟩ : Machine Int Unit) ∧
      Careful none (Endpoint.receiving ⟨"h", (7 : Int)⟩ 1000) (⟨strictHost, ()⟩ : Machine Int Unit) ∧
      Careful none (Crew.create Relay.plainConfig none) (⟨strictHost, ()⟩ : Machine Int Unit) :=
  ⟨by decide, setups_careful ⟨strictHost, ()⟩ (by decide) _ _ _ _ _ _⟩

-- A refused timeout passes bare, and the bound socket stays open.
theorem receiving_leaks : ¬∀ (m : Machine Int Unit) (address : Address) (timeout : Int),
    m.host.Honest → Ends (Endpoint.receiving address timeout) m (fun _ _ => True) fun f m' =>
      f.isOs = true ∨ f.isSetup = true → Clean m.host.sockets.length none f m'.host := by
  intro clean
  have refused := clean ⟨strictHost, ()⟩ ⟨"h", (7 : Int)⟩ 1000 (by decide)
  obtain ⟨step, cause, same, -⟩ := (refused (.inl rfl)).named
  cases same

end StreamRelay.Setup
