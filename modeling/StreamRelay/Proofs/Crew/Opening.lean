import StreamRelay.Proofs.Crew.Staff
import StreamRelay.Proofs.Relay.Creation

namespace StreamRelay.Crew
variable {T : Type} [Clock T]
open Run Host Relay

-- A crew that was just made, on a host that was fresh before.
def Created (m : Machine T (Crew T)) : Prop :=
  ∃ h config sink, Fresh h ∧
    create config sink (⟨h, ()⟩ : Machine T Unit) = .ok m.prog ⟨m.host, ()⟩

structure Begun (m : Machine T (Crew T)) : Prop where
  fresh : Fresh m.host
  clients : m.prog.clients = []
  readers : m.prog.readers = []
  counters : m.prog.stats.counters = {}
  closed : m.prog.closed = false
  idle : m.prog.sock ∉ m.host.pending
  listens : ∃ s, m.host.sock? m.prog.sock = some s ∧ s.isOpen = true ∧
    s.timeout = some (Clock.millis Defaults.acceptMillis)

theorem create_begins {P : Type} [Resumable T P] [Idle T P] {m : Machine T P} (fresh : Fresh m.host)
    (config : Config) (sink : Option Sink) :
    Ends (create config sink) m (fun crew m' => Begun ⟨m'.host, crew⟩) fun _ _ => True := by
  simp only [create, ends_bind, ends_outcome]
  apply (orResolve_dawns sink config.udp).well
  intro sink resolved first
  have ready := (first.1 fresh).fresh
  apply (listening_opened ready config.listen config.backlog true).imp
  · intro sock listening opened
    apply (setTimeout_ends calm_dawns.steady _).well
    intro _ patient reached
    obtain ⟨h, s, path, known, isOpen, rfl⟩ := reached
    have last := (opened.2.1.later path).later
      (dawns_timeout h sock (some (Clock.millis Defaults.acceptMillis)))
    simp only [Os.name, ends_bind, ends_pure, ends_asks]
    apply opened_ends.well
    intro found m' named
    obtain ⟨rfl, -, -⟩ := named
    refine ⟨last.fresh, rfl, rfl, rfl, rfl, last.idle,
      { s with timeout := some (Clock.millis Defaults.acceptMillis) }, ?_, isOpen, rfl⟩
    exact sock?_alter_self.trans (congrArg (Option.map _) known)
  · intro f m' _
    split <;> trivial

theorem create_supplies {P : Type} [Resumable T P] [Idle T P] {m : Machine T P}
    {given : Option Sink} (fresh : Fresh m.host) (held : ∀ own ∈ given, Spare m.host own.sock)
    (config : Config) :
    Ends (create config given) m
      (fun crew m' => Spare m'.host crew.sink.sock ∧ crew.sink.sock ≠ crew.sock)
      fun _ _ => True := by
  have resolved : Ends (Sink.orResolve given config.udp) m
      (fun sink m' => Hosted Dawns m m' ∧ Spare m'.host sink.sock) fun _ _ => True := by
    cases given with
    | some sink => exact ⟨calm_dawns.course.refl m, held sink rfl⟩
    | none => exact (resolve_dawns config.udp).well fun _ _ found => ⟨found.1, found.2 fresh⟩
  simp only [create, ends_bind, ends_outcome]
  apply resolved.well
  intro sink resolved first
  obtain ⟨path, spare⟩ := first
  have ready := (path.1 fresh).fresh
  apply ((listening_opened ready config.listen config.backlog true).and
    (listening_new ready config.listen config.backlog true)).imp
  · intro sock listening ended
    obtain ⟨⟨⟨dawns, -⟩, opened, -⟩, new⟩ := ended
    have still := spare.later (dawns ready).stays
    apply (setTimeout_ends calm_dawns.steady _).well
    intro _ patient reached
    obtain ⟨h, s, further, -, -, rfl⟩ := reached
    have set := further.trans (dawns_timeout h sock (some (Clock.millis Defaults.acceptMillis)))
    simp only [Os.name, ends_bind, ends_pure, ends_asks]
    apply opened_ends.well
    intro found m' named
    obtain ⟨rfl, -, -⟩ := named
    exact ⟨still.later (set opened.fresh).stays,
      Nat.ne_of_lt (Nat.lt_of_lt_of_le (lt_of_isOpen spare.isOpen) new)⟩
  · intro f m' _
    split <;> trivial

def Supplied (m : Machine T (Crew T)) : Prop :=
  ∃ h config given, Fresh h ∧ (∀ own ∈ given, Spare h own.sock) ∧
    create config given (⟨h, ()⟩ : Machine T Unit) = .ok m.prog ⟨m.host, ()⟩

variable {m : Machine T (Crew T)}

theorem Supplied.created (supplied : Supplied m) : Created m := by
  obtain ⟨h, config, given, fresh, -, ran⟩ := supplied
  exact ⟨h, config, given, fresh, ran⟩

theorem Supplied.sink (supplied : Supplied m) :
    Spare m.host m.prog.sink.sock ∧ m.prog.sink.sock ≠ m.prog.sock := by
  obtain ⟨h, config, given, fresh, held, ran⟩ := supplied
  exact (create_supplies (m := ⟨h, ()⟩) fresh held config).of_ok ran

theorem Created.begun (created : Created m) : Begun m := by
  obtain ⟨h, config, sink, fresh, ran⟩ := created
  exact (create_begins (m := ⟨h, ()⟩) fresh config sink).of_ok ran

omit [Clock T] in
theorem strict_of_fresh {h : Host T} (fresh : Fresh h) : Strict h where
  orderly := fresh.orderly
  once := by
    rw [fresh.accepted]
    exact List.nodup_nil
  taken id there := by
    rw [fresh.accepted] at there
    exact absurd there List.not_mem_nil

theorem Begun.ledger (begun : Begun m) : Ledger ⟨m, .announcing, []⟩ where
  strict := strict_of_fresh begun.fresh
  roster := by simp only [begun.fresh.accepted, List.reverse_nil]; rfl
  clients := begun.clients
  counters := begun.counters
  takings := by simp only [Host.takings, begun.fresh.receipts]; exact .refl _
  reason := nofun

theorem Begun.staff (begun : Begun m) : Staff ⟨m, .announcing, []⟩ := by
  refine ⟨List.nodup_nil, nofun, ?_, nofun, nofun⟩
  intro r there
  rw [begun.readers] at there
  exact absurd there List.not_mem_nil

theorem Begun.inOrder (begun : Begun m)
    (patient : Clock.isZero (Clock.millis Defaults.acceptMillis : T) = false) :
    InOrder ⟨m, .announcing, []⟩ := by
  obtain ⟨l, known, opened, timeout⟩ := begun.listens
  refine ⟨begun.ledger, begun.staff, ?_, begun.idle, ?_, ?_, ?_⟩
  · rw [begun.fresh.accepted]
    exact List.not_mem_nil
  · exact lt_of_sock? known
  · intro _
    exact ⟨l, known, opened, by simp [Sock.waits, timeout, patient]⟩
  · exact fun _ => begun.closed

section Made
variable {P : Type} {act : Run T Unit P} {h : Host T}

def made (act : Run T Unit P) (h : Host T) (good : endsWell act ⟨h, ()⟩ = true) : Machine T P :=
  match ran : act ⟨h, ()⟩ with
  | .ok p m => ⟨m.host, p⟩
  | .error _ _ => absurd good (by simp [endsWell, ran])

omit [Clock T] in
theorem made_ran (good : endsWell act ⟨h, ()⟩ = true) :
    act ⟨h, ()⟩ = .ok (made act h good).prog ⟨(made act h good).host, ()⟩ := by
  unfold made
  split
  · assumption
  · rename_i ran
    simp [endsWell, ran] at good

end Made

-- A small crew, to which two clients come at once, and whose readers run at once or are put off.
def pairHost (mode : ThreadMode) : Host Int where
  clock := 0
  batches := [⟨[.connect { data := [104, 105], ended := true },
    .connect { data := [33], ended := true }], none⟩]
  clientMode := mode

theorem fresh_pairHost (mode : ThreadMode) : Fresh (pairHost mode) :=
  fresh_of_empty rfl rfl rfl rfl rfl

@[irreducible] def pairCrew (mode : ThreadMode) : Machine Int (Crew Int) :=
  made (create plainConfig none) (pairHost mode) (by cases mode <;> decide +kernel)

theorem supplied_pairCrew (mode : ThreadMode) : Supplied (pairCrew mode) := by
  unfold pairCrew
  exact ⟨pairHost mode, plainConfig, none, fresh_pairHost mode, nofun, made_ran _⟩

theorem created_pairCrew (mode : ThreadMode) : Created (pairCrew mode) :=
  (supplied_pairCrew mode).created

end StreamRelay.Crew
