import StreamRelay.Proofs.Crew.Serial

namespace StreamRelay
variable {T : Type}

def Host.Systemic (h : Host T) : Prop :=
  ∀ r ∈ h.refusals, r.call = .receive ∨ r.call = .sendTo → r.cause.isOs = true

instance (h : Host T) : Decidable h.Systemic :=
  inferInstanceAs (Decidable (∀ r ∈ h.refusals, _ → r.cause.isOs = true))

namespace Crew
open Run Host Counters

namespace Phase

def doomed : Phase → Bool
  | dying _ _ | fading _ | dead _ => true
  | _ => false

def fails : Phase → Bool
  | failing _ => true
  | _ => false

end Phase

-- Every reader has come back or died, and nobody is on the books without one.
def Settled (s : Stage T) : Prop :=
  s.duty.listed = [] ∧ ∀ hand ∈ s.hands, (hand.phase.signed || hand.phase.doomed) = true

instance (s : Stage T) : Decidable (Settled s) :=
  inferInstanceAs (Decidable (_ ∧ _))

def Living (s : Stage T) : Prop := ∀ hand ∈ s.hands, hand.phase.doomed = false

def Punctual (s : Stage T) : Prop :=
  ∀ hand ∈ s.hands, hand.phase.exit? ≠ some (.broke false)

-- What a reader met: the payloads that it got, whether each could be sent, and how its stream ended.
structure Fate where
  counted : List (Bytes × Bool)
  broke : Bool
  deriving DecidableEq

def Hand.fate (hand : Hand) : Fate where
  counted := hand.counted
  broke :=
    match hand.phase.exit? with
    | some (.broke _) => true
    | _ => false

def fates (s : Stage T) : List Fate := s.hands.map Hand.fate

def Fate.share (fate : Fate) : Counters :=
  { accepted := 1, closed := 1, readErrors := if fate.broke then 1 else 0 } + passed fate.counted

theorem Settled.signed {s : Stage T} (settled : Settled s) (living : Living s) :
    ∀ hand ∈ s.hands, hand.phase.signed = true := by
  intro hand there
  have past := settled.2 hand there
  rwa [living hand there, Bool.or_false] at past

theorem settled_of_finished {m : Machine T (Crew T)} {duty : Duty} {hands : List Hand}
    (listed : duty.listed = []) (finished : ∀ hand ∈ hands, hand.phase.finished = true) :
    Settled ⟨m, duty, hands⟩ := by
  refine ⟨listed, fun hand there => ?_⟩
  have past := finished hand there
  cases phase : hand.phase with
  | away | dead => rfl
  | _ =>
    rw [phase] at past
    exact absurd past Bool.false_ne_true

theorem Ledger.nobody {s : Stage T} (ledger : Ledger s) (settled : Settled s) (living : Living s) :
    s.machine.prog.clients = [] := by
  rw [ledger.clients, settled.1, List.append_nil, unsigned, List.map_eq_nil_iff]
  apply List.filter_eq_nil_iff.mpr
  intro hand there
  rw [settled.signed living hand there]
  exact Bool.false_ne_true

-- The counters do not tell when a reader did what, only what it met.
theorem Hand.tally_eq {hand : Hand} (signed : hand.phase.signed = true)
    (punctual : hand.phase.exit? ≠ some (.broke false)) : hand.tally = hand.fate.share := by
  obtain ⟨thread, sock, peer, phase, counted⟩ := hand
  cases phase with
  | leaving exit | away exit =>
    cases exit with
    | ended => rfl
    | broke noted =>
      cases noted with
      | true => rfl
      | false => exact absurd rfl punctual
  | _ => exact absurd signed Bool.false_ne_true

theorem Ledger.counters_settled {s : Stage T} (ledger : Ledger s) (settled : Settled s)
    (living : Living s) (punctual : Punctual s) :
    s.machine.prog.stats.counters = ((fates s).map Fate.share).sum := by
  have all : s.hands.map Hand.tally = (fates s).map Fate.share := by
    rw [fates, List.map_map]
    apply List.map_congr_left
    intro hand there
    exact Hand.tally_eq (settled.signed living hand there) (punctual hand there)
  rw [ledger.counters, settled.1, total, all]
  exact add_zero _

section Orders
variable [Clock T]

theorem turn_dooms (hand : Hand) (h : Host T) (p : Crew T) :
    Ends hand.turn ⟨h, p⟩
      (fun hand' m' => m'.host.Systemic → hand'.phase.doomed = hand.phase.doomed)
      fun _ _ => False := by
  apply (turn_moves hand h p).normally
  rintro _ _ ⟨phase, rfl, moves⟩ systemic
  obtain ⟨thread, sock, peer, now, counted⟩ := hand
  cases moves with
  | dies _ foreign noted =>
    obtain ⟨watched, listed⟩ := noted
    exact absurd (foreign.symm.trans (systemic _ listed (.inl rfl))) Bool.false_ne_true
  | drops _ foreign noted =>
    obtain ⟨watched, listed⟩ := noted
    exact absurd (foreign.symm.trans (systemic _ listed (.inr rfl))) Bool.false_ne_true
  | _ => rfl

theorem Living.step {a b : Stage T} (living : Living a) (step : Step a b)
    (systemic : b.machine.host.Systemic) : Living b := by
  cases step with
  | outside | told => exact living
  | turn taken =>
    cases taken with
    | @loop m m' duty duty' hands ran =>
      intro hand there
      rcases List.mem_append.mp there with before | new
      · exact living hand before
      · cases duty with
        | starting r =>
          cases List.mem_singleton.mp new
          rfl
        | _ => exact absurd new List.not_mem_nil
    | @hand m m' duty before after own own' ran =>
      have same := (turn_dooms own m.host m.prog).of_ok ran systemic
      intro hand there
      rcases mem_middle.mp there with rfl | other
      · exact same.trans (living own (mem_middle.mpr (.inl rfl)))
      · exact living hand (mem_middle.mpr (.inr other))

theorem Ledger.living {a b : Stage T} (ledger : Ledger a) (path : Reached a b) (living : Living a)
    (systemic : b.machine.host.Systemic) : Living b := by
  induction path with
  | refl => exact living
  | @tail middle last path step ih =>
    have before : middle.machine.host.Systemic := fun r there =>
      systemic r ((step_ages (ledger.reached path) step).refusals r there)
    exact (ih before).step step systemic

def unhurried (s : Stage T) : Bool :=
  !s.machine.host.serviceStop || s.hands.all fun hand => !hand.phase.fails

def Timely : Stage T → Stage T → Prop :=
  Relation.ReflTransGen fun a b => unhurried a = true ∧ Step a b

theorem Timely.reached {a b : Stage T} (path : Timely a b) : Reached a b :=
  Relation.ReflTransGen.mono (fun _ _ both => both.2) _ _ path

theorem Punctual.step {a b : Stage T} (punctual : Punctual a) (calm : unhurried a = true)
    (step : Step a b) : Punctual b := by
  cases step with
  | outside | told => exact punctual
  | turn taken =>
    cases taken with
    | @loop m m' duty duty' hands ran =>
      intro hand there
      rcases List.mem_append.mp there with before | new
      · exact punctual hand before
      · cases duty with
        | starting r =>
          cases List.mem_singleton.mp new
          exact nofun
        | _ => exact absurd new List.not_mem_nil
    | @hand m m' duty before after own own' ran =>
      have advances := (turn_advances own m.host m.prog).of_ok ran
      intro hand there
      rcases mem_middle.mp there with rfl | other
      · intro late
        have working : own ∈ before ++ own :: after := mem_middle.mpr (.inl rfl)
        rcases advances.late late with already | ⟨⟨f, fails⟩, told⟩
        · exact punctual own working already
        · have told : m.host.serviceStop = true := told
          simp only [unhurried, told, Bool.not_true, Bool.false_or, List.all_eq_true] at calm
          have idle := calm own working
          rw [fails] at idle
          exact Bool.false_ne_true idle
      · exact punctual hand (mem_middle.mpr (.inr other))

theorem Timely.punctual {a b : Stage T} (path : Timely a b) (punctual : Punctual a) :
    Punctual b := by
  induction path with
  | refl => exact punctual
  | tail _ step ih => exact ih.step step.1 step.2

theorem play_timely {order : List (Option Nat)} {a b : Stage T}
    (played : Stage.play unhurried order a = some b) : Timely a b :=
  Relation.ReflTransGen.mono (fun _ _ both => ⟨both.1, Step.turn both.2⟩) _ _ (Stage.play_path played)

end Orders
end Crew
end StreamRelay
