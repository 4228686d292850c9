import StreamRelay.Proofs.Crew.Opening
import StreamRelay.Proofs.Crew.Fates

namespace StreamRelay.Crew
variable {T : Type}
open Run Host Counters

def recorded (hands : List Hand) : List (Bytes × Bool) := hands.flatMap Hand.counted

def sentBytes (counted : List (Bytes × Bool)) : Bytes := (counted.filter Prod.snd).flatMap Prod.fst

def holders (hands : List Hand) : Nat := hands.countP fun hand => hand.phase.held.isSome

structure Accounted (s : Stage T) : Prop where
  -- Each client that was accepted has one reader, but for the one that the loop is about.
  roster : s.machine.host.accepted.reverse = s.hands.map Hand.sock ++ s.duty.inHand
  once : s.machine.host.accepted.Nodup
  clients : s.machine.prog.clients = unsigned s.hands ++ s.duty.listed
  accepted : s.machine.prog.stats.counters.accepted =
    s.machine.prog.stats.counters.closed + s.machine.prog.clients.length
  received : s.machine.prog.stats.counters.datagrams +
    s.machine.prog.stats.counters.forwardFailures + holders s.hands = s.machine.host.takings.length
  takings : s.machine.host.takings.Perm (takings s.hands)
  bytes : s.machine.prog.stats.counters.bytes = (sentBytes (recorded s.hands)).length

section Sums

theorem passed_eq (counted : List (Bytes × Bool)) : passed counted = {
    datagrams := counted.countP Prod.snd
    bytes := (sentBytes counted).length
    forwardFailures := counted.countP fun entry => !entry.2 } := by
  induction counted with
  | nil => rfl
  | cons entry rest ih =>
    obtain ⟨data, sent⟩ := entry
    have first : passed ((data, sent) :: rest) =
        ({} : Counters).forwarded sent data.length + passed rest := List.sum_cons
    rw [first, ih]
    cases sent <;> apply ext_fields <;> simp [forwarded, sentBytes, Int.add_comm]

theorem total_eq (hands : List Hand) : total hands = {
    accepted := hands.length
    closed := hands.countP fun hand => hand.phase.signed
    readErrors := hands.countP fun hand => hand.phase.exit? = some (.broke true) } +
    passed (recorded hands) := by
  induction hands with
  | nil => rfl
  | cons hand rest ih =>
    have counted : recorded (hand :: rest) = hand.counted ++ recorded rest := List.flatMap_cons
    rw [total_cons, ih, counted, passed_append]
    apply ext_fields
    all_goals simp only [Hand.tally, Phase.tally, List.countP_cons, List.length_cons, accepted_add,
      closed_add, datagrams_add, bytes_add, forwardFailures_add, readErrors_add, decide_eq_true_eq]
    case closed | readErrors => split <;> omega
    all_goals omega

theorem length_takings (hands : List Hand) :
    (takings hands).length = (recorded hands).length + holders hands := by
  induction hands with
  | nil => rfl
  | cons hand rest ih =>
    have counted : recorded (hand :: rest) = hand.counted ++ recorded rest := List.flatMap_cons
    rw [takings_cons, counted]
    simp only [List.length_append, List.length_map, ih, holders, List.countP_cons, Hand.taken]
    cases hand.phase.held <;> simp <;> omega

theorem length_sent (counted : List (Bytes × Bool)) :
    counted.length = counted.countP Prod.snd + counted.countP fun entry => !entry.2 := by
  have all := List.length_eq_countP_add_countP (l := counted) Prod.snd
  simpa only [Bool.not_eq_true, Bool.decide_eq_false] using all

theorem length_unsigned (hands : List Hand) :
    hands.length = hands.countP (fun hand => hand.phase.signed) + (unsigned hands).length := by
  have all := List.length_eq_countP_add_countP (l := hands) fun hand => hand.phase.signed
  rw [unsigned, List.length_map, ← List.countP_eq_length_filter]
  simpa only [Bool.not_eq_true, Bool.decide_eq_false] using all

end Sums

theorem Ledger.accounted {s : Stage T} (ledger : Ledger s) : Accounted s := by
  obtain ⟨strict, roster, clients, counters, received, -⟩ := ledger
  rw [total_eq, passed_eq] at counters
  constructor
  case roster => exact roster
  case once => exact strict.once
  case clients => exact clients
  case takings => exact received
  case accepted =>
    have all := length_unsigned s.hands
    simp only [counters, clients, List.length_append, accepted_add, closed_add]
    omega
  case received =>
    have all := length_sent (recorded s.hands)
    simp only [counters, received.length_eq, length_takings, datagrams_add, forwardFailures_add]
    omega
  case bytes =>
    simp only [counters, bytes_add]
    omega

theorem Ledger.level {s : Stage T} (ledger : Ledger s) (settled : Settled s) (living : Living s) :
    s.machine.prog.stats.counters.accepted = s.machine.prog.stats.counters.closed := by
  rw [ledger.accounted.accepted, ledger.nobody settled living]
  exact Int.add_zero _

section Services
variable [Clock T]

-- A stage at which all is counted: nothing is going on, nobody has died, and nobody was hurried.
structure Whole (m : Machine T (Crew T)) (s : Stage T) : Prop where
  reached : Reached ⟨m, .announcing, []⟩ s
  settled : Settled s
  systemic : s.machine.host.Systemic
  punctual : Punctual s

structure Served (m : Machine T (Crew T)) (s : Stage T) : Prop where
  reached : Reached ⟨m, .announcing, []⟩ s
  machine : s.machine = after serve m
  settled : Settled s

theorem Begun.served {m : Machine T (Crew T)} (begun : Begun m)
    (patient : Clock.isZero (Clock.millis Defaults.acceptMillis : T) = false)
    (stops : m.host.StopsService) (good : endsWell serve m = true) : ∃ s, Served m s := by
  have ran := eq_ok_of_endsWell good
  obtain ⟨hands, finished, path⟩ := (serve_turns (begun.inOrder patient) stops).of_ok ran
  exact ⟨_, path.reached, rfl, settled_of_finished rfl finished⟩

-- Whatever the order of the turns, the books are in order at every stage, and two crews whose readers
-- met the same have counted the same in the end. A service is one such order, in which each reader is
-- at work between two turns of the loop or put off to the end.
theorem crews_account {m : Machine T (Crew T)} (created : Created m) :
    (∀ s, Reached ⟨m, .announcing, []⟩ s → Accounted s ∧
      (Settled s → s.machine.host.Systemic →
        s.machine.prog.stats.counters.accepted = s.machine.prog.stats.counters.closed)) ∧
    (∀ (n : Machine T (Crew T)) (s r : Stage T), Created n → Whole m s → Whole n r →
      (fates s).Perm (fates r) →
      s.machine.prog.stats.counters = r.machine.prog.stats.counters) ∧
    (∀ s, Timely ⟨m, .announcing, []⟩ s → Punctual s) ∧
    (Clock.isZero (Clock.millis Defaults.acceptMillis : T) = false → m.host.StopsService →
      endsWell serve m = true → ∃ s, Served m s) := by
  have books {n : Machine T (Crew T)} {s : Stage T} (made : Created n)
      (path : Reached ⟨n, .announcing, []⟩ s) : Ledger s := made.begun.ledger.reached path
  have alive {n : Machine T (Crew T)} {s : Stage T} (made : Created n)
      (path : Reached ⟨n, .announcing, []⟩ s) (systemic : s.machine.host.Systemic) : Living s :=
    made.begun.ledger.living path (fun _ there => absurd there List.not_mem_nil) systemic
  have sums {n : Machine T (Crew T)} {s : Stage T} (made : Created n) (whole : Whole n s) :
      s.machine.prog.stats.counters = ((fates s).map Fate.share).sum :=
    (books made whole.reached).counters_settled whole.settled
      (alive made whole.reached whole.systemic) whole.punctual
  refine ⟨?_, ?_, ?_, created.begun.served⟩
  · intro s path
    have ledger := books created path
    exact ⟨ledger.accounted, fun settled systemic => ledger.level settled (alive created path systemic)⟩
  · intro n s r made one two met
    calc
      s.machine.prog.stats.counters = ((fates s).map Fate.share).sum := sums created one
      _ = ((fates r).map Fate.share).sum := (met.map Fate.share).sum_eq
      _ = r.machine.prog.stats.counters := (sums made two).symm
  · intro s path
    exact path.punctual fun _ there => absurd there List.not_mem_nil

end Services

-- One client is served after the other.
def oneByOne : List (Option Nat) :=
  List.replicate 7 none ++ List.replicate 10 (some 0) ++ List.replicate 7 none ++
    List.replicate 7 (some 1) ++ List.replicate 20 none

-- Both are served at once, in no particular order, by readers that begin late.
def allAtOnce : List (Option Nat) :=
  List.replicate 14 none ++ [1, 0, 0, 1, 0, 0, 1, 1, 0, 0, 0, 1, 1, 0, 0, 1, 0].map some ++
    List.replicate 20 none

def outline (s : Stage Int) : Bool × List Fate × Counters :=
  (decide (Settled s ∧ s.machine.host.Systemic), fates s, s.machine.prog.stats.counters)

def pairOutline : Bool × List Fate × Counters :=
  (true, [⟨[([104], true), ([105], true)], false⟩, ⟨[([33], true)], false⟩],
    { accepted := 2, closed := 2, datagrams := 3, bytes := 3 })

theorem crews_account_pair : ∃ s r : Stage Int,
    Whole (pairCrew .inline) s ∧ Whole (pairCrew .deferred) r ∧
    outline s = pairOutline ∧ outline r = pairOutline ∧ Accounted s ∧ Accounted r ∧
    s.machine.prog.stats.counters.accepted = s.machine.prog.stats.counters.closed ∧
    s.machine.prog.stats.counters = r.machine.prog.stats.counters ∧
    (∃ s, Served (pairCrew .inline) s) ∧ ∃ r, Served (pairCrew .deferred) r := by
  have serial : (Stage.play unhurried oneByOne ⟨pairCrew .inline, .announcing, []⟩).map outline =
      some pairOutline := by
    decide +kernel
  have mixed : (Stage.play unhurried allAtOnce ⟨pairCrew .deferred, .announcing, []⟩).map outline =
      some pairOutline := by
    decide +kernel
  obtain ⟨s, played, seen⟩ := Option.map_eq_some_iff.mp serial
  obtain ⟨r, played', seen'⟩ := Option.map_eq_some_iff.mp mixed
  obtain ⟨⟨settled, systemic⟩, met, -⟩ := by
    simpa only [outline, pairOutline, Prod.mk.injEq, decide_eq_true_eq] using seen
  obtain ⟨⟨settled', systemic'⟩, met', -⟩ := by
    simpa only [outline, pairOutline, Prod.mk.injEq, decide_eq_true_eq] using seen'
  obtain ⟨books, orders, timely, serves⟩ := crews_account (created_pairCrew .inline)
  obtain ⟨books', -, timely', serves'⟩ := crews_account (created_pairCrew .deferred)
  have whole : Whole (pairCrew .inline) s :=
    ⟨(play_timely played).reached, settled, systemic, timely s (play_timely played)⟩
  have whole' : Whole (pairCrew .deferred) r :=
    ⟨(play_timely played').reached, settled', systemic', timely' r (play_timely played')⟩
  obtain ⟨accounted, level⟩ := books s whole.reached
  have same := orders _ s r (created_pairCrew .deferred) whole whole'
    (List.Perm.of_eq (met.trans met'.symm))
  exact ⟨s, r, whole, whole', seen, seen', accounted, (books' r whole'.reached).1,
    level settled systemic, same, serves rfl (.inl (by decide +kernel)) (by decide +kernel),
    serves' rfl (.inl (by decide +kernel)) (by decide +kernel)⟩

end StreamRelay.Crew
