import StreamRelay.Proofs.Crew.Opening
import StreamRelay.Proofs.Crew.Serial

namespace StreamRelay.Crew
variable {T : Type}
open Run Host Relay

-- A client that was accepted, and nobody's since.
structure Lost (s : Stage T) (sock : SocketId) : Prop where
  accepted : sock ∈ s.machine.host.accepted
  unhandled : ∀ hand ∈ s.hands, hand.sock ≠ sock
  unlisted : sock ∉ s.machine.prog.clients
  uncounted : s.machine.prog.stats.counters = total s.hands

-- How things stand once the loop was left for a reason.
def Why.Stands (s : Stage T) : Why → Prop
  | told => s.machine.host.serviceStop = true
  | broken f => f.isOs = false
  | unready sock f => Lost s sock ∧
      ∃ watched, ⟨.setTimeout, sock, watched, f⟩ ∈ s.machine.host.refusals

-- Every client but the one that the loop has in hand is with exactly one reader.
structure Handed (s : Stage T) : Prop where
  each : ∀ sock ∈ s.machine.host.accepted, sock ∈ s.duty.inHand ∨ (s.hands.map Hand.sock).count sock = 1
  none : ∀ sock ∈ s.duty.inHand, ∀ hand ∈ s.hands, hand.sock ≠ sock

section Handing
variable {s : Stage T}

theorem Ledger.nodup (ledger : Ledger s) : (s.hands.map Hand.sock ++ s.duty.inHand).Nodup := by
  rw [← ledger.roster]
  exact List.nodup_reverse.mpr ledger.strict.once

theorem Ledger.handed (ledger : Ledger s) : Handed s := by
  obtain ⟨alone, -, apart⟩ := List.nodup_append.mp ledger.nodup
  constructor
  · intro sock there
    have roster : sock ∈ s.hands.map Hand.sock ++ s.duty.inHand := by
      rw [← ledger.roster]
      exact List.mem_reverse.mpr there
    rcases List.mem_append.mp roster with working | waiting
    · exact .inr (List.count_eq_one_of_mem alone working)
    · exact .inl waiting
  · intro sock waiting hand working
    exact apart hand.sock (List.mem_map_of_mem working) sock waiting

theorem Duty.listed_of_left {duty : Duty} {why : Why} (left : duty.why? = some why) :
    duty.listed = [] ∧ duty.inHand = why.inHand := by
  cases duty with
  | closing | gone =>
    cases left
    exact ⟨rfl, rfl⟩
  | _ => cases left

theorem Ledger.lost (ledger : Ledger s) {sock : SocketId} {f : Failure}
    (left : s.duty.why? = some (.unready sock f)) : Lost s sock := by
  obtain ⟨listed, inHand⟩ := Duty.listed_of_left left
  have waiting : sock ∈ s.duty.inHand := inHand ▸ List.mem_singleton_self sock
  have unhandled := ledger.handed.none sock waiting
  constructor
  · exact ledger.accepted (List.mem_append_right _ waiting)
  · exact unhandled
  · rw [ledger.clients, listed, List.append_nil]
    intro there
    obtain ⟨hand, working, same⟩ := List.mem_map.mp ((unsigned_sublist _).subset there)
    exact unhandled hand working same
  · rw [ledger.counters, listed]
    exact add_zero _

theorem Ledger.stands (ledger : Ledger s) {why : Why} (left : s.duty.why? = some why) :
    why.Stands s := by
  have holds := ledger.reason why left
  cases why with
  | told => exact holds
  | broken f => exact holds
  | unready sock f => exact ⟨ledger.lost left, holds⟩

end Handing

variable [Clock T]

theorem crews_go_on {m : Machine T (Crew T)} (created : Created m) :
    (∀ s, Reached ⟨m, .announcing, []⟩ s → Handed s ∧ ∀ why ∈ s.duty.why?, why.Stands s) ∧
    (Clock.isZero (Clock.millis Defaults.acceptMillis : T) = false → m.host.StopsService →
      Ends serve m
        (fun _ m' => ∃ hands, (∀ hand ∈ hands, hand.phase.finished = true) ∧
          Reached ⟨m, .announcing, []⟩ ⟨m', .gone .told none, hands⟩)
        (fun f m' => ∃ why cut hands, cut.or why.failure = some f ∧
          Reached ⟨m, .announcing, []⟩ ⟨m', .gone why cut, hands⟩)) := by
  have begun := created.begun
  constructor
  · intro s path
    have ledger := begun.ledger.reached path
    exact ⟨ledger.handed, fun why left => ledger.stands left⟩
  · intro patient stops
    apply (serve_turns (begun.inOrder patient) stops).imp
    · intro _ m' served
      obtain ⟨hands, finished, path⟩ := served
      exact ⟨hands, finished, path.reached⟩
    · intro f m' failed
      obtain ⟨why, cut, hands, cause, path⟩ := failed
      exact ⟨why, cut, hands, cause, path.reached⟩

-- The system's answer to a timeout that it does not take.
def balk : OsError := .ofNumber 22 "Invalid argument"

-- A client comes, and the system refuses to let it wait; the listener was set up before.
def balkingHost : Host Int where
  clock := 0
  faults := [(.setTimeout, .pass), (.setTimeout, .incident [] (some (.os balk)))]
  batches := [⟨[.connect { data := [118] }], none⟩]

theorem fresh_balkingHost : Fresh balkingHost :=
  fresh_of_empty rfl rfl rfl rfl rfl

@[irreducible] def balkingCrew : Machine Int (Crew Int) :=
  made (create plainConfig none) balkingHost (by decide +kernel)

theorem created_balkingCrew : Created balkingCrew := by
  unfold balkingCrew
  exact ⟨balkingHost, plainConfig, none, fresh_balkingHost, made_ran _⟩

def lookout (s : Stage Int) : Duty × List SocketId × List SocketId × Bool × Bool :=
  (s.duty, s.machine.host.accepted, s.hands.map Hand.sock, s.machine.host.serviceStop,
    s.machine.host.isOpen 2)

theorem balkingCrew_leaves : (Stage.play (fun _ => true) (List.replicate 4 none)
    ⟨balkingCrew, .announcing, []⟩).map lookout =
      some (.closing (.unready 2 (.os balk)) [.marking], [2], [], false, true) := by
  decide +kernel

theorem crews_go_on_balking : ∃ s, Reached ⟨balkingCrew, .announcing, []⟩ s ∧
    s.duty = .closing (.unready 2 (.os balk)) [.marking] ∧ Handed s ∧ Lost s 2 ∧
    ∃ f m' why cut hands, serve balkingCrew = .error f m' ∧ cut.or why.failure = some f ∧
      Reached ⟨balkingCrew, .announcing, []⟩ ⟨m', .gone why cut, hands⟩ := by
  obtain ⟨s, played, seen⟩ := Option.map_eq_some_iff.mp balkingCrew_leaves
  simp only [lookout, Prod.mk.injEq] at seen
  obtain ⟨stages, serves⟩ := crews_go_on created_balkingCrew
  have path := play_reached played
  obtain ⟨handed, stands⟩ := stages s path
  obtain ⟨lost, -⟩ := stands (.unready 2 (.os balk)) (by rw [seen.1]; rfl)
  refine ⟨s, path, seen.1, handed, lost, ?_⟩
  cases ran : serve balkingCrew with
  | ok _ m' =>
    have failed : endsWell serve balkingCrew = false := by decide +kernel
    rw [endsWell, ran] at failed
    exact absurd failed.symm Bool.false_ne_true
  | error f m' =>
    obtain ⟨why, cut, hands, cause, closed⟩ := (serves rfl (.inl (by decide +kernel))).of_error ran
    exact ⟨f, m', why, cut, hands, rfl, cause, closed⟩

-- The loop is left although nobody said so, and when all is over the client's socket is still open.
theorem serve_gives_up :
    (¬∀ (m : Machine Int (Crew Int)) (s : Stage Int) (why : Why), Created m →
      Reached ⟨m, .announcing, []⟩ s → s.duty = .closing why [.marking] →
      (∀ f, why.failure = some f → f.isOs = true) → s.machine.host.serviceStop = true) ∧
    ¬∀ (m : Machine Int (Crew Int)) (s : Stage Int) (why : Why), Created m →
      Reached ⟨m, .announcing, []⟩ s → s.duty = .gone why none →
      ∀ sock ∈ s.machine.host.accepted, sock ∈ s.hands.map Hand.sock ∨
        s.machine.host.isOpen sock = false := by
  have ended : (Stage.play (fun _ => true) (List.replicate 12 none)
      ⟨balkingCrew, .announcing, []⟩).map lookout =
        some (.gone (.unready 2 (.os balk)) none, [2], [], true, true) := by
    decide +kernel
  constructor
  · intro told
    obtain ⟨s, played, seen⟩ := Option.map_eq_some_iff.mp balkingCrew_leaves
    simp only [lookout, Prod.mk.injEq] at seen
    obtain ⟨duty, -, -, going, -⟩ := seen
    have path := play_reached played
    have stopped := told _ s _ created_balkingCrew path duty (by rintro f ⟨⟩; rfl)
    exact Bool.false_ne_true (going.symm.trans stopped)
  · intro settled
    obtain ⟨s, played, seen⟩ := Option.map_eq_some_iff.mp ended
    simp only [lookout, Prod.mk.injEq] at seen
    obtain ⟨duty, accepted, nobody, -, opened⟩ := seen
    have there : 2 ∈ s.machine.host.accepted := accepted ▸ List.mem_singleton_self 2
    rcases settled _ s _ created_balkingCrew (play_reached played) duty 2 there with handled | shut
    · rw [nobody] at handled
      exact absurd handled List.not_mem_nil
    · exact Bool.false_ne_true (shut.symm.trans opened)

end StreamRelay.Crew
