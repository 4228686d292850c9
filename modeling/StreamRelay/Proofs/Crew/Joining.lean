import StreamRelay.Proofs.Crew.Fates
import StreamRelay.Proofs.Crew.Parting

namespace StreamRelay

-- No socket was refused the time that it was to wait.
def Host.Obliging {T : Type} (h : Host T) : Prop := ∀ r ∈ h.refusals, r.call ≠ .setTimeout

instance {T : Type} (h : Host T) : Decidable h.Obliging :=
  inferInstanceAs (Decidable (∀ r ∈ h.refusals, r.call ≠ .setTimeout))

namespace Crew
variable {T : Type} [Clock T]
open Run Host

def Duty.left : Duty → List Chore
  | closing _ left => left
  | _ => []

-- What becomes of the duty in a step in which no chore is done.
inductive Moves : Duty → Duty → Prop where
  | stays {duty : Duty} : Moves duty duty
  | serves {duty duty' : Duty} (going : duty.why? = none) (going' : duty'.why? = none) :
      Moves duty duty'
  | leaves {duty : Duty} {why : Why} (going : duty.why? = none) : Moves duty (.closing why [.marking])
  | ends {why : Why} : Moves (.closing why []) (.gone why none)

-- The loop does the first of the chores that are left.
def Does (chore : Chore) (a b : Stage T) : Prop :=
  (∃ why rest, a.duty = .closing why (chore :: rest)) ∧ a.next? none = some b

-- Steps from a start, with the chores that were done on the way. What may be asked of a chore is told
-- which were done before it.
inductive Trail (fits : Chore → List Chore → Stage T → Prop) (start : Stage T) :
    List Chore → Stage T → Prop where
  | here : Trail fits start [] start
  | moves {done : List Chore} {a b : Stage T} (before : Trail fits start done a) (step : Step a b)
      (moves : Moves a.duty b.duty) : Trail fits start done b
  | does {done : List Chore} {a b : Stage T} {chore : Chore} (before : Trail fits start done a)
      (does : Does chore a b) (fit : fits chore done a) : Trail fits start (done ++ [chore]) b

def Freely (_ : Chore) (_ : List Chore) (_ : Stage T) : Prop := True

-- The sink is closed only when every thread that was joined is at its end.
def Awaited (chore : Chore) (done : List Chore) (s : Stage T) : Prop :=
  chore = .releasing → ∀ r, .joining r ∈ done →
    ∀ hand ∈ s.hands, hand.thread = r.thread → hand.phase.finished = true

section Kinds
variable {a b : Stage T} {chore : Chore} {duty duty' : Duty}

omit [Clock T] in
theorem Duty.left_of_going (going : duty.why? = none) : duty.left = [] := by
  cases duty <;> first | rfl | cases going

omit [Clock T] in
theorem Moves.left (moves : Moves duty duty') (due : chore ∈ duty.left) : chore ∈ duty'.left := by
  cases moves with
  | stays => exact due
  | serves going | leaves going =>
    rw [Duty.left_of_going going] at due
    exact absurd due List.not_mem_nil
  | ends => exact absurd due List.not_mem_nil

omit [Clock T] in
theorem Moves.why {why : Why} (moves : Moves duty duty') (left : duty.why? = some why) :
    duty'.why? = some why := by
  cases moves with
  | stays | ends => exact left
  | serves going | leaves going =>
    rw [going] at left
    cases left

omit [Clock T] in
theorem Moves.gone {why : Why} {cut : Option Failure} (moves : Moves (.gone why cut) duty') :
    duty' = .gone why cut := by
  cases moves with
  | stays => rfl
  | serves going | leaves going => cases going

-- What is to be done next is done, or fails and puts an end to the closing.
theorem Does.cases (does : Does chore a b) : ∃ m hands why rest,
    a = ⟨m, .closing why (chore :: rest), hands⟩ ∧
      ((∃ more m', chore.turn m = .ok more m' ∧ b = ⟨m', .closing why (more ++ rest), hands⟩) ∨
        ∃ f m', chore.turn m = .error f m' ∧ b = ⟨m', .gone why (some f), hands⟩) := by
  obtain ⟨m, duty, hands⟩ := a
  obtain ⟨⟨why, rest, rfl⟩, taken⟩ := does
  refine ⟨m, hands, why, rest, rfl, ?_⟩
  simp only [Stage.next?, Duty.turn, bind, EStateM.bind, outcome, Duty.hires, List.append_nil] at taken
  cases ran : chore.turn m with
  | ok more m' =>
    rw [ran] at taken
    cases taken
    exact .inl ⟨more, m', rfl, rfl⟩
  | error f m' =>
    rw [ran] at taken
    cases taken
    exact .inr ⟨f, m', rfl, rfl⟩

theorem Does.step (does : Does chore a b) : Step a b := .turn (Stage.next?_exact.mp ⟨none, does.2⟩)

theorem Step.kind (step : Step a b) : Moves a.duty b.duty ∨ ∃ chore, Does chore a b := by
  cases step with
  | outside | told => exact .inl .stays
  | turn taken =>
    cases taken with
    | hand => exact .inl .stays
    | @loop m m' duty duty' hands ran =>
      have serves (going : duty.why? = none) : Moves duty duty' := by
        have loops := (turn_loops duty m.host m.prog).of_ok ran
        rcases loops.going going with still | ⟨why, rfl⟩
        · exact .serves going still
        · exact .leaves going
      cases duty with
      | closing why left =>
        cases left with
        | nil =>
          cases ran
          exact .inl .ends
        | cons chore rest =>
          refine .inr ⟨chore, ⟨why, rest, rfl⟩, ?_⟩
          simp only [Stage.next?, ran]
      | gone why cut =>
        cases ran
        exact .inl .stays
      | _ => exact .inl (serves rfl)

end Kinds

section Trails
variable {fits : Chore → List Chore → Stage T → Prop} {start a b s : Stage T} {done : List Chore}
  {chore : Chore}

theorem Trail.reached (trail : Trail fits start done s) : Reached start s := by
  induction trail with
  | here => exact .refl
  | moves _ step _ ih => exact ih.tail step
  | does _ does _ ih => exact ih.tail does.step

theorem Trail.extends (before : Trail fits start done a) (path : Reached a s)
    (fit : ∀ b c chore done, Reached a b → Does chore b c → Reached c s → fits chore done b) :
    ∃ done', Trail fits start done' s := by
  induction path with
  | refl => exact ⟨done, before⟩
  | @tail middle last path step ih =>
    obtain ⟨done', trail⟩ := ih fun b c chore done first does later =>
      fit b c chore done first does (later.tail step)
    rcases step.kind with moves | ⟨chore, does⟩
    · exact ⟨done', .moves trail step moves⟩
    · exact ⟨_, .does trail does (fit middle last chore done' path does .refl)⟩

-- What is left to do is done in the end, unless the closing is cut short.
theorem Trail.due_or_done (trail : Trail fits start done s) (due : chore ∈ start.duty.left) :
    chore ∈ done ∨ chore ∈ s.duty.left ∨ ∃ why f, s.duty = .gone why (some f) := by
  induction trail with
  | here => exact .inr (.inl due)
  | @moves done a b _ step moves ih =>
    rcases ih with already | still | ⟨why, f, cut⟩
    · exact .inl already
    · exact .inr (.inl (moves.left still))
    · rw [cut] at moves
      exact .inr (.inr ⟨why, f, moves.gone⟩)
  | @does done a b next _ does _ ih =>
    obtain ⟨m, hands, why, rest, rfl, ended⟩ := does.cases
    rcases ih with already | still | ⟨why, f, cut⟩
    · exact .inl (List.mem_append_left _ already)
    · rcases List.mem_cons.mp still with rfl | later
      · exact .inl (List.mem_append_right _ (List.mem_singleton_self _))
      · rcases ended with ⟨more, m', -, rfl⟩ | ⟨f, m', -, rfl⟩
        · exact .inr (.inl (List.mem_append_right _ later))
        · exact .inr (.inr ⟨why, f, rfl⟩)
    · cases cut

end Trails

section Order
variable {fits : Chore → List Chore → Stage T → Prop} {m : Machine T (Crew T)} {a b s : Stage T}
  {done : List Chore} {chore : Chore} {duty duty' : Duty}

-- What the closing has to do, one after the other, before it is through.
def milestones : List Chore := [.surveying, .calling, .releasing]

-- Whatever of that is not done yet is left, once the crew is marked as closed.
def InTurn (done : List Chore) : Duty → Prop
  | .closing _ left => (left = [.marking] ∧ done = []) ∨ milestones.Sublist (done ++ left)
  | .gone _ none => milestones.Sublist done
  | .gone _ (some _) => True
  | _ => done = []

omit [Clock T] in
theorem inTurn_going (going : duty.why? = none) : InTurn done duty ↔ done = [] := by
  cases duty <;> first | rfl | cases going

omit [Clock T] in
theorem Moves.inTurn (moves : Moves duty duty') (before : InTurn done duty) : InTurn done duty' := by
  cases moves with
  | stays => exact before
  | serves going going' => exact (inTurn_going going').mpr ((inTurn_going going).mp before)
  | leaves going => exact .inl ⟨rfl, (inTurn_going going).mp before⟩
  | ends =>
    rcases before with ⟨same, -⟩ | done
    · cases same
    · rwa [List.append_nil] at done

theorem Does.inTurn (does : Does chore a b) (attended : Attended a)
    (before : InTurn done a.duty) : InTurn (done ++ [chore]) b.duty := by
  obtain ⟨m, hands, why, rest, rfl, ended⟩ := does.cases
  rcases ended with ⟨more, m', ran, rfl⟩ | ⟨f, m', -, rfl⟩
  · rcases before with ⟨same, rfl⟩ | before
    · cases same
      have unclosed : m.prog.closed = false := attended.stands.of_marking
      simp only [Chore.turn, bind, EStateM.bind, gets, unclosed] at ran
      cases ran
      exact .inr (by decide)
    · have later : (chore :: rest).Sublist (chore :: (more ++ rest)) :=
        (List.sublist_append_right more rest).cons_cons chore
      refine .inr (before.trans ?_)
      rw [List.append_assoc]
      exact later.append_left done
  · trivial

theorem Trail.inTurn (trail : Trail fits ⟨m, .announcing, []⟩ done s)
    (attended : Attended ⟨m, .announcing, []⟩) : InTurn done s.duty := by
  induction trail with
  | here => rfl
  | moves _ _ moves ih => exact moves.inTurn ih
  | does before does _ ih => exact does.inTurn (attended.reached before.reached) ih

-- A sink that is closed was closed in its turn.
theorem Trail.milestones (trail : Trail fits ⟨m, .announcing, []⟩ done s)
    (attended : Attended ⟨m, .announcing, []⟩)
    (shut : s.machine.host.isOpen s.machine.prog.sink.sock = false) :
    milestones.Sublist done := by
  have stands := (attended.reached trail.reached).stands
  have turn := trail.inTurn attended
  rw [Stands, shut] at stands
  obtain ⟨why, last | none | gone⟩ := stands.of_closed
  · rw [last] at turn
    rcases turn with ⟨same, -⟩ | all
    · cases same
    · obtain ⟨first, second, whole, before, after⟩ := List.sublist_append_iff.mp all
      rcases List.sublist_singleton.mp after with rfl | rfl
      · rwa [whole, List.append_nil]
      · have last := congrArg List.getLast? whole
        rw [List.getLast?_concat] at last
        cases last
  · rw [none] at turn
    exact Moves.ends.inTurn turn
  · rw [gone] at turn
    exact turn

end Order

section Waiting
variable {m : Machine T (Crew T)} {a b s : Stage T} {done : List Chore} {chore : Chore}

-- Nobody is taken on once the closing has begun, and whoever is at work was at work before.
theorem Step.hands (step : Step a b) (alone : a.duty.hires = []) : ∀ hand ∈ b.hands,
    hand.phase.finished = false → ∃ before ∈ a.hands, before.phase.finished = false ∧
      before.reader = hand.reader := by
  intro hand there working
  cases step with
  | outside | told => exact ⟨hand, there, working, rfl⟩
  | turn taken =>
    cases taken with
    | @loop m m' duty duty' hands ran =>
      rw [alone, List.append_nil] at there
      exact ⟨hand, there, working, rfl⟩
    | @hand m m' duty before after own own' ran =>
      rcases mem_middle.mp there with rfl | others
      · have advances := (turn_advances own m.host m.prog).of_ok ran
        rcases advances.readers with ⟨same, -⟩ | ⟨finished, -⟩
        · refine ⟨own, mem_middle.mpr (.inl rfl), same ▸ working, ?_⟩
          simp only [Hand.reader, advances.thread, advances.sock, advances.peer, same]
        · exact absurd (finished.symm.trans working) Bool.noConfusion
      · exact ⟨hand, mem_middle.mpr (.inr others), working, rfl⟩

-- Whoever is at work after the readers were called up was or is to be joined, and nobody is at work
-- once the sink is closed.
structure Relieved (done : List Chore) (s : Stage T) : Prop where
  joined : .calling ∈ done → ∀ why left, s.duty = .closing why left →
    ∀ hand ∈ s.hands, hand.phase.finished = false → .joining hand.reader ∈ done ++ left
  finished : s.machine.host.isOpen s.machine.prog.sink.sock = false →
    ∀ hand ∈ s.hands, hand.phase.finished = true

omit [Clock T] in
theorem Moves.shut {duty duty' : Duty} {closed closed' sink listener listener' : Bool}
    (moves : Moves duty duty') (before : Progress closed sink listener duty)
    (after : Progress closed' false listener' duty') : sink = false ∧ duty.hires = [] := by
  have off {duty : Duty} {why : Why} (left : duty.why? = some why) : ¬duty.why? = none := by
    rw [left]
    exact nofun
  obtain ⟨why, rfl | rfl | rfl⟩ := after.of_closed
  · cases moves with
    | stays =>
      cases before with
      | works going => exact absurd going (off rfl)
      | sums => exact ⟨rfl, rfl⟩
    | serves _ going => exact absurd going (off rfl)
  · cases moves with
    | stays =>
      cases before with
      | works going => exact absurd going (off rfl)
      | ends => exact ⟨rfl, rfl⟩
    | serves _ going => exact absurd going (off rfl)
  · cases moves with
    | stays =>
      cases before with
      | works going => exact absurd going (off rfl)
      | gone => exact ⟨rfl, rfl⟩
    | serves _ going => exact absurd going (off rfl)
    | ends =>
      cases before with
      | works going => exact absurd going (off rfl)
      | ends => exact ⟨rfl, rfl⟩

theorem Relieved.moves (relieved : Relieved done a) (attended : Attended a) (inTurn : InTurn done a.duty)
    (step : Step a b) (moves : Moves a.duty b.duty) : Relieved done b := by
  have after := (attended.step step).stands
  have before := attended.stands
  obtain ⟨joined, finished⟩ := relieved
  have hands := step.hands
  constructor
  · intro called why left closing hand there working
    rw [closing] at moves
    generalize was : a.duty = duty at moves inTurn hands
    cases moves with
    | stays =>
      obtain ⟨own, known, unfinished, same⟩ := hands rfl hand there working
      exact same ▸ joined called why left was own known unfinished
    | serves going going' => cases going'
    | leaves going =>
      rw [(inTurn_going going).mp inTurn] at called
      exact absurd called List.not_mem_nil
  · intro shut hand there
    rw [Stands, shut] at after
    obtain ⟨already, alone⟩ := moves.shut before after
    cases working : hand.phase.finished with
    | true => rfl
    | false =>
      obtain ⟨own, known, unfinished, -⟩ := hands alone hand there working
      exact (finished already own known).symm.trans unfinished |>.symm

-- The sink is closed when everybody is at the end: whoever is not was joined, and is at the end then.
theorem Relieved.does (relieved : Relieved done a) (attended : Attended a)
    (inTurn : InTurn done a.duty) (does : Does chore a b) (fit : Awaited chore done a) :
    Relieved (done ++ [chore]) b := by
  have after := (attended.step does.step).stands
  obtain ⟨m, hands, why, rest, rfl, ended⟩ := does.cases
  obtain ⟨joined, finished⟩ := relieved
  rcases ended with ⟨more, m', ran, rfl⟩ | ⟨f, m', -, rfl⟩
  · constructor
    · rintro called _ _ ⟨⟩ hand there working
      rcases List.mem_append.mp called with before | now
      · rcases List.mem_append.mp (joined before why _ rfl hand there working) with already | still
        · exact List.mem_append_left _ (List.mem_append_left _ already)
        · rcases List.mem_cons.mp still with rfl | later
          · exact List.mem_append_left _ (List.mem_append_right _ (List.mem_singleton_self _))
          · exact List.mem_append_right _ (List.mem_append_right _ later)
      · cases List.mem_singleton.mp now
        cases ran
        have listed := attended.staff.kept hand there working
        exact List.mem_append_right _ (List.mem_append_left _ (List.mem_map_of_mem listed))
    · intro shut hand there
      cases working : hand.phase.finished with
      | true => rfl
      | false =>
        obtain ⟨ledger, -, listener, sink, apart, stands, -⟩ := attended
        have proceeds := (chore_proceeds ledger.strict.orderly listener sink apart stands).of_ok ran
        have opened : m.host.isOpen m.prog.sink.sock = true := by
          cases was : m.host.isOpen m.prog.sink.sock with
          | true => rfl
          | false => exact absurd ((finished was hand there).symm.trans working) Bool.noConfusion
        have releasing : chore = .releasing := by
          by_contra other
          have still := proceeds.sink opened other
          simp only [proceeds.fixed.sink] at shut
          exact Bool.false_ne_true (shut.symm.trans still)
        subst releasing
        obtain ⟨-, rfl⟩ := stands.of_releasing
        have before {chore : Chore} (due : chore ∈ done ++ [.releasing, .summing])
            (other : chore ∉ [.releasing, .summing]) : chore ∈ done :=
          (List.mem_append.mp due).resolve_right other
        have called : .calling ∈ done := by
          rcases inTurn with ⟨same, -⟩ | all
          · cases same
          · exact before (all.subset (by decide)) (by decide)
        have listed := before (joined called why _ rfl hand there working) (by simp)
        exact (fit rfl hand.reader listed hand there rfl).symm.trans working |>.symm
  · constructor
    · intro _ _ _ closing
      cases closing
    · intro shut
      rw [Stands, shut] at after
      obtain ⟨why', last | none | gone⟩ := after.of_closed
      · cases last
      · cases none
      · cases gone

theorem Trail.relieved (trail : Trail Awaited ⟨m, .announcing, []⟩ done s)
    (attended : Attended ⟨m, .announcing, []⟩) : Relieved done s := by
  induction trail with
  | here => exact ⟨nofun, nofun⟩
  | moves before step moves ih =>
    exact ih.moves (attended.reached before.reached) (before.inTurn attended) step moves
  | does before does fit ih =>
    exact ih.does (attended.reached before.reached) (before.inTurn attended) does fit

end Waiting

section Serving
variable {start a b s : Stage T} {done : List Chore} {why : Why}

omit [Clock T] in
theorem Duty.alone_of_left {duty : Duty} (left : duty.why? = some why) : duty.hires = [] := by
  cases duty <;> first | rfl | cases left

theorem finished_stays (path : Reached a b) (left : a.duty.why? = some why)
    (finished : ∀ hand ∈ a.hands, hand.phase.finished = true) :
    b.duty.why? = some why ∧ ∀ hand ∈ b.hands, hand.phase.finished = true := by
  induction path with
  | refl => exact ⟨left, finished⟩
  | @tail middle last path step ih =>
    obtain ⟨still, before⟩ := ih
    constructor
    · rcases step.kind with moves | ⟨chore, does⟩
      · exact moves.why still
      · obtain ⟨m, hands, _, rest, rfl, ⟨more, m', -, rfl⟩ | ⟨f, m', -, rfl⟩⟩ := does.cases
        · exact still
        · exact still
    · intro hand there
      cases working : hand.phase.finished with
      | true => rfl
      | false =>
        obtain ⟨own, known, unfinished, -⟩ :=
          step.hands (Duty.alone_of_left still) hand there working
        exact (before own known).symm.trans unfinished |>.symm

theorem Does.shuts (does : Does .releasing a b) :
    b.machine.host.isOpen b.machine.prog.sink.sock = false := by
  obtain ⟨m, hands, why, rest, rfl, ⟨more, m', ran, rfl⟩ | ⟨f, m', ran, rfl⟩⟩ := does.cases
  · cases ran
    exact isOpen_shut.trans (if_pos rfl)
  · cases ran

theorem Attended.trail (attended : Attended start) (path : Reached start s)
    (opened : s.machine.host.isOpen s.machine.prog.sink.sock = true) :
    ∃ done, Trail Awaited start done s := by
  apply Trail.here.extends path
  intro b c chore done first does later releasing
  subst releasing
  have shut := (attended.reached (first.tail does.step)).stays_shut later does.shuts
  exact absurd (shut.symm.trans opened) Bool.false_ne_true

theorem Waited.trail (waited : Waited start s) (attended : Attended start) :
    ∃ done, Trail Awaited start done s := by
  obtain ⟨m, why, hands, before, finished, after⟩ := waited
  have stands := (attended.reached before.reached).stands
  obtain ⟨done, trail⟩ := attended.trail before.reached stands.of_releasing.1
  apply trail.extends after.reached
  intro b c chore done first does later releasing r joined hand there same
  exact (finished_stays first rfl finished).2 hand there

end Serving

-- Whoever is at work is on the list of readers, and his client on the books.
structure Manned (s : Stage T) : Prop where
  reader : ∀ hand ∈ s.hands, hand.phase.finished = false → hand.reader ∈ s.machine.prog.readers
  client : ∀ hand ∈ s.hands, hand.phase.signed = false → hand.sock ∈ s.machine.prog.clients

-- How a closing ends, which is cut short only by what the system does not do.
structure Ended (s : Stage T) (cut : Option Failure) : Prop where
  listener : s.machine.host.isOpen s.machine.prog.sock = false
  sink : s.machine.host.isOpen s.machine.prog.sink.sock = cut.isSome
  foreign : ∀ f ∈ cut, f.isOs = false

structure Dissolved (s : Stage T) : Prop where
  clients : ∀ sock ∈ s.machine.host.accepted, s.machine.host.isOpen sock = false
  listener : s.machine.host.isOpen s.machine.prog.sock = false
  sink : s.machine.host.isOpen s.machine.prog.sink.sock = false
  books : s.machine.prog.clients = []

section Ends
variable {a b c d s : Stage T} {done : List Chore} {why : Why} {cut : Option Failure}

omit [Clock T] in
theorem Attended.manned (attended : Attended s) : Manned s := by
  refine ⟨attended.staff.kept, fun hand there working => ?_⟩
  rw [attended.ledger.clients]
  apply List.mem_append_left
  exact List.mem_map_of_mem (List.mem_filter.mpr ⟨there, by rw [working]; rfl⟩)

theorem Manned.wakes (manned : Manned a) (surveys : Does .surveying a b) {hand : Hand}
    (there : hand ∈ a.hands) (working : hand.phase.signed = false) :
    .waking hand.sock ∈ b.duty.left := by
  have client := manned.client hand there working
  obtain ⟨m, hands, why, rest, rfl, ⟨more, m', ran, rfl⟩ | ⟨f, m', ran, rfl⟩⟩ := surveys.cases
  · cases ran
    exact List.mem_append_left _ (List.mem_map_of_mem client)
  · cases ran

theorem Manned.joins (manned : Manned a) (calls : Does .calling a b) {hand : Hand}
    (there : hand ∈ a.hands) (working : hand.phase.finished = false) :
    .joining hand.reader ∈ b.duty.left := by
  have listed := manned.reader hand there working
  obtain ⟨m, hands, why, rest, rfl, ⟨more, m', ran, rfl⟩ | ⟨f, m', ran, rfl⟩⟩ := calls.cases
  · cases ran
    exact List.mem_append_left _ (List.mem_map_of_mem listed)
  · cases ran

omit [Clock T] in
theorem Attended.ended (attended : Attended s) (gone : s.duty = .gone why cut) : Ended s cut := by
  have stands := attended.stands
  rw [Stands, gone] at stands
  generalize marked : s.machine.prog.closed = closed at stands
  generalize sending : s.machine.host.isOpen s.machine.prog.sink.sock = sink at stands
  generalize hearing : s.machine.host.isOpen s.machine.prog.sock = listener at stands
  cases stands with
  | works going => cases going
  | gone => exact ⟨hearing, sending, by simp⟩
  | cut foreign =>
    refine ⟨hearing, sending, fun f same => ?_⟩
    cases same
    exact foreign

omit [Clock T] in
theorem Attended.dissolved (attended : Attended s) (living : Living s)
    (obliging : s.machine.host.Obliging) (finished : ∀ hand ∈ s.hands, hand.phase.finished = true)
    (gone : s.duty = .gone why none) : Dissolved s := by
  obtain ⟨listener, sink, -⟩ := attended.ended gone
  have nobody : s.duty.inHand = [] := by
    rw [gone]
    cases why with
    | unready sock f =>
      obtain ⟨watched, refused⟩ := attended.ledger.reason (.unready sock f) (by rw [gone]; rfl)
      exact absurd rfl (obliging _ refused)
    | _ => rfl
  have settled : Settled s := settled_of_finished (by rw [gone]; rfl) finished
  refine ⟨fun sock there => ?_, listener, sink, attended.ledger.nobody settled living⟩
  have roster := List.mem_reverse.mpr there
  rw [attended.ledger.roster, nobody, List.append_nil] at roster
  obtain ⟨hand, working, rfl⟩ := List.mem_map.mp roster
  exact attended.parted hand working (Phase.parted_of_finished (finished hand working))

-- What was listed for its turn is done by the time that the sink is closed.
theorem Trail.done_before (trail : Trail Freely b done c) (releases : Does .releasing c d)
    (attended : Attended c) {chore : Chore} (due : chore ∈ b.duty.left)
    (other : chore ∉ [.releasing, .summing]) : chore ∈ done := by
  obtain ⟨m, hands, why, rest, rfl, -⟩ := releases.cases
  obtain ⟨-, rfl⟩ := attended.stands.of_releasing
  rcases trail.due_or_done due with already | still | ⟨why', f, cut⟩
  · exact already
  · exact absurd still other
  · cases cut

-- To serve is to go such a way, and to wait for the readers on it.
theorem Supplied.serves {m : Machine T (Crew T)} (supplied : Supplied m)
    (patient : Clock.isZero (Clock.millis Defaults.acceptMillis : T) = false)
    (stops : m.host.StopsService) : Ends serve m
      (fun _ m' => ∃ hands done, Trail Awaited ⟨m, .announcing, []⟩ done
        ⟨m', .gone .told none, hands⟩)
      (fun f m' => ∃ why cut hands done, cut.or why.failure = some f ∧
        Trail Awaited ⟨m, .announcing, []⟩ done ⟨m', .gone why cut, hands⟩) := by
  have attended := supplied.attended
  apply (serve_waits (supplied.created.begun.inOrder patient) stops).imp
  · intro _ m' served
    obtain ⟨hands, -, waited⟩ := served
    obtain ⟨done, trail⟩ := waited.trail attended
    exact ⟨hands, done, trail⟩
  · intro f m' failed
    obtain ⟨why, cut, hands, cause, path, waited⟩ := failed
    have opened := ((attended.reached path.reached).ended rfl).sink
    cases cut with
    | none =>
      obtain ⟨done, trail⟩ := (waited rfl).trail attended
      exact ⟨why, none, hands, done, cause, trail⟩
    | some g =>
      obtain ⟨done, trail⟩ := attended.trail path.reached opened
      exact ⟨why, some g, hands, done, cause, trail⟩

end Ends

def posture (s : Stage Int) : Duty × List SocketId := (s.duty, unsigned s.hands)

def looksAndGoes : Option (Stage Int × Stage Int × Stage Int × Stage Int) := do
  let a ← Stage.play (fun _ => true) (List.replicate 21 none) ⟨pairCrew .deferred, .announcing, []⟩
  let b ← a.next? none
  let c ← Stage.play (fun _ => true) (List.replicate 5 none) b
  let d ← c.next? none
  return (a, b, c, d)

theorem looksAndGoes_ends : looksAndGoes.map (fun s => (posture s.1, posture s.2.2.1)) =
    some ((.closing .told [.surveying, .calling, .releasing, .summing], [2, 3]),
      (.closing .told [.releasing, .summing], [2, 3])) := by
  decide +kernel

end Crew
end StreamRelay
