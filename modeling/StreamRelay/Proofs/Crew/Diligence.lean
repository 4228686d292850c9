import StreamRelay.Proofs.Crew.Turns
import StreamRelay.Proofs.Job.Turns

namespace StreamRelay.Crew
variable {T : Type}
open Run Host

def Fewer (p p' : Crew T) : Prop :=
  p'.clients.length ≤ p.clients.length ∧ p'.readers.length ≤ p.readers.length

theorem Fewer.refl (p : Crew T) : Fewer p p := ⟨Nat.le_refl _, Nat.le_refl _⟩

theorem fewer_setAlive (thread : Nat) (alive : Bool) (p : Crew T) :
    Fewer p (p.setAlive thread alive) :=
  ⟨Nat.le_refl _, Nat.le_of_eq (List.length_map _)⟩

theorem fewer_untrack (sock : SocketId) (p : Crew T) : Fewer p (p.untrack sock) :=
  ⟨List.length_filter_le _ _, Nat.le_refl _⟩

theorem chores_fewer {p p' : Crew T} (fewer : Fewer p p') (left : List Chore) :
    weigh (Chore.weight p') left ≤ weigh (Chore.weight p) left := by
  obtain ⟨clients, readers⟩ := fewer
  induction left with
  | nil => exact Nat.le_refl _
  | cons chore rest ih =>
    have here : chore.weight p' ≤ chore.weight p := by
      cases chore <;> simp only [Chore.weight] <;> omega
    exact Nat.add_le_add here ih

theorem duty_fewer {p p' : Crew T} (fewer : Fewer p p') (duty : Duty) :
    duty.weight p' ≤ duty.weight p := by
  cases duty with
  | closing why left => exact Nat.add_le_add_left (chores_fewer fewer left) 1
  | gone => exact Nat.le_refl _
  | _ =>
    obtain ⟨clients, readers⟩ := fewer
    simp only [Duty.weight]
    omega

variable [Clock T]

-- What is taken from a stream is less to come; any other turn of a reader gets it nearer to its end.
structure Nearer (phase : Phase) (m : Machine T (Crew T)) (phase' : Phase)
    (m' : Machine T (Crew T)) : Prop where
  worn : Worn m.host m'.host
  fewer : Fewer m.prog m'.prog
  less : phase.finished = false →
    30 * m'.host.workload + phase'.weight < 30 * m.host.workload + phase.weight

section Hands
variable {thread : Nat} {sock : SocketId} {phase phase' : Phase} {h h' : Host T} {p p' : Crew T}
  {m m' : Machine T (Crew T)}

omit [Clock T] in
theorem nearer_of_worn (worn : Worn h h') (fewer : Fewer p p')
    (less : phase'.weight < phase.weight) : Nearer phase ⟨h, p⟩ phase' ⟨h', p'⟩ := by
  refine ⟨worn, fewer, fun _ => ?_⟩
  have light : h'.workload ≤ h.workload := worn.light
  simp only
  omega

theorem Phase.Moves.nearer (moves : Phase.Moves thread sock phase m phase' m') :
    Nearer phase m phase' m' := by
  cases moves with
  | gets work less =>
    refine ⟨work.2, .refl _, fun _ => ?_⟩
    simp only [Phase.weight]
    omega
  | ended work | fails work | dies work | passes work | drops work =>
    exact nearer_of_worn work.2 (.refl _) (by simp only [Phase.weight]; omega)
  | counts | overlooks | notes =>
    exact nearer_of_worn (.refl _) (.refl _) (by simp only [Phase.weight]; omega)
  | @reports f text h p =>
    exact nearer_of_worn (steady_worn.logged h _ _) (.refl _) (Nat.lt_add_one 4)
  | @closes exit text h p =>
    exact nearer_of_worn ((worn_shut h sock).trans (steady_worn.logged _ _ _)) (.refl _)
      (Nat.lt_add_one 2)
  | signs => exact nearer_of_worn (.refl _) (fewer_untrack _ _) (Nat.lt_add_one 1)
  | leaves => exact nearer_of_worn (.refl _) (fewer_setAlive _ _ _) Nat.one_pos
  | @falls f lost h p =>
    exact nearer_of_worn ((worn_shut h sock).trans (worn_emit _ _)) (.refl _) (Nat.lt_add_one 1)
  | fades => exact nearer_of_worn (.refl _) (fewer_setAlive _ _ _) Nat.one_pos
  | rests finished =>
    exact ⟨.refl _, .refl _, fun going => absurd (going.symm.trans finished) Bool.false_ne_true⟩

theorem hand_nearer (hand : Hand) (m : Machine T (Crew T)) : Ends hand.turn m
    (fun hand' m' => Nearer hand.phase m hand'.phase m') fun _ _ => False := by
  apply (turn_moves hand m.host m.prog).normally
  rintro _ _ ⟨phase, rfl, moves⟩
  exact moves.nearer

end Hands

section Loop
variable {duty duty' : Duty} {m m' : Machine T (Crew T)}

omit [Clock T] in
theorem Loops.worn (loops : Loops duty m duty' m') : Worn m.host m'.host := by
  cases loops with
  | idles _ _ _ work | leaves _ _ _ work | prepares work | refuses work _ => exact work.2
  | closes work _ _ | ends work => exact work.2
  | accepts work known queue =>
    exact work.2.trans ⟨directed_same rfl, fun told => told, lighter_dequeue known queue, seen_emit _ _⟩
  | lists => exact .refl _
  | hires => exact worn_same rfl rfl rfl (seen_same rfl)
  | starts => exact worn_emit _ _
  | rests => exact .refl _

omit [Clock T] in
theorem idle_weight (free : duty.idle = true) (p : Crew T) :
    duty.hires = [] ∧ 9 + p.clients.length + p.readers.length ≤ duty.weight p := by
  cases duty with
  | announcing | looking | accepting | reporting =>
    simp only [Duty.hires, Duty.weight, true_and]
    omega
  | _ => cases free

omit [Clock T] in
theorem Loops.nearer (loops : Loops duty m duty' m') (told : m.host.serviceStop = true)
    (living : ∀ why cut, duty ≠ .gone why cut) :
    weigh Hand.weight duty.hires + duty'.weight m'.prog <
      duty.weight m.prog := by
  cases loops with
  | @idles duty duty' h h' p free _ nearer =>
    simp only [(idle_weight free p).1, weigh, Nat.zero_add]
    exact nearer told
  | @leaves duty why h h' p free =>
    obtain ⟨nobody, heavy⟩ := idle_weight free p
    refine Nat.lt_of_lt_of_le ?_ heavy
    simp only [nobody, Duty.weight, Chore.weight, weigh]
    omega
  | accepts | prepares | refuses =>
    simp only [Duty.hires, Duty.weight, Chore.weight, weigh]
    omega
  | @lists sock peer h p =>
    have tracked : (p.track sock).clients.length ≤ p.clients.length + 1 := by
      simp only [track, count]
      split
      · exact Nat.le_succ _
      · exact Nat.le_of_eq List.length_append
    have same : (p.track sock).readers = p.readers := rfl
    simp only [Duty.hires, Duty.weight, weigh, same]
    omega
  | @hires sock peer h p =>
    have hired : (p.hire { thread := h.threads, sock, peer }).readers.length ≤
        p.readers.length + 1 := by
      simp only [hire, List.length_append, List.length_singleton]
      exact Nat.succ_le_succ (List.length_filter_le _ _)
    have same : (p.hire { thread := h.threads, sock, peer }).clients = p.clients := rfl
    simp only [Duty.hires, Duty.weight, weigh, same]
    omega
  | @starts r h p =>
    have started := fewer_setAlive r.thread true p
    simp only [Duty.hires, Duty.weight, Hand.of, Hand.weight, Phase.weight, weigh]
    unfold Fewer at started
    omega
  | @closes why left left' own h h' p p' work same fewer =>
    have alike : Fewer p p' := by
      cases same with
      | inl same => exact same ▸ .refl p
      | inr marked => exact marked ▸ .refl p
    have less := Nat.lt_of_le_of_lt (chores_fewer alike left') fewer
    simp only [Duty.hires, Duty.weight, weigh]
    omega
  | ends =>
    simp only [Duty.hires, Duty.weight, weigh]
    omega
  | rests => exact absurd rfl (living _ _)

end Loop

section Roster
variable {s : Roster} {m : Machine T (Crew T)}

theorem roster_worn (s : Roster) (who : Nat) (m : Machine T (Crew T)) :
    Ends (s.turn who) m (fun _ m' => Worn m.host m'.host) fun _ _ => False := by
  cases who with
  | zero =>
    simp only [Roster.turn, ends_bind, ends_pure]
    exact (turn_loops s.duty m.host m.prog).normally fun _ _ loops => loops.worn
  | succ i =>
    simp only [Roster.turn]
    split
    · exact .refl _
    · simp only [ends_bind, ends_pure]
      exact (hand_nearer _ m).normally fun _ _ nearer => nearer.worn

theorem roster_rests (who : Nat) (ended : s.ended.isSome = true) :
    Ends (s.turn who) m (fun next _ => next.ended = s.ended) fun _ _ => False := by
  cases who with
  | zero =>
    obtain ⟨duty, hands⟩ := s
    cases duty with
    | gone why cut => exact rfl
    | _ => cases ended
  | succ i =>
    simp only [Roster.turn]
    split
    · exact rfl
    · simp only [ends_bind, ends_pure]
      exact (hand_nearer _ m).normally fun _ _ _ => rfl

theorem due_cases (s : Roster) (mode : ThreadMode) : s.due mode = 0 ∨
    ∃ i hand, s.due mode = i + 1 ∧ s.hands[i]? = some hand ∧ hand.phase.finished = false := by
  unfold Roster.due
  cases found : s.hands.findIdx? fun hand =>
      !hand.phase.finished && s.duty.frees hand.thread mode with
  | none => exact .inl rfl
  | some i =>
    obtain ⟨bounded, fit, -⟩ := List.findIdx?_eq_some_iff_getElem.mp found
    rw [Bool.and_eq_true, Bool.not_eq_true'] at fit
    exact .inr ⟨i, s.hands[i], rfl, List.getElem?_eq_getElem bounded, fit.1⟩

omit [Clock T] in
theorem weigh_set {hands : List Hand} {i : Nat} {hand : Hand} (hand' : Hand)
    (there : hands[i]? = some hand) :
    weigh Hand.weight (hands.set i hand') + hand.weight = weigh Hand.weight hands + hand'.weight := by
  obtain ⟨bounded, rfl⟩ := List.getElem?_eq_some_iff.mp there
  obtain ⟨before, after, whole, -, replaced⟩ := @List.exists_of_set Hand i hand' hands bounded
  rw [replaced]
  generalize hands[i] = hand at whole
  subst whole
  simp only [weigh_append, weigh]
  omega

theorem roster_spends (living : s.ended = none) (told : m.host.serviceStop = true)
    (mode : ThreadMode) : Ends (s.turn (s.due mode)) m
      (fun next m' => Work.left m'.host m'.prog next < Work.left m.host m.prog s)
      fun _ _ => False := by
  rcases due_cases s mode with loop | ⟨i, hand, reader, there, working⟩
  · have going : ∀ why cut, s.duty ≠ .gone why cut := by
      intro why cut gone
      simp only [Roster.ended, gone] at living
      cases living
    simp only [loop, Roster.turn, ends_bind, ends_pure]
    apply (turn_loops s.duty m.host m.prog).normally
    intro duty m' loops
    have nearer : _ + duty.weight m'.prog < s.duty.weight m.prog := loops.nearer told going
    have light : m'.host.workload ≤ m.host.workload := loops.worn.light
    simp only [Work.left, weigh_append]
    omega
  · simp only [reader, Roster.turn, there, ends_bind, ends_pure]
    apply (hand_nearer hand m).normally
    intro hand' m' nearer
    have less := nearer.less working
    have fewer := duty_fewer nearer.fewer s.duty
    have weighs := weigh_set hand' there
    simp only [Work.left]
    unfold Hand.weight at weighs ⊢
    omega

-- The turns are those of the stages of a crew, or somebody is called who is not there.
theorem roster_turns {next : Roster} {m' : Machine T (Crew T)} :
    (∃ who, s.turn who m = .ok next m') ↔
      next = s ∧ m' = m ∨ Turn ⟨m, s.duty, s.hands⟩ ⟨m', next.duty, next.hands⟩ := by
  obtain ⟨duty, hands⟩ := s
  constructor
  · rintro ⟨who, ran⟩
    cases who with
    | zero =>
      have ends : Ends (Roster.turn ⟨duty, hands⟩ 0) m
          (fun next m' => Turn ⟨m, duty, hands⟩ ⟨m', next.duty, next.hands⟩) fun _ _ => True := by
        simp only [Roster.turn, ends_bind, ends_pure]
        exact Ends.ran.imp (fun _ _ ran => .loop ran) fun _ _ _ => trivial
      exact .inr (ends.of_ok ran)
    | succ i =>
      cases there : hands[i]? with
      | none =>
        simp only [Roster.turn, there] at ran
        cases ran
        exact .inl ⟨rfl, rfl⟩
      | some hand =>
        have ends : Ends (Roster.turn ⟨duty, hands⟩ (i + 1)) m
            (fun next m' => Turn ⟨m, duty, hands⟩ ⟨m', next.duty, next.hands⟩) fun _ _ => True := by
          simp only [Roster.turn, there, ends_bind, ends_pure]
          refine Ends.ran.imp (fun hand' m' ran => ?_) fun _ _ _ => trivial
          exact Stage.next?_exact.mp ⟨some i, by simp only [Stage.next?, there, ran]⟩
        exact .inr (ends.of_ok ran)
  · rintro (⟨rfl, rfl⟩ | turn)
    · refine ⟨hands.length + 1, ?_⟩
      simp only [Roster.turn, List.getElem?_eq_none (Nat.le_refl _)]
      rfl
    · obtain ⟨duty', hands'⟩ := next
      generalize start : (⟨m, duty, hands⟩ : Stage T) = a at turn
      generalize reached : (⟨m', duty', hands'⟩ : Stage T) = b at turn
      cases turn with
      | loop ran =>
        cases start
        cases reached
        refine ⟨0, ?_⟩
        simp only [Roster.turn, bind, EStateM.bind, ran]
        rfl
      | @hand n n' duty before after hand hand' ran =>
        cases start
        cases reached
        refine ⟨before.length + 1, ?_⟩
        simp [Roster.turn, bind, EStateM.bind, ran]
        rfl

instance : Diligent T (Crew T) where
  begins := rfl
  worn := roster_worn
  rests _ who _ ended := roster_rests who ended
  spends _ h _ living told := roster_spends living told h.clientMode
  same h h' work place same := by simp only [Work.left, same]

end Roster

end StreamRelay.Crew
