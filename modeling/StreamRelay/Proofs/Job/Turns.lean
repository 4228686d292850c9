import Mathlib.Logic.Relation
import StreamRelay.Job
import StreamRelay.Proofs.Console.Attending

namespace StreamRelay
variable {T W : Type}
open Run Host

-- A worker that uses up what there is, stays where its end is, and comes to its end once it was told to.
class Diligent (T W : Type) [Clock T] [Work T W] : Prop where
  begins : Work.ended (Work.first : Work.Place T W) = none
  worn : ∀ (place : Work.Place T W) who (m : Machine T W),
    Ends (Work.turn place who) m (fun _ m' => Worn m.host m'.host) fun _ _ => False
  rests : ∀ (place : Work.Place T W) who (m : Machine T W), (Work.ended place).isSome = true →
    Ends (Work.turn place who) m (fun next _ => Work.ended next = Work.ended place) fun _ _ => False
  spends : ∀ (place : Work.Place T W) (h : Host T) (m : Machine T W), Work.ended place = none →
    m.host.isSet (Work.stopFlag T W) = true → Ends (Work.turn place (Work.due h place)) m
      (fun next m' => Work.left m'.host m'.prog next < Work.left m.host m.prog place) fun _ _ => False
  same : ∀ (h h' : Host T) (work : W) (place : Work.Place T W), h'.workload = h.workload →
    Work.left h' work place = Work.left h work place

namespace Job
variable [Work T W] {rel : Host T → Host T → Prop} {m m' : Machine T (Job T W)}

-- What a turn comes to: nothing before the thread was started, else what its work does.
inductive Turned (who : Nat) (m : Machine T (Job T W)) : Machine T (Job T W) → Prop where
  | unborn (unborn : m.prog.place = none) : Turned who m m
  | took {place next n} (there : m.prog.place = some place)
      (ran : Work.turn place who
        ⟨{ m.host with workerStop := some (Work.stopFlag T W) }, m.prog.work⟩ = .ok next n) :
      Turned who m ⟨noting n.host m.prog { m.prog with work := n.prog, place := some next },
        { m.prog with work := n.prog, place := some next }⟩

theorem turn_turned [Clock T] [Diligent T W] (who : Nat) (m : Machine T (Job T W)) :
    Turned who m (turn who m) := by
  cases there : m.prog.place with
  | none =>
    simp only [turn, there]
    exact .unborn there
  | some place =>
    obtain ⟨next, n, ran, -⟩ := (Diligent.worn place who
      ⟨{ m.host with workerStop := some (Work.stopFlag T W) }, m.prog.work⟩).exists_ok
    simp only [turn, there, ran]
    exact .took there ran

-- One step of the program itself, which leaves the worker alone, or one turn of the worker.
inductive Step (rel : Host T → Host T → Prop) :
    Machine T (Job T W) → Machine T (Job T W) → Prop where
  | beside {h h' job} (moved : rel h h') : Step rel ⟨h, job⟩ ⟨h', job⟩
  | turn (who : Nat) (m : Machine T (Job T W)) : Step rel m (Job.turn who m)

def Path (rel : Host T → Host T → Prop) : Machine T (Job T W) → Machine T (Job T W) → Prop :=
  Relation.ReflTransGen (Step rel)

inductive Replans (h : Host T) : Host T → Prop where
  | to (plan : List (List Nat)) : Replans h { h with plan }

section Paths

theorem turns_path (order : List Nat) (m : Machine T (Job T W)) : Path rel m (turns order m) := by
  induction order generalizing m with
  | nil => exact .refl
  | cons who rest ih => exact (ih (turn who m)).head (.turn who m)

theorem goOn_path (fuel : Nat) (m : Machine T (Job T W)) : Path rel m (goOn fuel m) := by
  induction fuel generalizing m with
  | zero => exact .refl
  | succ fuel ih =>
    simp only [goOn]
    split
    · exact (ih (turn (due m) m)).head (.turn (due m) m)
    · exact .refl

theorem finish_path (m : Machine T (Job T W)) : Path rel m (finish m) := goOn_path _ m

variable (replans : ∀ {h h'}, Replans h h' → rel h h')
include replans

theorem planned_path (taken : planned m = some m') : Path rel m m' := by
  unfold planned at taken
  split at taken
  · cases taken
  · cases taken
    exact (turns_path _ _).head (.beside (replans (.to _)))

theorem pause_path (m : Machine T (Job T W)) : Path rel m ((planned m).getD m) := by
  cases taken : planned m with
  | none => exact .refl
  | some m' => exact planned_path replans taken

theorem resume_path (h : Host T) (job : Job T W) :
    Path rel ⟨h, job⟩ ⟨(Resumable.resume h job).1, (Resumable.resume h job).2⟩ := by
  have getsIn : Path rel ⟨h, job⟩ ((planned ⟨h, job⟩).getD (finish ⟨h, job⟩)) := by
    cases taken : planned (⟨h, job⟩ : Machine T (Job T W)) with
    | none => exact finish_path _
    | some m' => exact planned_path replans taken
  exact getsIn

end Paths

-- What every turn keeps to, and all that a thread does besides.
structure Turning (W : Type) [Work T W] (rel : Host T → Host T → Prop) : Prop where
  refl : ∀ h, rel h h
  trans : ∀ {a b c}, rel a b → rel b c → rel a c
  enters : ∀ h, rel h { h with workerStop := some (Work.stopFlag T W) }
  dies : ∀ h thread f, rel h (h.emit (.threadDied thread f))
  turn : ∀ (place : Work.Place T W) who (m : Machine T W),
    Ends (Work.turn place who) m (fun _ m' => rel m.host m'.host) fun _ _ => True

theorem Turning.noting (turning : Turning W rel) {h h' : Host T} (path : rel h h')
    (before after : Job T W) : rel h (noting h' before after) := by
  unfold Job.noting
  split
  · exact turning.trans path (turning.dies _ _ _)
  · exact path

variable [Clock T] [Diligent T W]

theorem Turning.took (turning : Turning W rel) (who : Nat) (m : Machine T (Job T W)) :
    rel m.host (Job.turn who m).host := by
  have ends := turn_turned who m
  generalize Job.turn who m = m' at ends ⊢
  cases ends with
  | unborn => exact turning.refl _
  | took there ran =>
    exact turning.noting (turning.trans (turning.enters _) ((turning.turn _ _ _).of_ok ran)) _ _

-- Over a path, what the turns keep to and the steps beside them as well.
theorem Turning.path {own : Host T → Host T → Prop} (turning : Turning W rel)
    (beside : ∀ {h h'}, own h h' → rel h h') (path : Path own m m') : rel m.host m'.host := by
  induction path with
  | refl => exact turning.refl _
  | tail _ step ih =>
    cases step with
    | beside moved => exact turning.trans ih (beside moved)
    | turn who => exact turning.trans ih (turning.took who _)

theorem turning_worn (refl : ∀ h, rel h h) (trans : ∀ {a b c}, rel a b → rel b c → rel a c)
    (enters : ∀ h, rel h { h with workerStop := some (Work.stopFlag T W) })
    (worn : ∀ {h h'}, Worn h h' → rel h h') : Turning W rel where
  refl := refl
  trans := trans
  enters := enters
  dies h _ _ := worn (worn_emit h _)
  turn place who m := (Diligent.worn place who m).well fun _ _ path => worn path

theorem turning_staysTold (flag : Flag) : Turning (T := T) W (StaysTold flag) :=
  turning_worn (fun _ => id) (fun one two told => two (one told)) (fun _ => staysTold_same rfl rfl)
    fun worn => worn.staysTold flag

theorem turning_seen : Turning (T := T) W Seen :=
  turning_worn (fun _ => seen_same rfl) .trans (fun _ => seen_same rfl) Worn.seen

theorem turning_wears : Turning (T := T) W (Foreground.Wears (Work.stopFlag T W)) :=
  turning_worn .refl .trans (fun _ => ⟨⟨rfl, rfl, .inr rfl, id⟩, Nat.le_refl _⟩)
    Foreground.wears_of_worn

theorem turn_dead (who : Nat) (dead : m.prog.alive = false) : (turn who m).prog.alive = false := by
  have ends := turn_turned who m
  generalize turn who m = m' at ends ⊢
  cases ends with
  | unborn => exact dead
  | @took place next n there ran =>
    simp only [alive, ended, there, Option.isSome_some, Bool.true_and, Option.bind_some,
      Option.isNone_eq_false_iff] at dead ⊢
    exact ((Diligent.rests place who _ dead).of_ok ran).symm ▸ dead

theorem Path.dead (path : Path rel m m') (dead : m.prog.alive = false) : m'.prog.alive = false := by
  induction path with
  | refl => exact dead
  | tail _ step ih =>
    cases step with
    | beside => exact ih
    | turn who => exact turn_dead who ih

theorem turn_rests {cut : Option Failure} (who : Nat) (done : m.prog.ended = some cut) :
    (turn who m).prog.ended = some cut := by
  have ends := turn_turned who m
  generalize turn who m = m' at ends ⊢
  cases ends with
  | unborn => exact done
  | @took place next n there ran =>
    simp only [ended, there, Option.bind_some] at done ⊢
    exact ((Diligent.rests place who _ (by rw [done]; rfl)).of_ok ran).trans done

theorem turn_thread (who : Nat) (m : Machine T (Job T W)) :
    (turn who m).prog.thread = m.prog.thread := by
  have ends := turn_turned who m
  generalize turn who m = m' at ends ⊢
  cases ends <;> rfl

theorem turn_placed (who : Nat) (begun : m.prog.place.isSome = true) :
    (turn who m).prog.place.isSome = true := by
  have ends := turn_turned who m
  generalize turn who m = m' at ends ⊢
  cases ends with
  | unborn => exact begun
  | took => rfl

-- A death has left its note.
def Noted (m : Machine T (Job T W)) : Prop := ∀ f, m.prog.ended = some (some f) →
  ∃ s ∈ m.host.trace, s.event = .threadDied m.prog.thread f

theorem turn_noted (who : Nat) (noted : Noted m) : Noted (turn who m) := by
  intro f died
  cases before : m.prog.ended with
  | some cut =>
    have same : cut = some f := Option.some.inj ((turn_rests who before).symm.trans died)
    obtain ⟨s, there, told⟩ := noted f (before.trans (congrArg some same))
    exact ⟨s, (turning_seen.took who m).subset there, told.trans (by rw [turn_thread])⟩
  | none =>
    have ends := turn_turned who m
    generalize turn who m = m' at ends died ⊢
    cases ends with
    | unborn => cases before.symm.trans died
    | took there ran =>
      simp only [noting, before, died]
      exact ⟨_, List.mem_cons_self, rfl⟩

section Ends
variable (path : Path rel m m')
include path

theorem Path.noted (grows : ∀ {h h'}, rel h h' → Seen h h') (noted : Noted m) : Noted m' := by
  induction path with
  | refl => exact noted
  | tail _ step ih =>
    cases step with
    | beside moved =>
      intro f died
      obtain ⟨s, there, told⟩ := ih f died
      exact ⟨s, (grows moved).subset there, told⟩
    | turn who => exact turn_noted who ih

theorem Path.started (begun : m.prog.place.isSome = true) : m'.prog.place.isSome = true := by
  induction path with
  | refl => exact begun
  | tail _ step ih =>
    cases step with
    | beside => exact ih
    | turn who => exact turn_placed who ih

theorem Path.finished (begun : m.prog.place.isSome = true) (dead : m'.prog.alive = false) :
    ∃ cut, m'.prog.ended = some cut := by
  have placed := path.started begun
  rw [alive, placed, Bool.true_and, Option.isNone_eq_false_iff] at dead
  exact Option.isSome_iff_exists.mp dead

end Ends

omit [Clock T] [Diligent T W] in
theorem wears_of_replans {flag : Flag} {h h' : Host T} (replans : Replans h h') :
    Foreground.Wears flag h h' := by
  cases replans
  exact Foreground.wears_of_worn (worn_same rfl rfl rfl (seen_same rfl))

theorem job_mortal : Mortal (fun job : Job T W => job.alive = false)
    (Foreground.Wears (T := T) (Work.stopFlag T W)) where
  moves h job := turning_wears.path wears_of_replans (resume_path id h job)
  stays h job dead := Path.dead (resume_path id h job) dead

theorem isAlive_probes : Foreground.Probes (T := T) (Work.stopFlag T W)
    (fun job : Job T W => job.alive = false) isAlive := by
  intro m
  have path : Path Replans m ((planned m).getD m) := pause_path id m
  exact ⟨⟨turning_wears.path wears_of_replans path, path.dead⟩, path.dead⟩

omit [Clock T] [Diligent T W] in
theorem workload_noting (h : Host T) (before after : Job T W) :
    (noting h before after).workload = h.workload := by
  unfold noting
  split <;> rfl

theorem turn_spends {place : Work.Place T W} (there : m.prog.place = some place)
    (living : Work.ended place = none) (told : m.host.isSet (Work.stopFlag T W) = true) :
    ∃ next, (turn (due m) m).prog.place = some next ∧
      Work.left (turn (due m) m).host (turn (due m) m).prog.work next <
        Work.left m.host m.prog.work place := by
  have chosen : due m = Work.due m.host place := by simp only [due, there, Option.map_some, Option.getD_some]
  have ends := turn_turned (due m) m
  generalize turn (due m) m = m' at ends ⊢
  cases ends with
  | unborn unborn => cases there.symm.trans unborn
  | @took place' next n there' ran =>
    cases there.symm.trans there'
    have entered : ({ m.host with workerStop := some (Work.stopFlag T W) } : Host T).isSet
        (Work.stopFlag T W) = true := staysTold_same (h := m.host) rfl rfl told
    rw [chosen] at ran
    have less := (Diligent.spends place m.host _ living entered).of_ok ran
    refine ⟨next, rfl, ?_⟩
    rw [Diligent.same _ _ _ _ (workload_noting n.host _ _)]
    exact Nat.lt_of_lt_of_eq less (Diligent.same _ _ _ _ rfl)

omit [Clock T] [Diligent T W] in
theorem place_of_alive (alive : m.prog.alive = true) :
    ∃ place, m.prog.place = some place ∧ Work.ended place = none := by
  simp only [Job.alive, ended, Bool.and_eq_true, Option.isNone_iff_eq_none] at alive
  obtain ⟨place, there⟩ := Option.isSome_iff_exists.mp alive.1
  exact ⟨place, there, by simpa only [there, Option.bind_some] using alive.2⟩

theorem goOn_dead (fuel : Nat) (told : m.host.isSet (Work.stopFlag T W) = true)
    (enough : ∀ place, m.prog.place = some place → Work.left m.host m.prog.work place ≤ fuel) :
    (goOn fuel m).prog.alive = false := by
  induction fuel generalizing m with
  | zero =>
    apply Bool.eq_false_iff.mpr
    intro alive
    obtain ⟨place, there, living⟩ := place_of_alive (m := m) alive
    obtain ⟨next, -, less⟩ := turn_spends there living told
    exact Nat.not_lt_zero _ (Nat.lt_of_lt_of_le less (enough place there))
  | succ fuel ih =>
    simp only [goOn]
    split
    · rename_i alive
      obtain ⟨place, there, living⟩ := place_of_alive alive
      obtain ⟨next, there', less⟩ := turn_spends there living told
      apply ih ((turning_staysTold _).took _ m told)
      intro other found
      cases there'.symm.trans found
      have room := enough place there
      omega
    · rename_i dead
      exact Bool.eq_false_iff.mpr dead

-- A thread that is joined after it was told to stop has ended then.
theorem finish_dead (told : m.host.isSet (Work.stopFlag T W) = true) :
    (finish m).prog.alive = false := by
  apply goOn_dead _ told
  intro place there
  rw [there]
  exact Nat.le_refl _

end Job
end StreamRelay
