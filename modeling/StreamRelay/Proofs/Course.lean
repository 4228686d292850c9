import StreamRelay.Host.Run

namespace StreamRelay.Run
variable {T P α β : Type}

-- What holds where a run from this machine ends, normally or with a failure.
def Ends (act : Run T P α) (m : Machine T P) (done : α → Machine T P → Prop)
    (failed : Failure → Machine T P → Prop) : Prop :=
  match act m with
  | .ok a m' => done a m'
  | .error f m' => failed f m'

-- The machine that a run leaves, however it ends.
def after (act : Run T P α) (m : Machine T P) : Machine T P :=
  match act m with
  | .ok _ m' | .error _ m' => m'

def endsWell (act : Run T P α) (m : Machine T P) : Bool :=
  match act m with
  | .ok _ _ => true
  | .error _ _ => false

theorem eq_ok_of_endsWell {act : Run T P Unit} {m : Machine T P} (good : endsWell act m = true) :
    act m = .ok () (after act m) := by
  unfold endsWell at good
  unfold after
  cases ran : act m with
  | ok _ m' => rfl
  | error f m' => simp [ran] at good

theorem after_ensuring (act : Run T P α) (last : Run T P Unit) (m : Machine T P) :
    after (ensuring act last) m = after last (after act m) := by
  unfold after ensuring
  cases act m with
  | ok a middle => simp only; cases last middle <;> rfl
  | error f middle => simp only; cases last middle <;> rfl

section Rules
variable {act : Run T P α} {next : α → Run T P β} {m : Machine T P}
  {done : β → Machine T P → Prop} {failed : Failure → Machine T P → Prop}

theorem Ends.of_ok {b : β} {m' : Machine T P} {act : Run T P β} (ends : Ends act m done failed)
    (ran : act m = .ok b m') : done b m' := by
  simpa only [Ends, ran] using ends

theorem Ends.of_error {f : Failure} {m' : Machine T P} {act : Run T P β}
    (ends : Ends act m done failed) (ran : act m = .error f m') : failed f m' := by
  simpa only [Ends, ran] using ends

theorem Ends.ran {act : Run T P β} :
    Ends act m (fun b m' => act m = .ok b m') fun f m' => act m = .error f m' := by
  unfold Ends
  split
  · assumption
  · assumption

theorem ends_any : Ends act m (fun _ _ => True) fun _ _ => True := by
  unfold Ends
  split <;> trivial

theorem Ends.imp {weaker : β → Machine T P → Prop} {weakerFailed : Failure → Machine T P → Prop}
    {act : Run T P β} (ends : Ends act m done failed)
    (ok : ∀ b m', done b m' → weaker b m') (error : ∀ f m', failed f m' → weakerFailed f m') :
    Ends act m weaker weakerFailed := by
  unfold Ends at *
  split at ends
  · exact ok _ _ ends
  · exact error _ _ ends

theorem Ends.well {weaker : β → Machine T P → Prop} {act : Run T P β}
    (ends : Ends act m done failed) (ok : ∀ b m', done b m' → weaker b m') :
    Ends act m weaker fun _ _ => True := ends.imp ok fun _ _ _ => trivial

theorem Ends.normally {weaker : β → Machine T P → Prop} {act : Run T P β}
    (ends : Ends act m done failed) (ok : ∀ b m', done b m' → weaker b m') :
    Ends act m weaker failed := ends.imp ok fun _ _ fell => fell

theorem Ends.and {other : β → Machine T P → Prop} {otherFailed : Failure → Machine T P → Prop}
    {act : Run T P β} (one : Ends act m done failed) (two : Ends act m other otherFailed) :
    Ends act m (fun b m' => done b m' ∧ other b m') (fun f m' => failed f m' ∧ otherFailed f m') := by
  unfold Ends at *
  split at one <;> simp_all

theorem Ends.exists_ok {act : Run T P β} (ends : Ends act m done fun _ _ => False) :
    ∃ b m', act m = .ok b m' ∧ done b m' := by
  unfold Ends at ends
  cases ran : act m with
  | ok b m' => exact ⟨b, m', rfl, by simpa only [ran] using ends⟩
  | error f m' =>
    rw [ran] at ends
    exact ends.elim

theorem eq_ok_of_ends {act : Run T P Unit} {last : Machine T P}
    (ends : Ends act m (fun _ m' => m' = last) fun _ _ => False) : act m = .ok () last := by
  unfold Ends at ends
  cases ran : act m with
  | ok _ m' =>
    simp only [ran] at ends
    rw [ends]
  | error f m' => simp [ran] at ends

theorem Ends.given (given : Prop) {act : Run T P β} (ends : given → Ends act m done failed) :
    Ends act m (fun b m' => given → done b m') (fun f m' => given → failed f m') := by
  unfold Ends at *
  cases ran : act m with
  | ok b m' => exact fun p => by simpa only [ran] using ends p
  | error f m' => exact fun p => by simpa only [ran] using ends p

@[simp] theorem ends_bind : Ends (act >>= next) m done failed ↔
    Ends act m (fun a m' => Ends (next a) m' done failed) failed := by
  unfold Ends
  simp only [bind, EStateM.bind]
  cases act m <;> rfl

@[simp] theorem ends_pure {b : β} : Ends (pure b : Run T P β) m done failed ↔ done b m := Iff.rfl

@[simp] theorem ends_asks {f : Host T → β} : Ends (asks f) m done failed ↔ done (f m.host) m :=
  Iff.rfl

@[simp] theorem ends_gets {f : P → β} : Ends (gets f) m done failed ↔ done (f m.prog) m := Iff.rfl

@[simp] theorem ends_fails {f : Failure} : Ends (fails f) m done failed ↔ failed f m := Iff.rfl

@[simp] theorem ends_outcome {done : Except Failure α → Machine T P → Prop} :
    Ends (outcome act) m done failed ↔
      Ends act m (fun a m' => done (.ok a) m') (fun f m' => done (.error f) m') := by
  unfold Ends outcome
  cases act m <;> rfl

variable {done : Unit → Machine T P → Prop}

@[simp] theorem ends_changes {f : Host T → Host T} :
    Ends (changes f) m done failed ↔ done () ⟨f m.host, m.prog⟩ := Iff.rfl

@[simp] theorem ends_sets {f : P → P} :
    Ends (sets f) m done failed ↔ done () ⟨m.host, f m.prog⟩ := Iff.rfl

@[simp] theorem ends_emits {e : Event T} :
    Ends (emits e) m done failed ↔ done () ⟨m.host.emit e, m.prog⟩ := Iff.rfl

@[simp] theorem ends_onlyIf {b : Bool} {act : Run T P Unit} :
    Ends (onlyIf b act) m done failed ↔ if b then Ends act m done failed else done () m := by
  cases b <;> rfl

@[simp] theorem ends_noting {call : Call} {id : SocketId} {done : α → Machine T P → Prop} :
    Ends (noting call id act) m done failed ↔
      Ends act m done fun f m' => failed f ⟨m'.host.note call id f, m'.prog⟩ := by
  unfold Ends noting
  cases act m <;> rfl

-- A failure of the second run takes the place of what the first one ended with.
theorem ends_ensuring {last : Run T P Unit} {done : α → Machine T P → Prop} :
    Ends (ensuring act last) m done failed ↔
      Ends act m (fun a m' => Ends last m' (fun _ => done a) failed)
        (fun f m' => Ends last m' (fun _ => failed f) failed) := by
  unfold Ends ensuring
  cases act m with
  | ok a m' => simp only; cases last m' <;> rfl
  | error f m' => simp only; cases last m' <;> rfl

end Rules

-- What a composed run keeps to as soon as its parts do.
structure Compositional (good : {α : Type} → Run T P α → Prop) : Prop where
  pure {α : Type} (a : α) : good (Pure.pure a : Run T P α)
  bind {α β : Type} {act : Run T P α} {next : α → Run T P β} :
    good act → (∀ a, good (next a)) → good (act >>= next)

theorem Compositional.forM {good : {α : Type} → Run T P α → Prop} (composes : Compositional good)
    {α : Type} {items : List α} {visit : α → Run T P PUnit} (step : ∀ a ∈ items, good (visit a)) :
    good (items.forM visit) := by
  induction items with
  | nil => exact composes.pure _
  | cons a rest ih =>
    rw [List.forM_eq_forM, List.forM_cons]
    refine composes.bind (step a List.mem_cons_self) fun _ => ?_
    exact ih fun b member => step b (List.mem_cons_of_mem _ member)

-- A normal end stands in one relation to the start, a failure in another.
def Within (done failed : Machine T P → Machine T P → Prop) (act : Run T P α) : Prop :=
  ∀ m, Ends act m (fun _ => done m) (fun _ => failed m)

-- Relations that runs keep to one after the other, whichever of them fails.
structure Course (done failed : Machine T P → Machine T P → Prop) : Prop where
  refl : ∀ m, done m m
  trans : ∀ {a b c}, done a b → done b c → done a c
  weaken : ∀ {a b}, done a b → failed a b
  falls : ∀ {a b c}, failed a b → failed b c → failed a c

namespace Course
variable {done failed : Machine T P → Machine T P → Prop}

theorem stay (course : Course done failed) (m : Machine T P) : failed m m :=
  course.weaken (course.refl m)

theorem fall (course : Course done failed) {a b c : Machine T P} (one : done a b)
    (two : failed b c) : failed a c := course.falls (course.weaken one) two

end Course

-- From one machine on: the second part may use what the first has come to.
theorem Ends.follow {done failed : Machine T P → Machine T P → Prop}
    (course : Course done failed) {act : Run T P α} {next : α → Run T P β} {m : Machine T P}
    (first : Ends act m (fun a m' => done m m' ∧
      Ends (next a) m' (fun _ => done m') fun _ => failed m') fun _ => failed m) :
    Ends (act >>= next) m (fun _ => done m) fun _ => failed m := by
  rw [ends_bind]
  apply first.normally
  intro a middle both
  exact both.2.imp (fun _ _ step => course.trans both.1 step) fun _ _ step => course.fall both.1 step

namespace Within
variable {done failed : Machine T P → Machine T P → Prop} {act : Run T P α} {next : α → Run T P β}

theorem pure (course : Course done failed) {a : α} :
    Within done failed (Pure.pure a : Run T P α) := fun m => course.refl m

theorem asks (course : Course done failed) {f : Host T → α} : Within done failed (Run.asks f) :=
  fun m => course.refl m

theorem gets (course : Course done failed) {f : P → α} : Within done failed (Run.gets f) :=
  fun m => course.refl m

theorem fails (course : Course done failed) {f : Failure} :
    Within done failed (Run.fails f : Run T P α) := fun m => course.stay m

theorem bind (course : Course done failed) (first : Within done failed act)
    (rest : ∀ a, Within done failed (next a)) : Within done failed (act >>= next) := by
  intro m
  apply Ends.follow course
  exact (first m).normally fun a middle step => ⟨step, rest a middle⟩

theorem onlyIf (course : Course done failed) {b : Bool} {act : Run T P Unit}
    (step : Within done failed act) : Within done failed (Run.onlyIf b act) := by
  cases b
  · exact pure course
  · exact step

theorem outcome (step : Within done done act) : Within done failed (Run.outcome act) := by
  intro m
  rw [ends_outcome]
  exact (step m).imp (fun _ _ path => path) fun _ _ path => path

theorem caught (course : Course done failed) {next : Except Failure α → Run T P β}
    (step : Within done failed act) (went : ∀ a, Within done failed (next (.ok a)))
    (fell : ∀ f m, Ends (next (.error f)) m (fun _ _ => False) fun _ => failed m) :
    Within done failed (Run.outcome act >>= next) := by
  intro m
  rw [ends_bind, ends_outcome]
  apply (step m).imp
  · intro a m' first
    exact (went a m').imp (fun _ _ second => course.trans first second)
      fun _ _ second => course.fall first second
  · intro f m' first
    exact (fell f m').imp (fun _ _ never => never.elim) fun _ _ second => course.falls first second

theorem ensuring (course : Course done failed) {last : Run T P Unit}
    (step : Within done failed act) (ending : Within done failed last) :
    Within done failed (Run.ensuring act last) := by
  intro m
  rw [ends_ensuring]
  refine (step m).imp ?_ ?_
  · intro a middle path
    exact (ending middle).imp (fun _ _ => course.trans path) fun _ _ => course.fall path
  · intro f middle path
    exact (ending middle).imp (fun _ _ closing => course.falls path (course.weaken closing))
      fun _ _ => course.falls path

theorem after (course : Course done failed) (step : Within done failed act) (m : Machine T P) :
    failed m (Run.after act m) := by
  have ends := step m
  unfold Ends at ends
  unfold Run.after
  split at ends
  · exact course.weaken ends
  · exact ends

theorem mono {wider widerFailed : Machine T P → Machine T P → Prop}
    (step : Within done failed act) (ok : ∀ {a b}, done a b → wider a b)
    (error : ∀ {a b}, failed a b → widerFailed a b) : Within wider widerFailed act :=
  fun m => (step m).imp (fun _ _ => ok) fun _ _ => error

theorem composes (course : Course done failed) : Compositional (T := T) (P := P) (Within done failed) :=
  ⟨fun _ => pure course, bind course⟩

theorem forM (course : Course done failed) {items : List α} {visit : α → Run T P PUnit}
    (step : ∀ a ∈ items, Within done failed (visit a)) : Within done failed (items.forM visit) :=
  (composes course).forM step

end Within
end StreamRelay.Run
