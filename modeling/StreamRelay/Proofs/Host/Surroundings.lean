import StreamRelay.Host.Console
import StreamRelay.Host.Selector
import StreamRelay.Proofs.Course

namespace StreamRelay
variable {T P α : Type}

-- A program of which nothing is ever put off, so that no event can run a part of it.
class Idle (T P : Type) [Resumable T P] : Prop where
  resume_eq : ∀ (h : Host T) (p : P), Resumable.resume h p = (h, p)

instance : Idle T Unit := ⟨fun _ _ => rfl⟩

def Event.plain : Event T → Bool
  | .accept .. | .received .. | .offered .. | .datagram .. | .closed .. => false
  | _ => true

def Hosted (rel : Host T → Host T → Prop) (m m' : Machine T P) : Prop :=
  rel m.host m'.host ∧ m'.prog = m.prog

theorem Hosted.cases {rel : Host T → Host T → Prop} {m m' : Machine T P} (path : Hosted rel m m') :
    ∃ h, rel m.host h ∧ m' = ⟨h, m.prog⟩ := ⟨m'.host, path.1, by rw [← path.2]⟩

namespace Host
variable {rel : Host T → Host T → Prop}

theorem alterClient_of {h : Host T} {f : Sock T → Sock T} (refl : rel h h)
    (alter : ∀ id, rel h (h.alter id f)) (client : Nat) : rel h (h.alterClient client f) := by
  unfold alterClient
  cases h.client? client with
  | none => exact refl
  | some id => exact alter id

theorem deliver_of (refl : ∀ h, rel h h) (raise : ∀ h flag, rel h (h.raise flag)) (h : Host T)
    (signal : Signal) : rel h (h.deliver signal) := by
  unfold deliver
  cases h.handler signal with
  | none => exact refl h
  | some flag => exact raise h flag

theorem stop_of (refl : ∀ h, rel h h) (trans : ∀ {a b c}, rel a b → rel b c → rel a c)
    (raise : ∀ h flag, rel h (h.raise flag)) (h : Host T) : rel h h.stop := by
  unfold stop
  cases h.ending with
  | raises flag => exact raise h flag
  | terminates =>
    refine trans (deliver_of refl raise h .terminate) ?_
    simp only
    cases (h.deliver .terminate).workerStop with
    | none => exact refl _
    | some flag => exact raise _ flag

-- What the surroundings have a hand in beside the flags.
inductive Moves (h : Host T) : Host T → Prop where
  | moved (sockets clients waiting early console consoleEnded clock faults) : Moves h
      { h with sockets, clients, waiting, early, console, consoleEnded, clock, faults }

theorem apply_of [Clock T] (refl : ∀ h, rel h h) (trans : ∀ {a b c}, rel a b → rel b c → rel a c)
    (moves : ∀ {h h'}, Moves h h' → rel h h') (raise : ∀ h flag, rel h (h.raise flag)) (h : Host T)
    (action : Action T) : rel h (h.apply action) := by
  have alter (id : SocketId) (f : Sock T → Sock T) : rel h (h.alter id f) :=
    moves (.moved _ _ _ _ _ _ _ _)
  cases action with
  | connect c =>
    simp only [apply, addClient]
    split <;> exact moves (.moved _ _ _ _ _ _ _ _)
  | send | finish | reset => exact alterClient_of (refl h) (fun id => alter id _) _
  | console | consoleEnd | advance | fault => exact moves (.moved _ _ _ _ _ _ _ _)
  | datagram data =>
    simp only [apply]
    split <;> exact moves (.moved _ _ _ _ _ _ _ _)
  | closeServer =>
    simp only [apply]
    cases h.server with
    | none => exact refl h
    | some id => exact alter id _
  | stop => exact stop_of refl trans raise h
  | signal s => exact deliver_of refl raise h s
  | runWorker => exact refl h

end Host

open Run

-- A run, however it ends, moves the host alone and as the relation says.
def Keeps (rel : Host T → Host T → Prop) (act : Run T P α) : Prop :=
  Within (Hosted rel) (Hosted rel) act

variable [Clock T]

-- What the surroundings do between two calls, and how a script is used up.
structure Mild (rel : Host T → Host T → Prop) : Prop where
  refl : ∀ h, rel h h
  trans : ∀ {a b c}, rel a b → rel b c → rel a c
  faults : ∀ h rest, rel h { h with faults := rest }
  batches : ∀ h rest, rel h { h with batches := rest }
  apply : ∀ h action, rel h (h.apply action)

-- What is common to all calls, whatever events they leave and whatever they do in the end.
structure Lively (rel : Host T → Host T → Prop) : Prop where
  refl : ∀ h, rel h h
  trans : ∀ {a b c}, rel a b → rel b c → rel a c
  clock : ∀ h d, rel h { h with clock := Clock.add h.clock d }
  incident : ∀ {P} [Resumable T P] [Idle T P] call, Keeps (P := P) rel (Os.incident call)
  await : ∀ {P} [Resumable T P] [Idle T P], Keeps (P := P) rel Os.await

structure Calm (rel : Host T → Host T → Prop) : Prop where
  refl : ∀ h, rel h h
  trans : ∀ {a b c}, rel a b → rel b c → rel a c
  emit : ∀ h (e : Event T), e.plain = true → rel h (h.emit e)
  note : ∀ h call id cause, rel h (h.note call id cause)
  clock : ∀ h t, rel h { h with clock := t }
  stderr : ∀ h text, rel h { h with stderr := text }
  console : ∀ h rest, rel h { h with console := rest }
  faults : ∀ h rest, rel h { h with faults := rest }
  batches : ∀ h rest, rel h { h with batches := rest }
  apply : ∀ h action, rel h (h.apply action)

structure Steady (rel : Host T → Host T → Prop) : Prop where
  refl : ∀ h, rel h h
  trans : ∀ {a b c}, rel a b → rel b c → rel a c
  emit : ∀ h (e : Event T), e.plain = true → rel h (h.emit e)
  note : ∀ h call id cause, rel h (h.note call id cause)
  clock : ∀ h d, rel h { h with clock := Clock.add h.clock d }
  stderr : ∀ h text, rel h { h with stderr := text }
  console : ∀ h n, rel h { h with console := h.console.drop n }
  incident : ∀ {P} [Resumable T P] [Idle T P] call, Keeps (P := P) rel (Os.incident call)
  await : ∀ {P} [Resumable T P] [Idle T P], Keeps (P := P) rel Os.await

variable {rel : Host T → Host T → Prop}

omit [Clock T] in
theorem hosted_course (refl : ∀ h, rel h h) (trans : ∀ {a b c}, rel a b → rel b c → rel a c) :
    Course (Hosted (P := P) rel) (Hosted rel) where
  refl _ := ⟨refl _, rfl⟩
  trans one two := ⟨trans one.1 two.1, two.2.trans one.2⟩
  weaken path := path
  falls one two := ⟨trans one.1 two.1, two.2.trans one.2⟩

theorem Calm.course (calm : Calm rel) : Course (Hosted (P := P) rel) (Hosted rel) :=
  hosted_course calm.refl calm.trans

theorem Lively.course (lively : Lively rel) : Course (Hosted (P := P) rel) (Hosted rel) :=
  hosted_course lively.refl lively.trans

omit [Clock T] in
theorem changes_keeps {f : Host T → Host T} (step : ∀ h, rel h (f h)) :
    Keeps (P := P) rel (Run.changes f) := fun m => ⟨step m.host, rfl⟩

theorem Calm.mild (calm : Calm rel) : Mild rel where
  refl := calm.refl
  trans := calm.trans
  faults := calm.faults
  batches := calm.batches
  apply := calm.apply

theorem Calm.mono {wider : Host T → Host T → Prop} (calm : Calm rel)
    (widen : ∀ {h h'}, rel h h' → wider h h')
    (trans : ∀ {a b c}, wider a b → wider b c → wider a c) : Calm wider where
  refl h := widen (calm.refl h)
  trans := trans
  emit h e plain := widen (calm.emit h e plain)
  note h call id cause := widen (calm.note h call id cause)
  clock h t := widen (calm.clock h t)
  stderr h text := widen (calm.stderr h text)
  console h rest := widen (calm.console h rest)
  faults h rest := widen (calm.faults h rest)
  batches h rest := widen (calm.batches h rest)
  apply h action := widen (calm.apply h action)

theorem Calm.and {other : Host T → Host T → Prop} (one : Calm rel) (two : Calm other) :
    Calm fun h h' => rel h h' ∧ other h h' where
  refl h := ⟨one.refl h, two.refl h⟩
  trans first second := ⟨one.trans first.1 second.1, two.trans first.2 second.2⟩
  emit h e plain := ⟨one.emit h e plain, two.emit h e plain⟩
  note h call id cause := ⟨one.note h call id cause, two.note h call id cause⟩
  clock h t := ⟨one.clock h t, two.clock h t⟩
  stderr h text := ⟨one.stderr h text, two.stderr h text⟩
  console h rest := ⟨one.console h rest, two.console h rest⟩
  faults h rest := ⟨one.faults h rest, two.faults h rest⟩
  batches h rest := ⟨one.batches h rest, two.batches h rest⟩
  apply h action := ⟨one.apply h action, two.apply h action⟩

omit [Clock T] in
theorem Keeps.and {other : Host T → Host T → Prop} {act : Run T P α} (one : Keeps rel act)
    (two : Keeps other act) : Keeps (fun h h' => rel h h' ∧ other h h') act := by
  intro m
  apply ((one m).and (two m)).imp
  · exact fun _ _ both => ⟨⟨both.1.1, both.2.1⟩, both.1.2⟩
  · exact fun _ _ both => ⟨⟨both.1.1, both.2.1⟩, both.1.2⟩

theorem Steady.and {other : Host T → Host T → Prop} (one : Steady rel) (two : Steady other) :
    Steady fun h h' => rel h h' ∧ other h h' where
  refl h := ⟨one.refl h, two.refl h⟩
  trans first second := ⟨one.trans first.1 second.1, two.trans first.2 second.2⟩
  emit h e plain := ⟨one.emit h e plain, two.emit h e plain⟩
  note h call id cause := ⟨one.note h call id cause, two.note h call id cause⟩
  clock h d := ⟨one.clock h d, two.clock h d⟩
  stderr h text := ⟨one.stderr h text, two.stderr h text⟩
  console h n := ⟨one.console h n, two.console h n⟩
  incident call := (one.incident call).and (two.incident call)
  await := one.await.and two.await

-- What may become of a machine while its program waits: events happen to the host, and the worker, if
-- there is one, may get in.
structure Shared [Resumable T P] (rel : Machine T P → Machine T P → Prop) : Prop where
  refl : ∀ m, rel m m
  trans : ∀ {a b c}, rel a b → rel b c → rel a c
  faults : ∀ h p rest, rel ⟨h, p⟩ ⟨{ h with faults := rest }, p⟩
  batches : ∀ h p rest, rel ⟨h, p⟩ ⟨{ h with batches := rest }, p⟩
  apply : ∀ h p action, rel ⟨h, p⟩ ⟨h.apply action, p⟩
  resume : ∀ h p, rel ⟨h, p⟩ ⟨(Resumable.resume h p).1, (Resumable.resume h p).2⟩

namespace Shared
variable [Resumable T P] {rel : Machine T P → Machine T P → Prop}

theorem course (shared : Shared rel) : Course rel rel where
  refl := shared.refl
  trans := shared.trans
  weaken path := path
  falls := shared.trans

theorem stopAll (shared : Shared rel) : Within rel rel Os.stopAll := by
  intro m
  have stopped : rel m ⟨m.host.stop, m.prog⟩ := shared.apply m.host m.prog .stop
  cases possible : m.host.canStop with
  | true => simpa [Ends, Os.stopAll, possible] using stopped
  | false => simpa [Ends, Os.stopAll, possible] using shared.refl m

theorem perform (shared : Shared rel) (action : Action T) :
    Within rel rel (Os.perform action) := by
  have course := shared.course
  unfold Os.perform
  refine .bind course (.asks course) fun stranger => ?_
  cases stranger with
  | some client => exact .fails course
  | none =>
    cases action with
    | runWorker => exact fun m => shared.resume m.host m.prog
    | stop => exact shared.stopAll
    | _ => exact fun m => shared.apply m.host m.prog _

theorem happen (shared : Shared rel) (actions : List (Action T)) :
    Within rel rel (Os.happen actions) :=
  .forM shared.course fun action _ => shared.perform action

theorem incident (shared : Shared rel) (call : Call) : Within rel rel (Os.incident call) := by
  have course := shared.course
  unfold Os.incident
  refine .bind course (fun m => shared.faults m.host m.prog _) fun fault => ?_
  split
  · exact .pure course
  · exact .pure course
  · exact .pure course
  · refine .bind course (shared.happen _) fun _ => ?_
    split
    · exact .pure course
    · exact .fails course

theorem await (shared : Shared rel) : Within rel rel Os.await := by
  have course := shared.course
  unfold Os.await
  refine .bind course (fun m => shared.batches m.host m.prog _) fun batch => ?_
  split
  · exact .bind course shared.stopAll fun _ => .pure course
  · exact .bind course (shared.happen _) fun _ => .pure course

end Shared

-- A worker whose turns keep to a relation, and which does not begin again once it is dead.
structure Mortal [Resumable T P] (dead : P → Prop) (rel : Host T → Host T → Prop) : Prop where
  moves : ∀ (h : Host T) (p : P), rel h (Resumable.resume h p).1
  stays : ∀ (h : Host T) (p : P), dead p → dead (Resumable.resume h p).2

def Along (dead : P → Prop) (rel : Host T → Host T → Prop) (m m' : Machine T P) : Prop :=
  rel m.host m'.host ∧ (dead m.prog → dead m'.prog)

theorem Mild.along [Resumable T P] {dead : P → Prop} (mild : Mild rel) (mortal : Mortal dead rel) :
    Shared (Along dead rel) where
  refl m := ⟨mild.refl m.host, id⟩
  trans one two := ⟨mild.trans one.1 two.1, fun gone => two.2 (one.2 gone)⟩
  faults h _ rest := ⟨mild.faults h rest, id⟩
  batches h _ rest := ⟨mild.batches h rest, id⟩
  apply h _ action := ⟨mild.apply h action, id⟩
  resume h p := ⟨mortal.moves h p, mortal.stays h p⟩

section Mild
variable [Resumable T P] [Idle T P]

theorem Mild.shared (mild : Mild rel) : Shared (Hosted (P := P) rel) where
  refl _ := ⟨mild.refl _, rfl⟩
  trans one two := ⟨mild.trans one.1 two.1, two.2.trans one.2⟩
  faults h _ rest := ⟨mild.faults h rest, rfl⟩
  batches h _ rest := ⟨mild.batches h rest, rfl⟩
  apply h _ action := ⟨mild.apply h action, rfl⟩
  resume h p := by
    rw [Idle.resume_eq h p]
    exact ⟨mild.refl h, rfl⟩

theorem Mild.happen (mild : Mild rel) (actions : List (Action T)) :
    Keeps (P := P) rel (Os.happen actions) := mild.shared.happen actions

theorem Mild.incident (mild : Mild rel) (call : Call) :
    Keeps (P := P) rel (Os.incident call) := mild.shared.incident call

theorem Mild.await (mild : Mild rel) : Keeps (P := P) rel Os.await := mild.shared.await

end Mild

theorem Mild.lively (mild : Mild rel)
    (clock : ∀ h d, rel h { h with clock := Clock.add h.clock d }) : Lively rel where
  refl := mild.refl
  trans := mild.trans
  clock := clock
  incident := mild.incident
  await := mild.await

theorem Calm.happen [Resumable T P] [Idle T P] (calm : Calm rel) (actions : List (Action T)) :
    Keeps (P := P) rel (Os.happen actions) := calm.mild.happen actions

theorem Calm.steady (calm : Calm rel) : Steady rel where
  refl := calm.refl
  trans := calm.trans
  emit := calm.emit
  note := calm.note
  clock h _ := calm.clock h _
  stderr := calm.stderr
  console h _ := calm.console h _
  incident := calm.mild.incident
  await := calm.mild.await

theorem Steady.mono {wider : Host T → Host T → Prop} (steady : Steady rel)
    (widen : ∀ {h h'}, rel h h' → wider h h')
    (trans : ∀ {a b c}, wider a b → wider b c → wider a c) : Steady wider where
  refl h := widen (steady.refl h)
  trans := trans
  emit h e plain := widen (steady.emit h e plain)
  note h call id cause := widen (steady.note h call id cause)
  clock h d := widen (steady.clock h d)
  stderr h text := widen (steady.stderr h text)
  console h n := widen (steady.console h n)
  incident call := (steady.incident call).mono (fun both => ⟨widen both.1, both.2⟩)
    fun both => ⟨widen both.1, both.2⟩
  await := steady.await.mono (fun both => ⟨widen both.1, both.2⟩) fun both => ⟨widen both.1, both.2⟩

theorem Steady.lively (steady : Steady rel) : Lively rel where
  refl := steady.refl
  trans := steady.trans
  clock := steady.clock
  incident := steady.incident
  await := steady.await

end StreamRelay
