import StreamRelay.Proofs.Commands.Signals
import StreamRelay.Proofs.Job.Turns

namespace StreamRelay
variable {T W : Type}
open Run Host

-- What a command does to the host beside its worker, one step at a time.
structure Around [Clock T] (rel : Host T → Host T → Prop) : Prop extends Mild rel where
  stirs : ∀ {h h'}, Stirs h h' → rel h h'
  raises : ∀ h flag, rel h (h.raise flag)
  replans : ∀ {h h'}, Job.Replans h h' → rel h h'

namespace Job
variable [Clock T] [Work T W] [Diligent T W] {rel : Host T → Host T → Prop}
  {m m' : Machine T (Job T W)}

omit [Diligent T W] in
theorem path_waiting (around : Around rel) : Waiting (Path (W := W) rel) where
  refl _ := .refl
  trans := Relation.ReflTransGen.trans
  faults h _ rest := .single (.beside (around.faults h rest))
  batches h _ rest := .single (.beside (around.batches h rest))
  apply h _ action := .single (.beside (around.apply h action))
  resume := resume_path around.replans
  stirs _ stirs := .single (.beside (around.stirs stirs))

omit [Diligent T W] in
theorem path_handling (around : Around rel) (flags : Option Flag → Prop)
    (handles : ∀ h s flag, rel h (h.setHandler s flag)) :
    Commands.Handling flags (Path (W := W) rel) where
  toShared := (path_waiting around).toShared
  handles h _ s _ _ := .single (.beside (handles h s _))
  tells _ _ _ _ := .single (.beside (around.stirs (.tells _ rfl)))

omit [Diligent T W] in
theorem pause_within (around : Around rel) : Within (Path (W := W) rel) (Path rel) pause :=
  fun m => pause_path around.replans m

def Begun (rel : Host T → Host T → Prop) (m m' : Machine T (Job T W)) : Prop :=
  ∃ begun, rel m.host begun ∧ Path rel ⟨begun, m.prog.started⟩ m'

omit [Clock T] [Diligent T W] in
theorem Begun.along (begun : Begun rel m m') {m'' : Machine T (Job T W)} (path : Path rel m' m'') :
    Begun rel m m'' := by
  obtain ⟨h, first, rest⟩ := begun
  exact ⟨h, first, rest.trans path⟩

omit [Diligent T W] in
theorem attend_begins (around : Around rel) (stdin : Stdin) :
    Ends (Commands.attend stdin) m (fun _ => Begun rel m) fun _ _ => True := by
  have waiting := path_waiting (W := W) around
  have course := waiting.course
  have starts : Ends start m (fun _ => Begun rel m) fun _ _ => True := by
    have told : rel m.host (m.host.emit (.threadStart m.prog.thread)) :=
      around.stirs (.tells _ rfl)
    simp only [start, ends_bind, ends_gets, ends_emits, ends_sets, ends_asks]
    split
    · exact ⟨_, told, waiting.resume _ _⟩
    · exact ⟨_, told, .refl⟩
  rw [Commands.attend, ends_bind]
  apply starts.well
  intro _ started begun
  have asks : Within (Path (W := W) rel) (Path rel) isAlive :=
    .bind course (pause_within around) fun _ => .gets course
  rw [ends_bind]
  apply (waiting.patient.waitForQuit asks 0 stdin _ started).well
  intro _ waited path
  apply (pause_within around waited).well
  exact fun _ _ last => (begun.along path).along last

theorem join_ends (around : Around rel) : Ends join m
    (fun _ m' => Path rel m m' ∧
      (m.host.isSet (Work.stopFlag T W) = true → m'.prog.alive = false)) fun _ _ => True := by
  have told : rel m.host (m.host.emit (.threadJoin m.prog.thread none)) :=
    around.stirs (.tells _ rfl)
  simp only [join, ends_bind, ends_gets, ends_emits]
  generalize joining : (⟨m.host.emit (.threadJoin m.prog.thread none), m.prog⟩ :
    Machine T (Job T W)) = middle
  have first : Path rel m middle := joining ▸ .single (.beside told)
  refine ⟨(first.trans (pause_path around.replans middle)).trans (finish_path _), fun stopped => ?_⟩
  have heard : middle.host.isSet (Work.stopFlag T W) = true :=
    joining ▸ staysTold_same rfl rfl stopped
  have paused : Path Replans middle ((planned middle).getD middle) := pause_path id middle
  refine finish_dead ((turning_staysTold _).path (fun replanned => ?_) paused heard)
  cases replanned
  exact staysTold_same rfl rfl

omit [Diligent T W] in
theorem Path.unborn (path : Path rel m m') (around : Around rel) (idle : m.prog.place = none) :
    rel m.host m'.host ∧ m'.prog = m.prog := by
  induction path with
  | refl => exact ⟨around.refl _, rfl⟩
  | @tail middle last _ step ih =>
    cases step with
    | beside moved => exact ⟨around.trans ih.1 moved, ih.2⟩
    | turn who =>
      have still : turn who middle = middle := by simp only [turn, ih.2, idle]
      rw [still]
      exact ih

-- A command that waits for the end, tells its worker to stop and joins it.
theorem whole_ends (around : Around rel) (stdin : Stdin) {flag : Flag}
    (stops : Work.stopFlag T W = flag) :
    Ends (do
        Commands.attend stdin
        Os.stop flag
        join) m (fun _ m' => Begun rel m m' ∧ m'.prog.alive = false) fun _ _ => True := by
  rw [ends_bind]
  apply (attend_begins around stdin).well
  intro _ attended begun
  rw [ends_bind, Os.stop, ends_changes]
  apply (join_ends around).well
  intro _ m' joined
  have stopped : Path rel attended ⟨attended.host.raise flag, attended.prog⟩ :=
    .single (.beside (around.raises _ flag))
  have told : (attended.host.raise flag).isSet (Work.stopFlag T W) = true := by
    rw [stops]
    exact isSet_raise_self _ flag
  exact ⟨(begun.along stopped).along joined.1, joined.2 told⟩

-- From here the thread was started and took turns until it had ended, beside what else was done.
def Worked (rel : Host T → Host T → Prop) (job : Job T W) (cut : Option Failure) (h h' : Host T) :
    Prop :=
  ∃ begun ended, rel h begun ∧ Path rel ⟨begun, job.started⟩ ended ∧ ended.prog.ended = some cut ∧
    ended.host = h'

section Worked
variable {job : Job T W} {cut : Option Failure} {h h' later : Host T}

omit [Clock T] [Diligent T W] in
theorem Worked.along (worked : Worked rel job cut h h') (path : rel h' later) :
    Worked rel job cut h later := by
  obtain ⟨begun, ended, first, rest, done, rfl⟩ := worked
  exact ⟨begun, ⟨later, ended.prog⟩, first, rest.tail (.beside path), done, rfl⟩

omit [Diligent T W] in
theorem Worked.after (worked : Worked rel job cut h h') (around : Around rel) {earlier : Host T}
    (path : rel earlier h) : Worked rel job cut earlier h' := by
  obtain ⟨begun, ended, first, rest⟩ := worked
  exact ⟨begun, ended, around.trans path first, rest⟩

theorem worked_of_begun (begun : Begun rel ⟨h, job⟩ m) (dead : m.prog.alive = false) :
    ∃ cut, Worked rel job cut h m.host := by
  obtain ⟨start, first, path⟩ := begun
  obtain ⟨cut, done⟩ := path.finished rfl dead
  exact ⟨cut, start, m, first, path, done, rfl⟩

theorem Worked.noted (worked : Worked rel job cut h h') (grows : ∀ {h h'}, rel h h' → Seen h h')
    {f : Failure} (died : cut = some f) :
    ∃ s ∈ h'.trace, ∃ thread, s.event = .threadDied thread f := by
  obtain ⟨begun, ended, -, path, done, rfl⟩ := worked
  have none : Noted ⟨begun, job.started⟩ := by
    intro f' died'
    have first : Work.ended Work.first = some (some f') := died'
    cases Diligent.begins.symm.trans first
  obtain ⟨s, there, told⟩ := path.noted grows none f (done.trans (congrArg some died))
  exact ⟨s, there, _, told⟩

end Worked

variable (around : Around rel) (handles : ∀ h s flag, rel h (h.setHandler s flag)) {job : Job T W}
  (idle : job.place = none) {h : Host T}
include around handles idle

-- A command that ends its worker while the signals are still its own.
theorem inside_worked (stdin : Stdin) {flag : Flag} (stops : Work.stopFlag T W = flag) :
    Ends (Commands.withSignals .command do
        Commands.attend stdin
        Os.stop flag
        join) ⟨h, job⟩ (fun _ m' => ∃ cut, Worked rel job cut h m'.host) fun _ _ => True := by
  apply (Commands.withSignals_ends (path_handling (W := W) around _ handles)
    (path_handling around _ handles)
    (fun _ m' => Begun rel ⟨h, job⟩ m' ∧ m'.prog.alive = false) ?_).well
  · intro _ m' reached
    obtain ⟨middle, ⟨begun, dead⟩, restored⟩ := reached
    exact worked_of_begun (begun.along restored) (restored.dead dead)
  · intro _ installed _ path
    obtain ⟨first, same⟩ := path.unborn around idle
    apply (whole_ends around stdin stops).well
    intro _ m' reached
    obtain ⟨⟨begun, next, rest⟩, dead⟩ := reached
    rw [same] at rest
    exact ⟨⟨begun, around.trans first next, rest⟩, dead⟩

-- A command that gives the signals back and then ends its worker.
theorem outside_worked (stdin : Stdin) {flag : Flag} (stops : Work.stopFlag T W = flag) :
    Ends (do
        Commands.withSignals .command (Commands.attend stdin)
        Os.stop flag
        join : Run T (Job T W) Unit) ⟨h, job⟩
      (fun _ m' => ∃ cut, Worked rel job cut h m'.host) fun _ _ => True := by
  rw [ends_bind]
  apply (Commands.withSignals_ends (path_handling (W := W) around _ handles)
    (path_handling around _ handles) (fun _ m' => Begun rel ⟨h, job⟩ m') ?_).well
  · intro _ restored reached
    obtain ⟨attended, begun, path⟩ := reached
    rw [ends_bind, Os.stop, ends_changes]
    apply (join_ends around).well
    intro _ m' joined
    have stopped : Path rel restored ⟨restored.host.raise flag, restored.prog⟩ :=
      .single (.beside (around.raises _ flag))
    have told : (restored.host.raise flag).isSet (Work.stopFlag T W) = true := by
      rw [stops]
      exact isSet_raise_self _ flag
    exact worked_of_begun (((begun.along path).along stopped).along joined.1) (joined.2 told)
  · intro _ installed _ path
    obtain ⟨first, same⟩ := path.unborn around idle
    apply (attend_begins around stdin).well
    intro _ attended reached
    obtain ⟨begun, next, rest⟩ := reached
    rw [same] at rest
    exact ⟨begun, around.trans first next, rest⟩

end Job
end StreamRelay
