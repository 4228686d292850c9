import StreamRelay.Foreground
import StreamRelay.Proofs.Host.Calls

namespace StreamRelay
variable {T P : Type} [Clock T]
open Run

def Event.waits : Event T → Bool
  | .wait _ | .poll .. | .read .. | .signal .. | .threadStart _ | .threadJoin .. | .log .. => true
  | _ => false

-- What a wait does to the host beside what happens to it.
inductive Stirs (h : Host T) : Host T → Prop where
  | passes (d : T) : Stirs h { h with clock := Clock.add h.clock d }
  | reads (n : Nat) : Stirs h { h with console := h.console.drop n }
  | writes (text : String) : Stirs h { h with stderr := text }
  | tells (e : Event T) (waits : e.waits = true) : Stirs h (h.emit e)

structure Waiting [Resumable T P] (rel : Machine T P → Machine T P → Prop) : Prop
    extends Shared rel where
  stirs : ∀ {h h'} p, Stirs h h' → rel ⟨h, p⟩ ⟨h', p⟩

-- What holds over the calls that wait, and over all that they do beside.
structure Patient [Resumable T P] (rel : Machine T P → Machine T P → Prop) : Prop where
  refl : ∀ m, rel m m
  trans : ∀ {a b c}, rel a b → rel b c → rel a c
  incident : ∀ call, Within rel rel (Os.incident call)
  await : Within rel rel Os.await
  stirs : ∀ {h h'} p, Stirs h h' → rel ⟨h, p⟩ ⟨h', p⟩

theorem Waiting.patient [Resumable T P] {rel : Machine T P → Machine T P → Prop}
    (waiting : Waiting rel) : Patient rel where
  refl := waiting.refl
  trans := waiting.trans
  incident := waiting.incident
  await := waiting.await
  stirs := waiting.stirs

namespace Patient
variable [Resumable T P] {rel : Machine T P → Machine T P → Prop}

theorem course (patient : Patient rel) : Course rel rel where
  refl := patient.refl
  trans := patient.trans
  weaken path := path
  falls := patient.trans

theorem changes (patient : Patient rel) {f : Host T → Host T} (stirs : ∀ h, Stirs h (f h)) :
    Within rel rel (Run.changes f) := fun m => patient.stirs m.prog (stirs m.host)

theorem emits (patient : Patient rel) {e : Event T} (waits : e.waits = true) :
    Within rel rel (Run.emits e) := patient.changes fun _ => .tells e waits

theorem advance (patient : Patient rel) (d : T) : Within rel rel (Os.advance d) :=
  patient.changes fun _ => .passes d

theorem log (patient : Patient rel) (level : Level) (text : String) :
    Within rel rel (Os.log level text) := by
  intro m
  apply @logged_of T (fun h h' => rel ⟨h, m.prog⟩ ⟨h', m.prog⟩) m.host level text
  · exact patient.refl m
  · exact patient.stirs m.prog (.tells _ rfl)
  · exact fun text => patient.stirs m.prog (.writes text)

theorem waitFor (patient : Patient rel) (flag : Flag) (timeout : T) :
    Within rel rel (Os.waitFor flag timeout) := by
  have course := patient.course
  refine .bind course (.asks course) fun told => ?_
  split
  · exact .pure course
  · refine .bind course (patient.emits rfl) fun _ => .bind course patient.await fun _ => ?_
    exact .bind course (.asks course) fun _ => .onlyIf course (patient.advance timeout)

theorem awaitConsole (patient : Patient rel) (timeout : T) :
    Within rel rel (Os.awaitConsole timeout) := by
  have course := patient.course
  refine .bind course patient.await fun _ => .bind course (.asks course) fun _ => ?_
  exact .onlyIf course (patient.advance timeout)

theorem poll (patient : Patient rel) (fd : Int) (timeout : T) :
    Within rel rel (Os.poll fd timeout) := by
  have course := patient.course
  refine .bind course (patient.incident .poll) fun _ => .bind course (.asks course) fun _ => ?_
  refine .bind course (.onlyIf course (patient.awaitConsole timeout)) fun _ => ?_
  refine .bind course (.asks course) fun _ => ?_
  exact .bind course (patient.emits rfl) fun _ => .pure course

theorem read (patient : Patient rel) (fd : Int) (limit : Nat) :
    Within rel rel (Os.read fd limit) := by
  have course := patient.course
  refine .bind course (patient.incident .read) fun _ => .bind course (.asks course) fun _ => ?_
  refine .bind course (patient.changes fun _ => .reads limit) fun _ => ?_
  exact .bind course (patient.emits rfl) fun _ => .pure course

theorem look (patient : Patient rel) (c : Control) (timeout : T) :
    Within rel rel (c.look timeout) := by
  have course := patient.course
  refine .bind course (.outcome (patient.poll c.fd timeout)) fun polled => ?_
  split
  · split
    · exact .pure course
    · exact .fails course
  · exact .pure course
  · refine .bind course (.outcome (patient.read c.fd _)) fun arrived => ?_
    split
    · exact .pure course
    · split
      · exact .pure course
      · split
        · exact .pure course
        · exact .fails course

theorem control (patient : Patient rel) (c : Control) (timeout : T) :
    Within rel rel (c.poll timeout) := by
  have course := patient.course
  unfold Control.poll
  split
  · exact .pure course
  · refine .bind course (patient.look c timeout) fun arrival => ?_
    refine .bind course (.forM course ?_) fun _ => .pure course
    exact fun record _ => patient.log record.1 record.2

theorem foregroundTurn (patient : Patient rel) (interval : T) (control : Option Control) :
    Within rel rel (Foreground.turn interval control) := by
  have course := patient.course
  cases control with
  | none => exact .bind course (patient.waitFor .command interval) fun _ => .pure course
  | some c =>
    simp only [Foreground.turn]
    split
    · exact .bind course (patient.waitFor .command interval) fun _ => .pure course
    · exact .bind course (patient.control c interval) fun _ => .pure course

theorem foregroundTurns (patient : Patient rel) {alive : Run T P Bool}
    (asked : Within rel rel alive) (interval : T) (fuel : Nat) (control : Option Control) :
    Within rel rel (Foreground.turns alive interval fuel control) := by
  have course := patient.course
  induction fuel generalizing control with
  | zero => exact .pure course
  | succ fuel ih =>
    refine .bind course asked fun living => ?_
    split
    · exact .pure course
    · refine .bind course (.asks course) fun told => ?_
      split
      · exact .pure course
      · refine .bind course (patient.foregroundTurn interval control) fun turned => ?_
        obtain ⟨control, requested⟩ := turned
        cases requested with
        | true => exact .pure course
        | false => exact ih control

theorem waitForQuit (patient : Patient rel) {alive : Run T P Bool}
    (asked : Within rel rel alive) (checks : Nat) (stdin : Stdin) (interval : T) :
    Within rel rel (Foreground.waitForQuit alive checks stdin interval) := by
  have course := patient.course
  unfold Foreground.waitForQuit
  split
  · exact .fails course
  · exact .bind course (.asks course) fun _ => patient.foregroundTurns asked interval _ _

end Patient
end StreamRelay
