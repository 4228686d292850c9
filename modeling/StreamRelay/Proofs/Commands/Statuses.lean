import StreamRelay.Proofs.Commands.Jobs
import StreamRelay.Proofs.Crew.Diligence
import StreamRelay.Proofs.Recorder.Places

namespace StreamRelay.Commands
variable {T P Q α : Type}
open Run

theorem ends_hosting {q : Q} {act : Run T Q α} {m : Machine T P} {done : α → Machine T P → Prop}
    {failed : Failure → Machine T P → Prop} :
    Ends (hosting q act) m done failed ↔
      Ends act ⟨m.host, q⟩ (fun a n => done a ⟨n.host, m.prog⟩)
        fun f n => failed f ⟨n.host, m.prog⟩ := by
  unfold Ends hosting
  cases act ⟨m.host, q⟩ <;> rfl

variable [Clock T]

-- The steps a command takes beside its worker, and the events of the surroundings meanwhile.
inductive Beside : Host T → Host T → Prop where
  | refl (h) : Beside h h
  | trans {a b c} : Beside a b → Beside b c → Beside a c
  | happens (h action) : Beside h (h.apply action)
  | takes (h faults batches) : Beside h { h with faults, batches }
  | stirs {h h'} (stirs : Stirs h h') : Beside h h'
  | handles (h s flag) : Beside h (h.setHandler s flag)
  | raises (h flag) : Beside h (h.raise flag)
  | replans {h h'} (replans : Job.Replans h h') : Beside h h'
  | prints (h stdout) : Beside h { h with stdout }
  | threads (h n) : Beside h { h with threads := n }
  | closes (h id) : Beside h (h.shut id)
  | closesFile (h) : Beside h { h.emit .fileClosed with fileOpen := false }

theorem beside_around : Around (T := T) Beside where
  refl := .refl
  trans := .trans
  faults h rest := .takes h rest h.batches
  batches h rest := .takes h h.faults rest
  apply := .happens
  stirs := .stirs
  raises := .raises
  replans := .replans

theorem Beside.seen {h h' : Host T} (beside : Beside h h') : Host.Seen h h' := by
  induction beside with
  | refl | takes | prints | threads => exact Host.seen_same rfl
  | handles h s flag => cases s <;> exact Host.seen_same rfl
  | trans _ _ one two => exact one.trans two
  | happens h action => exact Host.calm_seen.apply h action
  | stirs stirs =>
    cases stirs with
    | passes | reads | writes => exact Host.seen_same rfl
    | tells e => exact Host.seen_emit _ e
  | raises h flag => exact Host.seen_raise h flag
  | replans replans =>
    cases replans
    exact Host.seen_same rfl
  | closes h id => exact (Host.worn_shut h id).seen
  | closesFile h => exact Host.seen_emit h .fileClosed

-- What the threads died of that did not return, newest first.
def deaths {T : Type} (h : Host T) : List Failure :=
  h.trace.filterMap fun stamped =>
    match stamped.event with
    | .threadDied _ f => some f
    | _ => none

omit [Clock T] in
theorem mem_deaths {h : Host T} {f : Failure} :
    f ∈ deaths h ↔ ∃ s ∈ h.trace, ∃ thread, s.event = .threadDied thread f := by
  simp only [deaths, List.mem_filterMap]
  refine exists_congr fun s => and_congr_right fun _ => ?_
  cases s.event <;> simp

-- The status a command ends with, and what stands behind it.
inductive Concluded {W : Type} [Work T W] (made : W → Host T → Prop)
    (refused : String → Host T → Prop) : Int → Host T → Prop where
  | refused {line h} (why : refused line h) :
      Concluded made refused 1 { h with stderr := h.stderr ++ ("error: " ++ line) ++ "\n" }
  | worked {work thread cut h h'} (set : made work h)
      (worked : Job.Worked Beside ⟨work, thread, none⟩ cut h h')
      (noted : ∀ f, cut = some f → f ∈ deaths h') : Concluded made refused 0 h'

def CrewMade (s : Settings) (m : Machine T Unit) (crew : Crew T) (h : Host T) : Prop :=
  ∃ config, s.check = .ok config ∧ Crew.create config none m = .ok crew ⟨h, ()⟩

def CrewRefused (s : Settings) (m : Machine T Unit) (line : String) (h : Host T) : Prop :=
  ∃ config f, s.check = .ok config ∧ Crew.create config none m = .error f ⟨h, ()⟩ ∧
    f.isSetup = true ∧ line = f.message

inductive RecorderMade (address : Address) (file : Given String) (m : Machine T Unit) :
    Recorder → Host T → Prop where
  | intro {sock bound h}
      (bind : Endpoint.receiving address (Clock.millis Defaults.receiveMillis) m = .ok sock bound)
      (opening : Os.openFile file bound = .ok () ⟨h, ()⟩) : RecorderMade address file m { sock } h

inductive RecorderRefused (address : Address) (file : Given String) (m : Machine T Unit) :
    String → Host T → Prop where
  | binding {f h}
      (bind : Endpoint.receiving address (Clock.millis Defaults.receiveMillis) m = .error f ⟨h, ()⟩)
      (named : f.isSetup = true) : RecorderRefused address file m f.message h
  | opening {sock bound f h}
      (bind : Endpoint.receiving address (Clock.millis Defaults.receiveMillis) m = .ok sock bound)
      (opening : Os.openFile file bound = .error f ⟨h, ()⟩) (refused : f.isOs = true) :
      RecorderRefused address file m ("open " ++ file.text ++ ": " ++ f.message) (h.shut sock)

section Parts
variable {m : Machine T P}

omit [Clock T] in
theorem checked_ends (s : Settings) :
    Ends (checked s) m (fun config m' => s.check = .ok config ∧ m' = m) fun _ m' => m' = m := by
  cases verdict : s.check with
  | ok config => simp [Ends, checked, verdict]
  | error f => simp [Ends, checked, verdict]

variable [Resumable T P] {done : Int → Machine T P → Prop} {fell : Failure → Machine T P → Prop}

omit [Clock T] in
theorem ends_failed {line : String} :
    Ends (failed line) m done fell ↔
      done 1 ⟨{ m.host with stderr := m.host.stderr ++ ("error: " ++ line) ++ "\n" }, m.prog⟩ :=
  Iff.rfl

theorem announce_ends (address : Address) (s : Settings) :
    Ends (announce address s) m (fun _ m' => Hosted Beside m m') fun _ _ => False :=
  ⟨.trans (.prints m.host _) (.prints _ _), rfl⟩

end Parts

section Conclusions
variable {m : Machine T Unit} {W : Type} [Work T W]

theorem newThread_ends {m : Machine T P} :
    Ends Os.newThread m (fun _ m' => Hosted Beside m m') fun _ _ => False :=
  ⟨.threads m.host _, rfl⟩

theorem concluded_of_worked [Diligent T W] {made : W → Host T → Prop}
    {refused : String → Host T → Prop} {work : W} {thread : Nat} {cut : Option Failure}
    {h h' : Host T} (set : made work h)
    (worked : Job.Worked Beside ⟨work, thread, none⟩ cut h h') : Concluded made refused 0 h' :=
  .worked set worked fun _ died => mem_deaths.mpr (worked.noted Beside.seen died)

theorem forwardThreaded_concludes (stdin : Stdin) (s : Settings) :
    Ends (forwardThreaded stdin s) m
      (fun status m' => Concluded (CrewMade s m) (CrewRefused s m) status m'.host)
      fun _ _ => True := by
  rw [forwardThreaded, ends_bind]
  apply (checked_ends s).well
  intro config _ valid
  obtain ⟨valid, rfl⟩ := valid
  rw [ends_bind, ends_outcome]
  apply Ends.ran.imp
  · intro crew made ran
    rw [ends_bind]
    apply (announce_ends crew.address s).imp
    · intro _ shown first
      rw [ends_bind]
      apply newThread_ends.imp
      · intro thread numbered second
        rw [ends_bind, ends_hosting]
        apply (Job.outside_worked beside_around .handles rfl stdin rfl).well
        intro _ m' worked
        obtain ⟨cut, worked⟩ := worked
        exact concluded_of_worked ⟨config, valid, ran⟩
          (worked.after beside_around (first.1.trans second.1))
      · exact fun _ _ _ => trivial
    · exact fun _ _ _ => trivial
  · intro f h ran
    dsimp only
    split
    · rename_i named
      rw [ends_failed]
      exact .refused ⟨config, f, valid, ran, named, rfl⟩
    · trivial

theorem logServer_concludes (stdin : Stdin) (address : Address) (file : Given String) :
    Ends (logServer stdin address file) m
      (fun status m' => Concluded (RecorderMade address file m) (RecorderRefused address file m)
        status m'.host)
      fun _ _ => True := by
  rw [logServer, ends_bind, ends_outcome]
  apply Ends.ran.imp
  · intro sock bound bind
    rw [ends_bind, ends_outcome]
    apply Ends.ran.imp
    · intro _ opened opening
      simp only [Os.print, ends_bind, ends_changes]
      apply newThread_ends.imp
      · intro thread numbered path
        simp only [ends_hosting, ends_ensuring, ends_close, Os.closeFile, ends_emits, ends_changes,
          ends_bind, ends_pure]
        apply (Job.inside_worked beside_around .handles rfl stdin rfl).imp
        · intro _ m' worked
          obtain ⟨cut, worked⟩ := worked
          have closed := worked.along (.trans (.closes _ sock) (.closesFile _))
          have path' : Beside opened.host numbered.host := .trans (.prints _ _) path.1
          exact concluded_of_worked (.intro bind opening)
            ((closed.after beside_around path').along (.prints _ _))
        · exact fun _ _ _ => trivial
      · exact fun _ _ _ => trivial
    · intro f fallen opening
      dsimp only
      split
      · rename_i refused
        rw [ends_bind, ends_close, ends_failed]
        exact .refused (.opening bind opening refused)
      · trivial
  · intro f h bind
    dsimp only
    split
    · rename_i named
      rw [ends_failed]
      exact .refused (.binding bind named)
    · trivial

-- However the worker ends, and whatever happens meanwhile.
theorem commands_conclude (m : Machine T Unit) (stdin : Stdin) (s : Settings) (address : Address)
    (file : Given String) :
    Ends (forwardThreaded stdin s) m
      (fun status m' => Concluded (CrewMade s m) (CrewRefused s m) status m'.host)
      (fun _ _ => True) ∧
    Ends (logServer stdin address file) m
      (fun status m' => Concluded (RecorderMade address file m) (RecorderRefused address file m)
        status m'.host)
      fun _ _ => True :=
  ⟨forwardThreaded_concludes stdin s, logServer_concludes stdin address file⟩

end Conclusions

-- A datagram comes, and there is no room on the disk for it.
def fullDisk : Machine Int Unit where
  host := {
    clock := 0, ending := .terminates, batches := [{ actions := [.datagram [97]] }]
    faults := [(.write, .incident [] (some (.os (.ofNumber 28 "No space left on device"))))] }
  prog := ()

-- A client comes, and its socket refuses the timeout that the listener took.
def oddClient : Machine Int Unit where
  host := {
    clock := 0, ending := .terminates, batches := [{ actions := [.connect {}] }]
    faults := [(.setTimeout, .pass),
      (.setTimeout, .incident [] (some (.os (.ofNumber 22 "Invalid argument"))))] }
  prog := ()

def plainSettings : Settings where
  listenPort := (9000 : Int)
  udpHost := "127.0.0.1"
  udpPort := (5140 : Int)

def overlooked (act : Run Int Unit Int) (m : Machine Int Unit) : Bool :=
  match act m with
  | .ok status m' => status = 0 && !(deaths m'.host).isEmpty
  | .error _ _ => false

theorem never_overlooked {act : Run Int Unit Int}
    (reported : ∀ m, deaths m.host = [] →
      Ends act m (fun status m' => status = 0 → deaths m'.host = []) fun _ _ => True)
    (m : Machine Int Unit) (unharmed : deaths m.host = []) : overlooked act m = false := by
  have ends := reported m unharmed
  unfold Ends at ends
  unfold overlooked
  cases ran : act m with
  | ok status m' =>
    simp only [ran] at ends
    simp only [Bool.and_eq_false_imp, decide_eq_true_eq, Bool.not_eq_false', List.isEmpty_iff]
    exact ends
  | error f m' => rfl

theorem deaths_overlooked :
    (¬∀ (m : Machine Int Unit) (stdin : Stdin) (address : Address) (file : Given String),
      deaths m.host = [] → Ends (logServer stdin address file) m
        (fun status m' => status = 0 → deaths m'.host = []) fun _ _ => True) ∧
    ¬∀ (m : Machine Int Unit) (stdin : Stdin) (s : Settings),
      deaths m.host = [] → Ends (forwardThreaded stdin s) m
        (fun status m' => status = 0 → deaths m'.host = []) fun _ _ => True := by
  constructor
  · intro reported
    have left : overlooked (logServer .missing ⟨"0.0.0.0", (9000 : Int)⟩ (.value "out.log"))
        fullDisk = true := by decide +kernel
    have told := never_overlooked
      (fun m => reported m .missing ⟨"0.0.0.0", (9000 : Int)⟩ (.value "out.log")) fullDisk
      (by decide +kernel)
    exact Bool.false_ne_true (told.symm.trans left)
  · intro reported
    have left : overlooked (forwardThreaded .missing plainSettings) oddClient = true := by
      decide +kernel
    have told := never_overlooked (fun m => reported m .missing plainSettings) oddClient
      (by decide +kernel)
    exact Bool.false_ne_true (told.symm.trans left)

end StreamRelay.Commands
