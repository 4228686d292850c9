import StreamRelay.Proofs.Job.Turns
import StreamRelay.Proofs.Relay.Unheard

namespace StreamRelay
open Run
variable {T P : Type} [Clock T] [Resumable T P]

namespace Control
open Bytes (lastLine EndsCommand)
variable {m m' : Machine T P} {c : Control} {past : List Polling} {control : Option Control}

-- Of all that was heard some line is the command, or the stream ended and what was left over is.
def Commanded (command : Bytes) (past : List Polling) : Prop :=
  (∃ place, EndsCommand command (heard past) place) ∨
    (∃ poll ∈ past, poll.found = some (.chunk [])) ∧ Bytes.trim (lastLine (heard past)) = command

theorem commanded_of_answer {fd : Int} {word : String}
    (polled : Polled T P (onDescriptor fd word) past c) (asked : ∃ poll ∈ past, poll.answer = true) :
    Commanded (Bytes.ofText word) past := by
  obtain ⟨poll, there, answer⟩ := asked
  obtain ⟨before, later, cut⟩ := List.append_of_mem there
  have answered := polled_answered polled
  obtain ⟨place, -, ends⟩ | ⟨ended, trims⟩ := (answered.asks before poll later cut).mp answer
  · exact .inl ⟨place, (Answered.reads_iff cut ends.lt).mp ends⟩
  · refine .inr ⟨⟨poll, there, ended⟩, ?_⟩
    rw [answered.heard_past cut ended]
    exact trims

-- Nothing was heard of the console yet, if there is one.
def Unread (word : String) (control : Option Control) : Prop :=
  ∀ c ∈ control, ∃ fd, c = onDescriptor fd word

theorem ofStdin_unread {stdin : Stdin} (had : ofStdin stdin = .ok control) :
    Unread Defaults.quitCommand control := by
  cases stdin with
  | missing =>
    cases had
    exact nofun
  | descriptor fd =>
    cases had
    exact fun _ same => ⟨fd, (Option.some.inj same).symm⟩
  | bare reason =>
    simp only [ofStdin] at had
    split at had
    · cases had
      exact nofun
    · cases had

-- What a channel lets through: neither an error of the system nor a bad value where it waits, and no
-- error of the system where it reads.
inductive Stray (fd : Int) (timeout : T) (m : Machine T P) (f : Failure) (m' : Machine T P) : Prop where
  | waiting (failed : Os.poll fd timeout m = .error f m') (os : f.isOs = false)
    (value : f.isValue = false) : Stray fd timeout m f m'
  | reading {ready : Machine T P} (there : Os.poll fd timeout m = .ok true ready)
    (failed : Os.read fd Defaults.consoleReadSize ready = .error f m') (os : f.isOs = false) :
    Stray fd timeout m f m'

theorem look_ends (c : Control) (timeout : T) : Ends (c.look timeout) m (fun _ _ => True)
    fun f m' => Stray c.fd timeout m f m' := by
  simp only [look, ends_bind, ends_outcome]
  apply Ends.ran.imp
  · intro there ready polled
    cases there with
    | false => trivial
    | true =>
      simp only [ends_bind, ends_outcome]
      apply Ends.ran.imp
      · exact fun _ _ _ => trivial
      · intro f m' failed
        split
        · trivial
        · split
          · trivial
          · rename_i os
            exact .reading polled failed (Bool.eq_false_iff.mpr os)
  · intro f m' failed
    split
    · trivial
    · rename_i known
      obtain ⟨os, value⟩ := Bool.or_eq_false_iff.mp (Bool.eq_false_iff.mpr known)
      exact .waiting failed os value

theorem poll_stray {timeout : T} {f : Failure} (failed : c.poll timeout m = .error f m') :
    Stray c.fd timeout m f m' := by
  cases closed : c.closed with
  | true => cases (poll_closed closed).symm.trans failed
  | false =>
    cases saw : c.look timeout m with
    | ok arrival seen =>
      obtain ⟨m'', polled, -⟩ := poll_open closed saw
      cases polled.symm.trans failed
    | error g seen =>
      have polled : c.poll timeout m = .error g seen := by
        simp [poll, closed, Bind.bind, EStateM.bind, saw]
      cases polled.symm.trans failed
      exact (look_ends c timeout).of_error saw

end Control

open Control

-- The relay leaves its loop at the wish of the console only where the command was heard.
theorem Relay.Ran.commanded {m : Machine T (Relay T)} {past : List Polling} {word : String}
    (ran : Relay.Ran m past .asked) (unread : Unread word m.prog.control) :
    Commanded (Bytes.ofText word) past := by
  obtain ⟨⟨first, left, -, same, listens, -, -⟩, -⟩ := ran
  rw [← same] at unread
  cases held : first.prog.control with
  | none => exact absurd rfl (listens.without held)
  | some c =>
    obtain ⟨fd, rfl⟩ := unread c held
    obtain ⟨c', polled, asked⟩ := listens.polled held .none
    exact commanded_of_answer polled (asked rfl)

namespace Foreground

theorem Attended.commanded {alive : Run T P Bool} {checks : Nat} {stdin : Stdin} {interval : T}
    {m : Machine T P} {past : List Polling}
    (attended : Attended alive checks stdin interval m past .asked) :
    Commanded (Bytes.ofText Defaults.quitCommand) past := by
  obtain ⟨control, n, last, had, rounds, -, -⟩ := attended
  cases control with
  | none => exact absurd rfl (rounds.without rfl)
  | some c =>
    obtain ⟨fd, rfl⟩ := ofStdin_unread had c rfl
    obtain ⟨c', polled, asked⟩ := rounds.heard rfl .none
    exact commanded_of_answer polled (asked rfl)

end Foreground

-- What the loss of the console comes to, in the relay and in a command beside its worker.
structure Harmless (T P : Type) [Clock T] [Resumable T P] : Prop where
  relay : ∀ c : Control, c.closed = true → ∀ left : Run T (Relay T) Unit, Relay.Rest left →
    Twins (Abreast (Relay.Unheard (some c))) left left
  foreground : ∀ c : Control, c.closed = true → ∀ (alive : Run T P Bool) interval fuel,
    Foreground.turns alive interval fuel (some c) = Foreground.turns alive interval fuel none
  lost : ∀ console, Foreground.Lost console → ∀ interval : T,
    Foreground.turn (P := P) interval console = do
      Os.waitFor .command interval
      return (console, false)
  runs : ∀ m : Machine T (Relay T), ∃ past exit, Relay.Ran m past exit
  -- A relay whose console did not ask for the end is told to stop, or fails; or what happens is over and
  -- nobody has told it.
  runsOn : ∀ (m : Machine T (Relay T)) word past exit, Unread word m.prog.control →
    Relay.Ran m past exit → ¬Commanded (Bytes.ofText word) past →
      exit = .told ∨ (∃ f, exit = .failed f) ∨ exit = .spent ∧ ¬m.host.Heard
  waits : ∀ (alive : Run T P Bool) checks stdin interval m control, ofStdin stdin = .ok control →
    ∃ past exit, Foreground.Attended alive checks stdin interval m past exit
  waitsOn : ∀ (alive : Run T P Bool) checks stdin interval m past exit,
    Foreground.Attended alive checks stdin interval m past exit →
      ¬Commanded (Bytes.ofText Defaults.quitCommand) past →
        exit = .ended ∨ exit = .told ∨ (∃ f, exit = .failed f) ∨ exit = .waiting
  -- Beside a worker, however its turns fall, a wait is left as soon as all that happens is over.
  leaves : ∀ {W : Type} [Work T W] [Diligent T W] checks stdin interval (m : Machine T (Job T W)) past
    exit, Foreground.Attended Job.isAlive checks stdin interval m past exit →
      Clock.before Clock.zero interval = true →
      m.prog.alive = false ∨ Foreground.Heeded (Work.stopFlag T W) m.host → exit ≠ .waiting
  missing : ofStdin .missing = .ok none
  bare : ∀ reason : Failure, reason.isUnsupported ∨ reason.isOs ∨ reason.isValue →
    ofStdin (.bare reason) = .ok none
  fails : ∀ (c : Control) timeout (m : Machine T P) f m', c.poll timeout m = .error f m' →
    Stray c.fd timeout m f m'

theorem console_loss_harmless : Harmless T P where
  relay _ closed _ rest := rest.twins closed
  foreground c closed alive interval fuel := Foreground.turns_closed closed fuel
  lost console lost interval := Foreground.turn_lost lost
  runs := Relay.run_ran
  runsOn m word past exit unread ran silent := by
    cases exit with
    | told => exact .inl rfl
    | failed f => exact .inr (.inl ⟨f, rfl⟩)
    | asked => exact absurd (ran.commanded unread) silent
    | spent => exact .inr (.inr ⟨rfl, fun heard => ran.reason heard rfl⟩)
  waits alive checks stdin interval m control had := Foreground.waitForQuit_attended had
  waitsOn alive checks stdin interval m past exit attended silent := by
    cases exit with
    | ended => exact .inl rfl
    | told => exact .inr (.inl rfl)
    | failed f => exact .inr (.inr (.inl ⟨f, rfl⟩))
    | waiting => exact .inr (.inr (.inr rfl))
    | asked => exact absurd attended.commanded silent
  leaves checks stdin interval m past exit attended positive heeded :=
    attended.left Job.job_mortal Job.isAlive_probes heeded positive
  missing := rfl
  bare reason known := by
    simp only [ofStdin, Bool.or_eq_true, or_assoc, known, if_true]
  fails c timeout m f m' failed := poll_stray failed

end StreamRelay
