import Mathlib.Data.Nat.Find
import StreamRelay.Proofs.Console.Lines
import StreamRelay.Proofs.Course

namespace StreamRelay.Control
open Bytes (lastLine EndsCommand)

-- One poll: what it saw, none where it did not touch the descriptor, and its answer.
structure Polling where
  found : Option Arrival
  answer : Bool
  deriving DecidableEq

namespace Polling

def data (poll : Polling) : Bytes :=
  match poll.found with
  | some (.chunk data) => data
  | _ => []

-- It saw the end of the stream, or could not wait or read at all.
def ends (poll : Polling) : Bool :=
  match poll.found with
  | some (.chunk []) | some (.pollFailed _) | some (.readFailed _) => true
  | _ => false

end Polling

def heard (past : List Polling) : Bytes := (past.map Polling.data).flatten

section Polled
variable (T P : Type) [Clock T] [Resumable T P]

-- A poll from any machine: between two of them anything may happen to it.
inductive Polls (c : Control) : Polling → Control → Prop
  | looked {timeout : T} {m m' m'' : Machine T P} {arrival : Arrival} {c' : Control}
      {answer : Bool} (closed : c.closed = false) (saw : c.look timeout m = .ok arrival m')
      (polled : c.poll timeout m = .ok (c', answer) m'') : Polls c ⟨some arrival, answer⟩ c'
  | passed {timeout : T} {m m' : Machine T P} {c' : Control} {answer : Bool}
      (closed : c.closed = true) (polled : c.poll timeout m = .ok (c', answer) m') :
      Polls c ⟨none, answer⟩ c'

inductive Polled (first : Control) : List Polling → Control → Prop
  | none : Polled first [] first
  | next {past : List Polling} {c c' : Control} {poll : Polling} :
      Polled first past c → Polls T P c poll c' → Polled first (past ++ [poll]) c'

end Polled

-- After everything heard before, this poll asks for the end.
def Asks (command : Bytes) (before : List Polling) (poll : Polling) : Prop :=
  (∃ place, (heard before).length ≤ place ∧ EndsCommand command (heard before ++ poll.data) place) ∨
    poll.found = some (.chunk []) ∧ Bytes.trim (lastLine (heard before)) = command

-- Of all that is ever heard this poll reads the newline that ends the first such line, or there is
-- none and it reads the end of the stream after an unfinished one.
def AsksFirst (command text : Bytes) (before : List Polling) (poll : Polling) : Prop :=
  (∃ place, EndsCommand command text place ∧ (∀ earlier < place, ¬EndsCommand command text earlier) ∧
    (heard before).length ≤ place ∧ place < (heard before ++ poll.data).length) ∨
  (∀ place, ¬EndsCommand command text place) ∧ poll.found = some (.chunk []) ∧
    Bytes.trim (lastLine text) = command

structure Recognition (T P : Type) [Clock T] [Resumable T P] (command : Bytes)
    (past : List Polling) (c : Control) : Prop where
  pending : c.closed = false → c.pending = lastLine (heard past)
  asks : ∀ before poll later, past = before ++ poll :: later →
    (poll.answer = true ↔ Asks command before poll)
  first : ∀ before poll later, past = before ++ poll :: later →
    ((∀ earlier ∈ before, earlier.answer = false) ∧ poll.answer = true ↔
      AsksFirst command (heard past) before poll)
  untouched : ∀ before poll later, past = before ++ poll :: later →
    (poll.found = none ↔ ∃ earlier ∈ before, earlier.ends = true) ∧
      (poll.found = none → poll.answer = false)
  closed : c.closed = true ↔ ∃ poll ∈ past, poll.ends = true
  ended : c.closed = true → ∀ timeout (m : Machine T P), c.poll timeout m = .ok (c, false) m
  idle : c.closed = false → ∀ timeout (m m' : Machine T P) arrival,
    c.look timeout m = .ok arrival m' → arrival = .nothing ∨ arrival = .wouldBlock →
      c.poll timeout m = .ok (c, false) m'
  answers : c.closed = false → ∀ timeout (m m' : Machine T P) arrival,
    c.look timeout m = .ok arrival m' →
      ∃ answer c' m'', c.poll timeout m = .ok (c', answer) m''

variable {T P : Type} [Clock T] [Resumable T P] {c c' first : Control} {command : Bytes}
  {past before later : List Polling} {poll : Polling}

theorem scan_fst {lines : List Bytes} :
    (scan command lines).1 = true ↔ ∃ line ∈ lines, Bytes.trim line = command := by
  induction lines with
  | nil => simp [scan]
  | cons line rest ih =>
    simp only [List.mem_cons, exists_eq_or_imp, ← ih]
    by_cases same : Bytes.trim line = command
    · simp [scan, same]
    · by_cases nothing : (Bytes.trim line).isEmpty = true
      · simp [scan, same, nothing]
      · simp [scan, same, nothing]

omit [Clock T] [Resumable T P] in
theorem logs_ok (records : List (Level × String)) {m : Machine T P} :
    ∃ m', (records.forM fun (level, text) => Os.log level text : Run T P PUnit) m = .ok ⟨⟩ m' := by
  induction records generalizing m with
  | nil => exact ⟨m, rfl⟩
  | cons record rest ih =>
    exact ih (m := Run.after (Os.log record.1 record.2) m)

theorem poll_closed {timeout : T} {m : Machine T P} (closed : c.closed = true) :
    c.poll timeout m = .ok (c, false) m := by
  unfold poll
  rw [if_pos closed]
  rfl

theorem poll_open {timeout : T} {m m' : Machine T P} {arrival : Arrival}
    (closed : c.closed = false) (saw : c.look timeout m = .ok arrival m') :
    ∃ m'', c.poll timeout m =
      .ok ((c.observe arrival).control, (c.observe arrival).requested) m'' ∧
      ((c.observe arrival).records = [] → m'' = m') := by
  obtain ⟨m'', logged⟩ := logs_ok (c.observe arrival).records (m := m')
  refine ⟨m'', ?_, ?_⟩
  · unfold poll
    rw [closed, if_neg Bool.false_ne_true]
    simp only [bind, EStateM.bind, saw]
    rw [logged]
    rfl
  · intro none
    rw [none] at logged
    cases logged
    rfl

theorem Polls.cases (polls : Polls T P c poll c') :
    (c.closed = true ∧ poll = ⟨none, false⟩ ∧ c' = c) ∨ (c.closed = false ∧ ∃ arrival,
      poll = ⟨some arrival, (c.observe arrival).requested⟩ ∧ c' = (c.observe arrival).control) := by
  cases polls with
  | looked closed saw polled =>
    obtain ⟨m'', ran, -⟩ := poll_open closed saw
    cases ran.symm.trans polled
    exact .inr ⟨closed, _, rfl, rfl⟩
  | passed closed polled =>
    cases (poll_closed closed).symm.trans polled
    exact .inl ⟨closed, rfl, rfl⟩

structure Listening (command : Bytes) (past : List Polling) (c : Control) : Prop where
  command : c.command = command
  pending : c.closed = false → c.pending = lastLine (heard past)
  closed : c.closed = true ↔ ∃ poll ∈ past, poll.ends = true

theorem heard_around :
    heard (before ++ poll :: later) = heard before ++ poll.data ++ heard later := by
  simp [heard]

theorem heard_concat : heard (past ++ [poll]) = heard past ++ poll.data := by simp [heard]

theorem ended_concat : (∃ one ∈ past ++ [poll], one.ends = true) ↔
    (∃ one ∈ past, one.ends = true) ∨ poll.ends = true := by
  simp [or_and_right, exists_or]

theorem listening_next (listening : Listening command past c) (polls : Polls T P c poll c') :
    Listening command (past ++ [poll]) c' := by
  obtain ⟨named, kept, known⟩ := listening
  obtain ⟨closed, rfl, rfl⟩ | ⟨closed, arrival, rfl, rfl⟩ := polls.cases
  · refine ⟨named, fun wrong => absurd closed (by simp [wrong]), ?_⟩
    rw [ended_concat, ← known]
    simp [closed]
  · cases arrival with
    | nothing | wouldBlock =>
      refine ⟨named, fun _ => ?_, ?_⟩
      · simpa [heard_concat, Polling.data, observe] using kept closed
      · rw [ended_concat, ← known]
        simp [observe, closed, Polling.ends]
    | pollFailed cause | readFailed cause =>
      refine ⟨named, fun wrong => by simp [observe] at wrong, ?_⟩
      rw [ended_concat]
      simp [observe, Polling.ends]
    | chunk data =>
      cases data with
      | nil =>
        refine ⟨named, fun wrong => by simp [observe] at wrong, ?_⟩
        rw [ended_concat]
        simp [observe, Polling.ends]
      | cons b more =>
        refine ⟨named, fun _ => ?_, ?_⟩
        · simp only [observe, heard_concat, Polling.data, kept closed, Bytes.cutLines_rest]
        · rw [ended_concat, ← known]
          simp [observe, closed, Polling.ends]

theorem asks_silent (silent : poll.data = []) : Asks command past poll ↔
    poll.found = some (.chunk []) ∧ Bytes.trim (lastLine (heard past)) = command := by
  refine ⟨fun asks => ?_, .inr⟩
  obtain ⟨place, beyond, ends⟩ | ended := asks
  · rw [silent, List.append_nil] at ends
    exact absurd ends.lt (Nat.not_lt.mpr beyond)
  · exact ended

theorem listening_asks (listening : Listening command past c) (polls : Polls T P c poll c') :
    poll.answer = true ↔ Asks command past poll := by
  obtain ⟨named, kept, known⟩ := listening
  obtain ⟨closed, rfl, rfl⟩ | ⟨closed, arrival, rfl, rfl⟩ := polls.cases
  · rw [asks_silent rfl]
    simp
  · cases arrival with
    | nothing | wouldBlock | pollFailed cause | readFailed cause =>
      rw [asks_silent rfl]
      simp [observe]
    | chunk data =>
      cases data with
      | nil =>
        rw [asks_silent rfl]
        simp [observe, scan_fst, kept closed, named]
      | cons b more =>
        simp only [Asks, Polling.data, observe, scan_fst, kept closed, named, Bytes.mem_cutLines]
        simp

theorem listening_untouched (listening : Listening command past c) (polls : Polls T P c poll c') :
    poll.found = none ↔ ∃ earlier ∈ past, earlier.ends = true := by
  rw [← listening.closed]
  obtain ⟨closed, rfl, -⟩ | ⟨closed, arrival, rfl, -⟩ := polls.cases
  · simp [closed]
  · simp [closed]

theorem polled_listening {fd : Int} {word : String}
    (polled : Polled T P (onDescriptor fd word) past c) :
    Listening (Bytes.ofText word) past c := by
  induction polled with
  | none => exact ⟨rfl, fun _ => rfl, by simp [onDescriptor]⟩
  | next _ polls ih => exact listening_next ih polls

-- Each poll was made of the channel that the polls before it left.
theorem Polled.at (polled : Polled T P first past c) (cut : past = before ++ poll :: later) :
    ∃ c c', Polled T P first before c ∧ Polls T P c poll c' := by
  induction polled generalizing later with
  | none => simp at cut
  | next earlier polls ih =>
    obtain rfl | ⟨rest, last, rfl⟩ := List.eq_nil_or_concat later
    · obtain ⟨rfl, same⟩ := List.append_inj' cut rfl
      cases same
      exact ⟨_, _, earlier, polls⟩
    · rw [List.concat_eq_append, ← List.cons_append, ← List.append_assoc] at cut
      exact ih (List.append_inj' cut rfl).1

structure Answered (command : Bytes) (past : List Polling) : Prop where
  asks : ∀ before poll later, past = before ++ poll :: later →
    (poll.answer = true ↔ Asks command before poll)
  untouched : ∀ before poll later, past = before ++ poll :: later →
    (poll.found = none ↔ ∃ earlier ∈ before, earlier.ends = true)

theorem polled_answered {fd : Int} {word : String}
    (polled : Polled T P (onDescriptor fd word) past c) : Answered (Bytes.ofText word) past := by
  constructor
  · intro before poll later cut
    obtain ⟨c, c', earlier, polls⟩ := polled.at cut
    exact listening_asks (polled_listening earlier) polls
  · intro before poll later cut
    obtain ⟨c, c', earlier, polls⟩ := polled.at cut
    exact listening_untouched (polled_listening earlier) polls

-- Each byte that was ever heard was read by one poll.
theorem heard_at {place : Nat} (within : place < (heard past).length) :
    ∃ before poll later, past = before ++ poll :: later ∧ (heard before).length ≤ place ∧
      place < (heard before ++ poll.data).length := by
  induction past generalizing place with
  | nil => simp [heard] at within
  | cons one rest ih =>
    by_cases early : place < one.data.length
    · exact ⟨[], one, rest, rfl, Nat.zero_le _, early⟩
    · have split : heard (one :: rest) = one.data ++ heard rest := rfl
      rw [split, List.length_append] at within
      have rest : place - one.data.length < (heard rest).length := by omega
      obtain ⟨before, poll, later, rfl, from', upto⟩ := ih rest
      have grown : heard (one :: before) = one.data ++ heard before := rfl
      simp only [List.length_append] at upto
      refine ⟨one :: before, poll, later, rfl, ?_, ?_⟩
      · rw [grown, List.length_append]
        omega
      · simp only [grown, List.length_append]
        omega

namespace Answered

-- Of a place in what a poll read, all that is ever heard says the same.
theorem reads_iff {place : Nat} (cut : past = before ++ poll :: later)
    (upto : place < (heard before ++ poll.data).length) :
    EndsCommand command (heard before ++ poll.data) place ↔ EndsCommand command (heard past) place := by
  rw [cut, heard_around, Bytes.endsCommand_append upto]

-- If such a line ended in what was read before, a poll before asked for the end.
theorem asked_of_place {place : Nat} (answered : Answered command past)
    (cut : past = before ++ later) (ends : EndsCommand command (heard past) place)
    (within : place < (heard before).length) : ∃ earlier ∈ before, earlier.answer = true := by
  obtain ⟨sooner, earlier, between, rfl, from', upto⟩ := heard_at within
  rw [List.append_assoc, List.cons_append] at cut
  refine ⟨earlier, by simp, ?_⟩
  rw [answered.asks sooner earlier _ cut]
  exact .inl ⟨place, from', (reads_iff cut upto).mpr ends⟩

theorem heard_ended (answered : Answered command past) (cut : past = before ++ poll :: later)
    (ends : poll.ends = true) : heard later = [] := by
  simp only [heard, List.flatten_eq_nil_iff, List.forall_mem_map]
  intro one there
  obtain ⟨between, rest, rfl⟩ := List.append_of_mem there
  have apart : past = (before ++ poll :: between) ++ one :: rest := by simp [cut]
  have untouched := (answered.untouched _ one rest apart).mpr ⟨poll, by simp, ends⟩
  simp [Polling.data, untouched]

theorem heard_past (answered : Answered command past) (cut : past = before ++ poll :: later)
    (ended : poll.found = some (.chunk [])) : heard past = heard before := by
  have silent : poll.data = [] := by simp [Polling.data, ended]
  rw [cut, heard_around, silent, answered.heard_ended cut (by simp [Polling.ends, ended])]
  simp

-- No poll before it asked for the end: the place would be an earlier one, or the stream was over.
theorem quiet_before (answered : Answered command past) (cut : past = before ++ poll :: later)
    (first : AsksFirst command (heard past) before poll) :
    ∀ earlier ∈ before, earlier.answer = false := by
  intro earlier there
  obtain ⟨sooner, between, rfl⟩ := List.append_of_mem there
  have apart : past = sooner ++ earlier :: (between ++ poll :: later) := by simp [cut]
  rw [← Bool.not_eq_true, answered.asks sooner earlier _ apart]
  rintro (⟨place, -, ends⟩ | ⟨ended, -⟩)
  · have upto := ends.lt
    rw [reads_iff apart upto] at ends
    obtain ⟨least, -, lowest, from', -⟩ | ⟨never, -, -⟩ := first
    · rw [heard_around, List.length_append] at from'
      exact lowest place (by omega) ends
    · exact never place ends
  · have untouched := (answered.untouched _ poll later cut).mpr
      ⟨earlier, there, by simp [Polling.ends, ended]⟩
    obtain ⟨least, -, -, from', upto⟩ | ⟨-, wrong, -⟩ := first
    · have silent : poll.data = [] := by simp [Polling.data, untouched]
      rw [silent, List.append_nil] at upto
      exact absurd from' (Nat.not_le.mpr upto)
    · rw [untouched] at wrong
      cases wrong

theorem asksFirst_iff (answered : Answered command past) (cut : past = before ++ poll :: later) :
    (∀ earlier ∈ before, earlier.answer = false) ∧ poll.answer = true ↔
      AsksFirst command (heard past) before poll := by
  constructor
  · rintro ⟨quiet, asked⟩
    have beyond : ∀ place, EndsCommand command (heard past) place →
        (heard before).length ≤ place := by
      intro place ends
      refine Nat.not_lt.mp fun within => ?_
      obtain ⟨earlier, there, wrong⟩ := answered.asked_of_place cut ends within
      rw [quiet earlier there] at wrong
      cases wrong
    rw [answered.asks before poll later cut] at asked
    obtain ⟨place, -, ends⟩ | ⟨ended, trims⟩ := asked
    · have upto := ends.lt
      rw [reads_iff cut upto] at ends
      have found : ∃ place, EndsCommand command (heard past) place := ⟨place, ends⟩
      refine .inl ⟨Nat.find found, Nat.find_spec found, fun _ => Nat.find_min found, ?_, ?_⟩
      · exact beyond _ (Nat.find_spec found)
      · exact Nat.lt_of_le_of_lt (Nat.find_le ends) upto
    · have all := answered.heard_past cut ended
      refine .inr ⟨fun place ends => ?_, ended, all ▸ trims⟩
      have upto := ends.lt
      rw [all] at upto
      exact absurd (beyond place ends) (Nat.not_le.mpr upto)
  · intro first
    refine ⟨answered.quiet_before cut first, ?_⟩
    rw [answered.asks before poll later cut]
    obtain ⟨least, ends, -, from', upto⟩ | ⟨-, ended, trims⟩ := first
    · exact .inl ⟨least, from', (reads_iff cut upto).mpr ends⟩
    · rw [answered.heard_past cut ended] at trims
      exact .inr ⟨ended, trims⟩

end Answered

-- Whatever pieces the stream is read in, and whatever comes between them.
theorem onDescriptor_recognizes {fd : Int} {word : String}
    (polled : Polled T P (onDescriptor fd word) past c) :
    Recognition T P (Bytes.ofText word) past c := by
  have listening := polled_listening polled
  have answered := polled_answered polled
  refine ⟨listening.pending, answered.asks, fun _ _ _ => answered.asksFirst_iff, ?_,
    listening.closed, fun closed _ _ => poll_closed closed, ?_, ?_⟩
  · intro before poll later cut
    refine ⟨answered.untouched before poll later cut, fun untouched => ?_⟩
    have silent : poll.data = [] := by simp [Polling.data, untouched]
    rw [← Bool.not_eq_true, answered.asks before poll later cut, asks_silent silent, untouched]
    simp
  · intro closed timeout m m' arrival saw silent
    obtain ⟨m'', ran, unlogged⟩ := poll_open closed saw
    obtain rfl | rfl := silent
    · rw [ran, unlogged rfl]
      rfl
    · rw [ran, unlogged rfl]
      rfl
  · intro closed timeout m m' arrival saw
    obtain ⟨m'', ran, -⟩ := poll_open closed saw
    exact ⟨_, _, m'', ran⟩

def consoleOf (text : Bytes) (ended : Bool) : Machine Int Unit :=
  ⟨{ clock := 0, console := text, consoleEnded := ended }, ()⟩

theorem polls_console (text : Bytes) (ended : Bool) (arrival : Arrival) (answer : Bool)
    (c' : Control) (closed : c.closed = false)
    (saw : ∃ m', c.look (0 : Int) (consoleOf text ended) = .ok arrival m')
    (answers : (c.observe arrival).requested = answer) (leaves : (c.observe arrival).control = c') :
    Polls Int Unit c ⟨some arrival, answer⟩ c' := by
  obtain ⟨m', saw⟩ := saw
  obtain ⟨m'', ran, -⟩ := poll_open closed saw
  rw [answers, leaves] at ran
  exact .looked closed saw ran

-- The command, cut in two and with blanks around it, and then the end of the stream.
def session : List Polling :=
  [⟨some .nothing, false⟩, ⟨some (.chunk [32, 113, 117]), false⟩, ⟨some .nothing, false⟩,
    ⟨some (.chunk [105, 116, 9, 10, 120]), true⟩, ⟨some (.chunk []), false⟩, ⟨none, false⟩]

def sessionEnd : Control := { onDescriptor 0 with closed := true }

theorem polled_session : Polled Int Unit (onDescriptor 0) session sessionEnd := by
  have waited : Polls Int Unit (onDescriptor 0) ⟨some .nothing, false⟩ (onDescriptor 0) :=
    polls_console [] false .nothing false _ rfl ⟨_, rfl⟩ rfl rfl
  have begun : Polls Int Unit (onDescriptor 0) ⟨some (.chunk [32, 113, 117]), false⟩
      { onDescriptor 0 with pending := [32, 113, 117] } :=
    polls_console [32, 113, 117] false _ _ _ rfl ⟨_, rfl⟩ (by decide) (by decide)
  have waiting : Polls Int Unit { onDescriptor 0 with pending := [32, 113, 117] }
      ⟨some .nothing, false⟩ { onDescriptor 0 with pending := [32, 113, 117] } :=
    polls_console [] false .nothing false _ rfl ⟨_, rfl⟩ rfl rfl
  have asked : Polls Int Unit { onDescriptor 0 with pending := [32, 113, 117] }
      ⟨some (.chunk [105, 116, 9, 10, 120]), true⟩ { onDescriptor 0 with pending := [120] } :=
    polls_console [105, 116, 9, 10, 120] false _ _ _ rfl ⟨_, rfl⟩ (by decide) (by decide)
  have ended : Polls Int Unit { onDescriptor 0 with pending := [120] }
      ⟨some (.chunk []), false⟩ sessionEnd :=
    polls_console [] true _ _ _ rfl ⟨_, rfl⟩ (by decide) (by decide)
  have passed : Polls Int Unit sessionEnd ⟨none, false⟩ sessionEnd :=
    .passed rfl (poll_closed rfl : sessionEnd.poll 0 (consoleOf [] true) = _)
  exact .next (.next (.next (.next (.next (.next .none waited) begun) waiting) asked) ended) passed

theorem onDescriptor_recognizes_session :
    Polled Int Unit (onDescriptor 0) session sessionEnd ∧
      Recognition Int Unit (Bytes.ofText Defaults.quitCommand) session sessionEnd :=
  ⟨polled_session, onDescriptor_recognizes polled_session⟩

end StreamRelay.Control
