import StreamRelay.CommandLine.Request
import StreamRelay.Proofs.CommandLine.Readings
import StreamRelay.Proofs.Numeral.Literal

namespace StreamRelay.CommandLine
open Numeral

-- A number in decimal. Numbers of too many digits are not written.
def written? (n : Int) : Option String :=
  if (Nat.digits 10 n.natAbs).length ≤ maxDigits then some (toString n) else none

def ValueError.worded? : ValueError → Option String
  | notPort given => some ("invalid port: " ++ Text.quoted given)
  | portRange n => do return "port out of range: " ++ (← written? n)
  | notNumber given => some ("invalid number: " ++ Text.quoted given)
  | notPositive n => do return "must be positive: " ++ (← written? n)
  | bufferTooLarge n => do
    return "buffer size above the largest UDP payload (" ++ toString Defaults.maxDatagram ++ "): " ++
      (← written? n)

def ValueError.number? : ValueError → Option Int
  | notPort _ | notNumber _ => none
  | portRange n | notPositive n | bufferTooLarge n => some n

theorem ValueError.worded?_eq {e : ValueError}
    (short : ∀ n, e.number? = some n → (Nat.digits 10 n.natAbs).length ≤ maxDigits) :
    e.worded? = some e.message := by
  have writes (n : Int) (shown : e.number? = some n) : written? n = some (toString n) :=
    if_pos (short n shown)
  cases e with
  | notPort | notNumber => rfl
  | portRange n | notPositive n | bufferTooLarge n =>
    simp only [worded?, writes n rfl]
    rfl

-- A reader of numbers takes the literals with a value in its range and refuses every other text with
-- a message.
structure Takes (read : String → Except ValueError Int) (range : Int → Prop) : Prop where
  taken : ∀ given n, read given = .ok n ↔ Literal given n ∧ range n
  answered : ∀ given,
    (∃ n, read given = .ok n) ∨ ∃ e, read given = .error e ∧ e.worded? = some e.message

theorem answered_of_literal {given : String} {answer : Except ValueError Int}
    (origin : ∀ e n, answer = .error e → e.number? = some n → Literal given n) :
    (∃ n, answer = .ok n) ∨ ∃ e, answer = .error e ∧ e.worded? = some e.message := by
  cases answer with
  | ok n => exact .inl ⟨n, rfl⟩
  | error e => exact .inr ⟨e, rfl, ValueError.worded?_eq fun n shown => (origin e n rfl shown).short⟩

theorem port_takes : Takes port fun n => 1 ≤ n ∧ n ≤ 65535 where
  taken given n := by
    rw [← integer?_eq_some_iff, port]
    cases integer? given with
    | none => simp
    | some m =>
      by_cases within : 0 < m ∧ m < 65536
      · simp [within]
        omega
      · simp [within]
        omega
  answered given := by
    apply answered_of_literal
    intro e n refused shown
    rw [port] at refused
    cases number : integer? given with
    | none =>
      rw [number] at refused
      cases refused
      cases shown
    | some m =>
      simp only [number] at refused
      split at refused <;> cases refused
      cases shown
      exact integer?_eq_some_iff.mp number

theorem positive_refused {given : String} {e : ValueError} {n : Int}
    (refused : positive given = .error e) (shown : e.number? = some n) : Literal given n := by
  rw [positive] at refused
  cases number : integer? given with
  | none =>
    rw [number] at refused
    cases refused
    cases shown
  | some m =>
    simp only [number] at refused
    split at refused <;> cases refused
    cases shown
    exact integer?_eq_some_iff.mp number

theorem positive_takes : Takes positive fun n => 1 ≤ n where
  taken given n := by
    rw [← integer?_eq_some_iff, positive]
    cases integer? given with
    | none => simp
    | some m =>
      by_cases low : m ≤ 0
      · simp [low]
        omega
      · simp [low]
        omega
  answered given := answered_of_literal fun _ _ => positive_refused

theorem bufferSize_takes : Takes bufferSize fun n => 1 ≤ n ∧ n ≤ 65507 where
  taken given n := by
    rw [bufferSize, bind_ok_iff]
    constructor
    · intro ⟨m, first, second⟩
      obtain ⟨literal, low⟩ := (positive_takes.taken given m).mp first
      split at second
      case isTrue => cases second
      case isFalse fits =>
        cases second
        exact ⟨literal, low, Int.not_lt.mp fits⟩
    · intro ⟨literal, low, high⟩
      exact ⟨n, (positive_takes.taken given n).mpr ⟨literal, low⟩, if_neg (Int.not_lt.mpr high)⟩
  answered given := by
    apply answered_of_literal
    intro e n refused shown
    rw [bufferSize] at refused
    cases first : positive given with
    | error e' =>
      rw [first] at refused
      cases refused
      exact positive_refused first shown
    | ok m =>
      rw [first] at refused
      change (if Defaults.maxDatagram < m then _ else _) = _ at refused
      split at refused
      case isTrue =>
        cases refused
        cases shown
        exact ((positive_takes.taken given n).mp first).1
      case isFalse => cases refused

-- The numbers that are read for an argument of a kind.
def Kind.Range : Kind → Int → Prop
  | .port, n => 1 ≤ n ∧ n ≤ 65535
  | .positive, n => 1 ≤ n
  | .bufferSize, n => 1 ≤ n ∧ n ≤ 65507
  | .text, _ | .choice _, _ => False

theorem number_read {answer : Except ValueError Int} {argument : String} {n : Int}
    (read : (answer.map Value.number).mapError (Complaint.badValue argument) = .ok (.number n)) :
    answer = .ok n := by
  have mapped := mapError_ok_iff.mp read
  cases answer with
  | error => cases mapped
  | ok m =>
    cases mapped
    rfl

theorem Kind.Reads.range {kind : Kind} {n : Int} (reads : kind.Reads (.number n)) : kind.Range n := by
  obtain ⟨argument, given, read⟩ := reads
  cases given with
  | nothing => cases read
  | value given =>
  cases kind with
  | text => cases read
  | port => exact ((port_takes.taken given n).mp (number_read read)).2
  | positive => exact ((positive_takes.taken given n).mp (number_read read)).2
  | bufferSize => exact ((bufferSize_takes.taken given n).mp (number_read read)).2
  | choice allowed =>
    simp only [Kind.read, Kind.readText] at read
    split at read <;> cases read

theorem Grammar.Declares.only {g : Grammar} {key : String} {kind kind' : Kind}
    (declared : g.Declares key kind') (switches : ∀ s ∈ g.switches, s.key = key → s.kind = some kind)
    (operands : ∀ o ∈ g.operands, o.name = key → o.kind = kind) : kind' = kind := by
  cases declared with
  | switch listed valued => exact Option.some.inj (valued.symm.trans (switches _ listed rfl))
  | operand listed => exact operands _ listed rfl

theorem Reading.Sound.numberOf {g : Grammar} {r : Reading} {key : String} {kind : Kind}
    (sound : r.Sound g) (only : ∀ kind', g.Declares key kind' → kind' = kind) {standard : Given Int}
    {n : Int} (number : r.numberOf key standard = .value n) : standard = .value n ∨ kind.Range n := by
  unfold Reading.numberOf at number
  split at number
  case h_1 m found =>
    cases number
    obtain ⟨kind', declared, reads⟩ := sound.value? found
    cases only kind' declared
    exact .inr reads.range
  case h_2 => cases number
  case h_3 => exact .inl number

theorem check_ranged {s : Settings} {f : Failure}
    (ranged : ∀ n, s.bufferSize = .value n → Kind.bufferSize.Range n) (refused : s.check = .error f) :
    f = .empty .bufferSize := by
  unfold Settings.check at refused
  split at refused
  case h_1 =>
    cases refused
    rfl
  case h_2 size given =>
    have range := ranged size given
    have fits : 0 < size ∧ size ≤ Defaults.maxDatagram := ⟨Int.lt_of_add_one_le range.1, range.2⟩
    rw [dif_pos fits] at refused
    cases refused

def Grammar.Sized (g : Grammar) : Prop :=
  (∀ s ∈ g.switches, s.key = "--buffer-size" → s.kind = some .bufferSize) ∧
    ∀ o ∈ g.operands, o.name = "--buffer-size" → o.kind = .bufferSize

theorem Grammar.Sized.settings {g : Grammar} (sized : g.Sized) {args : List String} {r : Reading}
    (read : readBy g args = .ok r) {n : Int} (size : r.settings.bufferSize = .value n) :
    Kind.bufferSize.Range n := by
  have sound := scan_sound (mapError_ok_iff.mp read)
  have only (kind : Kind) (declared : g.Declares "--buffer-size" kind) :=
    declared.only sized.1 sized.2
  cases sound.numberOf only size with
  | inl standard =>
    cases standard
    exact ⟨by decide, by decide⟩
  | inr range => exact range

theorem forward_sized : forwarderGrammar.Sized ∧ forwardGrammar.Sized ∧ threadedGrammar.Sized := by
  unfold Grammar.Sized
  decide +kernel

inductive Command.Forwards (s : Settings) : Command → Prop where
  | alone : Command.Forwards s (.forward s)
  | threaded : Command.Forwards s (.forwardThreaded s)

theorem readForwarder_ranged {args : List String} {request : Request} {s : Settings}
    (read : readForwarder args = .ok request) (forwards : request.command.Forwards s) {n : Int}
    (size : s.bufferSize = .value n) : Kind.bufferSize.Range n := by
  obtain ⟨r, first, read⟩ := bind_ok_iff.mp read
  obtain ⟨_, -, read⟩ := bind_ok_iff.mp read
  cases pure_ok_iff.mp read
  cases forwards
  exact forward_sized.1.settings first size

theorem commandOf_forwards {name : String} {r : Reading} {s : Settings}
    (forwards : ((commandOf name).2 r).Forwards s) : (commandOf name).1.Sized ∧ s = r.settings := by
  unfold commandOf at forwards ⊢
  split at forwards
  case isTrue alone =>
    cases forwards
    rw [if_pos alone]
    exact ⟨forward_sized.2.1, rfl⟩
  case isFalse other =>
  rw [if_neg other]
  split at forwards
  case isTrue threaded =>
    cases forwards
    rw [if_pos threaded]
    exact ⟨forward_sized.2.2, rfl⟩
  case isFalse => split at forwards <;> cases forwards

theorem readTool_ranged {args : List String} {request : Request} {s : Settings}
    (read : readTool args = .ok request) (forwards : request.command.Forwards s) {n : Int}
    (size : s.bufferSize = .value n) : Kind.bufferSize.Range n := by
  obtain ⟨whole, -, read⟩ := bind_ok_iff.mp read
  obtain ⟨own, second, read⟩ := bind_ok_iff.mp read
  obtain ⟨_, -, read⟩ := bind_ok_iff.mp read
  cases pure_ok_iff.mp read
  obtain ⟨sized, rfl⟩ := commandOf_forwards forwards
  exact sized.settings second size

-- Numbers are taken just where they are literals in their range, and every refusal has its message.
-- So the size of a buffer that a line gives is never one that the settings refuse.
theorem numbers_exact :
    (Takes port fun n => 1 ≤ n ∧ n ≤ 65535) ∧ (Takes positive fun n => 1 ≤ n) ∧
      (Takes bufferSize fun n => 1 ≤ n ∧ n ≤ 65507) ∧
      ∀ args request s, readTool args = .ok request ∨ readForwarder args = .ok request →
        request.command.Forwards s → ∀ f, s.check = .error f →
          f = .empty .bufferSize ∧ f.isValue = false := by
  refine ⟨port_takes, positive_takes, bufferSize_takes, ?_⟩
  intro args request s read forwards f refused
  have ranged (n : Int) (size : s.bufferSize = .value n) : Kind.bufferSize.Range n := by
    cases read with
    | inl tool => exact readTool_ranged tool forwards size
    | inr forwarder => exact readForwarder_ranged forwarder forwards size
  cases check_ranged ranged refused
  exact ⟨rfl, rfl⟩

end StreamRelay.CommandLine
