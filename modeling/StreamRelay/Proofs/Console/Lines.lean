import StreamRelay.Control

namespace StreamRelay.Bytes
variable {text more line rest : Bytes} {b : UInt8} {place : Nat} {command : Bytes}

-- What follows the last newline of a text.
def lastLine (text : Bytes) : Bytes := (text.reverse.takeWhile (· ≠ newline)).reverse

-- At that place stands a newline, and the line that it ends trims to the command.
def EndsCommand (command text : Bytes) (place : Nat) : Prop :=
  text[place]? = some newline ∧ trim (lastLine (text.take place)) = command

instance : Decidable (EndsCommand command text place) :=
  inferInstanceAs (Decidable (_ ∧ _))

theorem lastLine_newline : lastLine (text ++ [newline]) = [] := by simp [lastLine]

theorem lastLine_concat (differs : b ≠ newline) :
    lastLine (text ++ [b]) = lastLine text ++ [b] := by
  simp [lastLine, differs]

theorem newline_not_mem_lastLine : newline ∉ lastLine text := by
  intro there
  have kept : (text.reverse.takeWhile (· ≠ newline)).all (· ≠ newline) = true :=
    List.all_takeWhile
  have wrong := List.all_eq_true.mp kept newline (List.mem_reverse.mp there)
  simp at wrong

theorem cutLines_line (unbroken : newline ∉ line) :
    cutLines (line ++ newline :: rest) = (line :: (cutLines rest).1, (cutLines rest).2) := by
  induction line with
  | nil =>
    rw [List.nil_append, cutLines]
    split <;> rename_i cut <;> rw [cut] <;> simp
  | cons b line ih =>
    simp only [List.mem_cons, not_or] at unbroken
    rw [List.cons_append, cutLines, ih unbroken.2]
    simp [Ne.symm unbroken.1]

theorem cutLines_unbroken (unbroken : newline ∉ line) : cutLines line = ([], line) := by
  induction line with
  | nil => rfl
  | cons b line ih =>
    simp only [List.mem_cons, not_or] at unbroken
    rw [cutLines, ih unbroken.2]
    simp [Ne.symm unbroken.1]

-- By induction on the piece: a byte that breaks no line goes over to what is left.
theorem cutLines_rest (text more : Bytes) : (cutLines (lastLine text ++ more)).2 = lastLine (text ++ more) := by
  induction more generalizing text with
  | nil => simp only [List.append_nil, cutLines_unbroken newline_not_mem_lastLine]
  | cons b more ih =>
    rw [List.append_cons text]
    by_cases breaks : b = newline
    · subst breaks
      rw [cutLines_line newline_not_mem_lastLine, ← ih, lastLine_newline]
      rfl
    · rw [List.append_cons, ← lastLine_concat breaks, ih]

theorem endsCommand_append (within : place < text.length) :
    EndsCommand command (text ++ more) place ↔ EndsCommand command text place := by
  rw [EndsCommand, EndsCommand, List.getElem?_append_left within,
    List.take_append_of_le_length (Nat.le_of_lt within)]

theorem EndsCommand.lt (ends : EndsCommand command text place) : place < text.length := by
  obtain ⟨there, -⟩ := ends
  exact (List.getElem?_eq_some_iff.mp there).1

theorem endsCommand_next : EndsCommand command (text ++ b :: more) text.length ↔
    b = newline ∧ trim (lastLine text) = command := by
  simp [EndsCommand]

theorem exists_le_split {p : Nat → Prop} {n : Nat} :
    (∃ place, n ≤ place ∧ p place) ↔ p n ∨ ∃ place, n + 1 ≤ place ∧ p place := by
  constructor
  · intro found
    obtain ⟨place, from', holds⟩ := found
    cases Nat.eq_or_lt_of_le from' with
    | inl same => exact .inl (same ▸ holds)
    | inr later => exact .inr ⟨place, later, holds⟩
  · intro found
    obtain holds | ⟨place, later, holds⟩ := found
    · exact ⟨n, Nat.le_refl n, holds⟩
    · exact ⟨place, Nat.le_of_succ_le later, holds⟩

-- The lines that are found in a piece are those that end in it.
theorem mem_cutLines (text more : Bytes) :
    (∃ line ∈ (cutLines (lastLine text ++ more)).1, trim line = command) ↔
      ∃ place, text.length ≤ place ∧ EndsCommand command (text ++ more) place := by
  induction more generalizing text with
  | nil =>
    rw [List.append_nil, List.append_nil, cutLines_unbroken newline_not_mem_lastLine]
    constructor
    · intro found
      obtain ⟨line, there, -⟩ := found
      exact absurd there List.not_mem_nil
    · intro found
      obtain ⟨place, beyond, ends⟩ := found
      exact absurd ends.lt (Nat.not_lt.mpr beyond)
  | cons b more ih =>
    rw [exists_le_split, endsCommand_next]
    have later := ih (text ++ [b])
    rw [List.length_append, List.length_singleton, ← List.append_cons] at later
    rw [← later]
    by_cases breaks : b = newline
    · subst breaks
      rw [cutLines_line newline_not_mem_lastLine, lastLine_newline]
      simp
    · rw [List.append_cons, ← lastLine_concat breaks]
      simp [breaks]

end StreamRelay.Bytes
