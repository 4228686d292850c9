import StreamRelay.CommandLine.Scan

namespace StreamRelay.CommandLine
variable {ε δ α β : Type} {g : Grammar} {r next : Reading} {line rest : Marked}

theorem bind_ok_iff {first : Except ε α} {later : α → Except ε β} {b : β} :
    (first >>= later) = .ok b ↔ ∃ a, first = .ok a ∧ later a = .ok b := by
  cases first <;> simp [Bind.bind, Except.bind]

theorem pure_ok_iff {a b : α} : (pure a : Except ε α) = .ok b ↔ a = b := by
  simp [Pure.pure, Except.pure]

theorem mapError_ok_iff {first : Except ε α} {why : ε → δ} {a : α} :
    first.mapError why = .ok a ↔ first = .ok a := by
  cases first with
  | error e => exact ⟨nofun, nofun⟩
  | ok b =>
    have kept : (Except.ok b : Except ε α).mapError why = .ok b := rfl
    rw [kept, Except.ok.injEq, Except.ok.injEq]

inductive Grammar.Declares (g : Grammar) : String → Kind → Prop where
  | switch (listed : s ∈ g.switches) (valued : s.kind = some kind) : g.Declares s.key kind
  | operand (listed : o ∈ g.operands) : g.Declares o.name o.kind

def Grammar.Marks (g : Grammar) (line : Marked) : Prop :=
  ∀ arg s name value, (arg, Mark.switch s name value) ∈ line → s ∈ g.switches

theorem Grammar.Marks.part (marked : g.Marks line) (part : rest <:+ line) : g.Marks rest :=
  fun arg s name value member => marked arg s name value (part.mem member)

namespace Grammar

theorem named_listed {name : String} {s : Switch} (member : (name, s) ∈ g.named) : s ∈ g.switches := by
  obtain ⟨s', listed, place⟩ := List.mem_flatMap.mp member
  obtain ⟨_, _, same⟩ := List.mem_map.mp place
  cases same
  exact listed

theorem switch?_listed {name : String} {s : Switch} (found : g.switch? name = some s) :
    s ∈ g.switches := by
  obtain ⟨before, after, parts, -⟩ := List.lookup_eq_some_iff.mp found
  have member : (name, s) ∈ g.named := parts ▸ by simp
  exact named_listed member

theorem candidates_listed {arg : List Char} {name : String} {s : Switch} {value : Option String}
    (member : (name, s, value) ∈ g.candidates arg) : s ∈ g.switches := by
  unfold candidates at member
  split at member
  · obtain ⟨⟨_, _⟩, kept, same⟩ := List.mem_map.mp member
    cases same
    exact named_listed (List.mem_filter.mp kept).1
  · obtain ⟨⟨_, _⟩, listed, same⟩ := List.mem_filterMap.mp member
    split at same
    · cases same
      exact named_listed listed
    · split at same
      · cases same
        exact named_listed listed
      · cases same

theorem mark_listed {arg name : String} {s : Switch} {value : Option String}
    (marked : g.mark arg = .ok (.switch s name value)) : s ∈ g.switches := by
  simp only [mark] at marked
  split at marked
  case isTrue => cases marked
  case isFalse =>
  cases whole : g.switch? arg with
  | some s' =>
    rw [whole] at marked
    cases marked
    exact switch?_listed whole
  | none =>
    rw [whole] at marked
    simp only at marked
    split at marked
    case isTrue => cases marked
    case isFalse =>
    split at marked
    case h_1 found =>
      cases marked
      exact switch?_listed found
    case h_2 =>
    split at marked
    case h_1 => split at marked <;> cases marked
    case h_2 only =>
      cases marked
      exact candidates_listed (only ▸ List.mem_singleton_self _)
    case h_3 => cases marked

theorem marks_made {args : List String} (made : g.marks args = .ok line) : g.Marks line := by
  induction args generalizing line with
  | nil =>
    cases made
    exact fun _ _ _ _ member => nomatch member
  | cons arg args ih =>
    unfold marks at made
    split at made
    · cases made
      intro _ _ _ _ member
      simp at member
    · obtain ⟨first, marked, made⟩ := bind_ok_iff.mp made
      obtain ⟨later, rest, made⟩ := bind_ok_iff.mp made
      cases pure_ok_iff.mp made
      intro arg' s name value member
      cases member with
      | head => exact mark_listed marked
      | tail _ member => exact ih rest arg' s name value member

end Grammar

def Kind.Reads (kind : Kind) (v : Value) : Prop := ∃ argument given, kind.read argument given = .ok v

namespace Reading

structure Sound (g : Grammar) (r : Reading) : Prop where
  operands : ∀ o ∈ r.operands, o ∈ g.operands
  values : ∀ key v, (key, v) ∈ r.values → ∃ kind, g.Declares key kind ∧ kind.Reads v

theorem Sound.assign (sound : r.Sound g) {key : String} {kind : Kind} {v : Value}
    (declared : g.Declares key kind) (reads : kind.Reads v) : (r.assign key v).Sound g where
  operands := sound.operands
  values := by
    intro key' v' member
    cases List.mem_append.mp member with
    | inl before => exact sound.values key' v' before
    | inr added =>
      cases List.mem_singleton.mp added
      exact ⟨kind, declared, reads⟩

theorem Sound.value? (sound : r.Sound g) {key : String} {v : Value} (found : r.value? key = some v) :
    ∃ kind, g.Declares key kind ∧ kind.Reads v := by
  obtain ⟨before, after, parts, -⟩ := List.lookup_eq_some_iff.mp found
  exact sound.values key v (List.mem_reverse.mp (parts ▸ by simp))

-- One advance in a line: the reading stays sound, and the end of the line is left.
structure Advance (g : Grammar) (line : Marked) (next : Reading × Marked) : Prop where
  sound : next.1.Sound g
  left : next.2 <:+ line

theorem nextOperand_left {words : List String} (found : nextOperand line = some (words, rest)) :
    rest <:+ line := by
  unfold nextOperand at found
  split at found
  case h_1 arg later after =>
    cases found
    have dropped := List.dropWhile_suffix isDivider (l := line)
    rw [after] at dropped
    exact (List.dropWhile_suffix _).trans ((List.suffix_cons _ _).trans dropped)
  case h_2 => cases found

theorem takeOperands_advances {wanted : List Operand} {after : Reading × Marked}
    (taken : r.takeOperands wanted line = .ok after) (sound : r.Sound g)
    (listed : ∀ o ∈ wanted, o ∈ g.operands) : Advance g line after := by
  induction wanted generalizing r line with
  | nil =>
    cases taken
    exact ⟨⟨listed, sound.values⟩, List.suffix_refl _⟩
  | cons o wanted ih =>
    unfold takeOperands at taken
    split at taken
    case h_1 =>
      cases taken
      exact ⟨⟨listed, sound.values⟩, List.suffix_refl _⟩
    case h_2 words rest found =>
      obtain ⟨v, read, taken⟩ := bind_ok_iff.mp taken
      have first := listed o List.mem_cons_self
      have reads : o.kind.Reads v := ⟨_, _, mapError_ok_iff.mp read⟩
      have advance := ih taken (sound.assign (.operand first) reads)
        fun o member => listed o (List.mem_cons_of_mem _ member)
      exact ⟨advance.sound, advance.left.trans (nextOperand_left found)⟩

theorem takeCommand_advances {after : Reading × Marked} (taken : r.takeCommand g line = .ok after)
    (sound : r.Sound g) : Advance g line after := by
  unfold takeCommand at taken
  split at taken
  · cases taken
    exact ⟨sound, List.suffix_refl _⟩
  · split at taken
    · cases taken
      exact ⟨sound, List.suffix_refl _⟩
    · split at taken
      · cases taken
        exact ⟨⟨sound.operands, sound.values⟩, List.nil_suffix⟩
      · cases taken

theorem takeLeading_advances {after : Reading × Marked} (taken : r.takeLeading g line = .ok after)
    (sound : r.Sound g) : Advance g line after := by
  obtain ⟨⟨next, rest⟩, operands, taken⟩ := bind_ok_iff.mp taken
  have first := takeOperands_advances operands sound sound.operands
  simp only at taken
  split at taken
  · have second := takeCommand_advances taken first.sound
    exact ⟨second.sound, second.left.trans first.left⟩
  · cases pure_ok_iff.mp taken
    exact first

theorem takeSwitch_advances {s : Switch} {name : String} {value : Option String}
    {after : Reading × Marked} (taken : r.takeSwitch g s name value line = .ok after)
    (sound : r.Sound g) (listed : s ∈ g.switches) : Advance g line after := by
  unfold takeSwitch at taken
  split at taken
  case h_1 => cases taken
  case h_2 =>
    split at taken
    · cases taken
    · cases tail : shortTail g s _ with
      | error => rw [tail] at taken; cases taken
      | ok =>
        rw [tail] at taken
        cases taken
        exact ⟨sound, List.suffix_refl _⟩
  case h_3 kind given valued =>
    obtain ⟨v, read, taken⟩ := bind_ok_iff.mp taken
    cases pure_ok_iff.mp taken
    exact ⟨sound.assign (.switch listed valued) ⟨_, _, mapError_ok_iff.mp read⟩, List.suffix_refl _⟩
  case h_4 kind valued =>
    split at taken
    case h_1 given rest =>
      obtain ⟨v, read, taken⟩ := bind_ok_iff.mp taken
      cases pure_ok_iff.mp taken
      exact ⟨sound.assign (.switch listed valued) ⟨_, _, mapError_ok_iff.mp read⟩,
        List.suffix_cons _ _⟩
    case h_2 => cases taken

theorem step_advances {after : Reading × Marked} (stepped : r.step g line = .ok after)
    (sound : r.Sound g) (marked : g.Marks line) : Advance g line after := by
  unfold step at stepped
  split at stepped
  case h_1 =>
    cases stepped
    exact ⟨sound, List.suffix_refl _⟩
  case h_2 arg s name value rest =>
    have listed := marked arg s name value List.mem_cons_self
    have advance := takeSwitch_advances stepped sound listed
    exact ⟨advance.sound, advance.left.trans (List.suffix_cons _ _)⟩
  case h_3 =>
    cases stepped
    exact ⟨⟨sound.operands, sound.values⟩, List.suffix_cons _ _⟩
  case h_4 =>
    obtain ⟨⟨next, rest⟩, taken, stepped⟩ := bind_ok_iff.mp stepped
    have advance := takeLeading_advances taken sound
    simp only at stepped
    split at stepped
    · cases pure_ok_iff.mp stepped
      exact advance
    · cases pure_ok_iff.mp stepped
      exact ⟨⟨advance.sound.operands, advance.sound.values⟩, List.dropWhile_suffix _⟩

theorem steps_advance {fuel : Nat} {after : Reading × Marked} (stepped : r.steps g fuel line = .ok after)
    (sound : r.Sound g) (marked : g.Marks line) : Advance g line after := by
  induction fuel generalizing r line with
  | zero =>
    cases stepped
    exact ⟨sound, List.suffix_refl _⟩
  | succ fuel ih =>
    unfold steps at stepped
    split at stepped
    · obtain ⟨⟨next, rest⟩, first, stepped⟩ := bind_ok_iff.mp stepped
      have advance := step_advances first sound marked
      have later := ih stepped advance.sound (marked.part advance.left)
      exact ⟨later.sound, later.left.trans advance.left⟩
    · cases stepped
      exact ⟨sound, List.suffix_refl _⟩

end Reading

-- Whatever a line holds, what is read from it is what the grammar has.
theorem Grammar.scan_sound {args : List String} (scanned : g.scan args = .ok r) : r.Sound g := by
  obtain ⟨line, marked, scanned⟩ := bind_ok_iff.mp scanned
  obtain ⟨⟨stepped, rest⟩, steps, scanned⟩ := bind_ok_iff.mp scanned
  obtain ⟨⟨last, left⟩, leading, scanned⟩ := bind_ok_iff.mp scanned
  have start : Reading.Sound g { operands := g.operands } :=
    ⟨fun _ listed => listed, fun _ _ member => nomatch member⟩
  have middle := Reading.steps_advance steps start (marks_made (mapError_ok_iff.mp marked))
  have done := Reading.takeLeading_advances leading middle.sound
  simp only at scanned
  split at scanned
  · cases pure_ok_iff.mp scanned
    exact ⟨done.sound.operands, done.sound.values⟩
  · cases scanned

end StreamRelay.CommandLine
