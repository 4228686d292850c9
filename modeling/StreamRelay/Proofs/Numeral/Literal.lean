import Mathlib.Data.Nat.Digits.Lemmas
import StreamRelay.Numeral.Integer

namespace StreamRelay.Numeral

def IsDigit (c : Char) (value : Nat) : Prop := value < 10 ∧ ∃ row ∈ zeros, c.toNat = row + value

-- Digits with at most one underscore between any two, and their values.
inductive Digits : List Char → List Nat → Prop where
  | one (digit : IsDigit c d) : Digits [c] [d]
  | next (digit : IsDigit c d) (more : Digits cs ds) : Digits (c :: cs) (d :: ds)
  | spaced (digit : IsDigit c d) (more : Digits cs ds) : Digits (c :: '_' :: cs) (d :: ds)

inductive Sign : List Char → Int → Prop where
  | none : Sign [] 1
  | plus : Sign ['+'] 1
  | minus : Sign ['-'] (-1)

-- A whole number as it may be written, and its value.
inductive Literal (text : String) : Int → Prop where
  | intro {before sign body after : List Char} {factor : Int} {ds : List Nat}
      (parts : text.toList = before ++ (sign ++ body) ++ after)
      (leading : ∀ c ∈ before, blank c = true) (trailing : ∀ c ∈ after, blank c = true)
      (signed : Sign sign factor) (digits : Digits body ds) (few : ds.length ≤ maxDigits) :
      Literal text (factor * (Nat.ofDigits 10 ds.reverse : Nat))

theorem zeros_apart : zeros.Pairwise fun z z' => z + 10 ≤ z' := by decide +kernel

theorem zeros_solid : ∀ row ∈ zeros, ∀ value < 10,
    blank (Char.ofNat (row + value)) = false ∧ Char.ofNat (row + value) ≠ '+' ∧
      Char.ofNat (row + value) ≠ '-' ∧ Char.ofNat (row + value) ≠ '_' := by decide +kernel

theorem IsDigit.solid {c : Char} {d : Nat} (digit : IsDigit c d) :
    blank c = false ∧ c ≠ '+' ∧ c ≠ '-' ∧ c ≠ '_' := by
  obtain ⟨small, row, listed, place⟩ := digit
  have solid := zeros_solid row listed d small
  rw [← place, Char.ofNat_toNat] at solid
  exact solid

theorem find_row {rows : List Nat} (apart : rows.Pairwise fun z z' => z + 10 ≤ z') {row n : Nat}
    (listed : row ∈ rows) (lower : row ≤ n) (upper : n < row + 10) :
    rows.find? (fun z => z ≤ n && n < z + 10) = some row := by
  induction rows with
  | nil => cases listed
  | cons z rows ih =>
    obtain ⟨first, apart⟩ := List.pairwise_cons.mp apart
    cases listed with
    | head => simp [lower, upper]
    | tail _ later =>
      have := first row later
      rw [List.find?_cons_of_neg (by simp; omega)]
      exact ih apart later

theorem digit?_eq_some_iff {c : Char} {d : Nat} : digit? c = some d ↔ IsDigit c d := by
  unfold digit?
  constructor
  · intro found
    obtain ⟨row, first, rfl⟩ := Option.map_eq_some_iff.mp found
    have within := List.find?_some first
    simp only [Bool.and_eq_true, decide_eq_true_eq] at within
    exact ⟨by omega, row, List.mem_of_find?_eq_some first, by omega⟩
  · intro ⟨small, row, listed, place⟩
    rw [find_row zeros_apart listed (by omega) (by omega), Option.map_some]
    congr 1
    omega

theorem underscore_no_digit : digit? '_' = none := by decide +kernel

theorem digits?_cons {c : Char} {cs : List Char} {ds : List Nat} :
    digits? (c :: cs) = some ds ↔
      ∃ d more, digit? c = some d ∧ moreDigits? cs = some more ∧ ds = d :: more := by
  cases first : digit? c <;> cases rest : moreDigits? cs <;> simp [digits?, first, rest, eq_comm]

theorem moreDigits?_iff {cs : List Char} {ds : List Nat} :
    moreDigits? cs = some ds ↔
      (cs = [] ∧ ds = []) ∨ digits? cs = some ds ∨ ∃ rest, cs = '_' :: rest ∧ digits? rest = some ds := by
  fun_cases moreDigits? cs with
  | case1 => simp [digits?, eq_comm]
  | case2 c rest => simp [digits?, underscore_no_digit]
  | case3 c rest other =>
    have apart : c = '_' → digits? rest ≠ some ds := by
      intro underscore read
      cases rest with
      | nil => cases read
      | cons d rest => exact other d rest underscore rfl
    constructor
    · intro read
      exact .inr (.inl read)
    · intro read
      obtain ⟨empty, -⟩ | read | ⟨more, parts, read⟩ := read
      · cases empty
      · exact read
      · obtain ⟨underscore, rfl⟩ := List.cons.inj parts
        exact absurd read (apart underscore)

theorem Digits.of_digits? {cs : List Char} {ds : List Nat} (read : digits? cs = some ds) :
    Digits cs ds := by
  induction length : cs.length using Nat.strongRecOn generalizing cs ds with
  | _ length ih =>
  cases cs with
  | nil => cases read
  | cons c cs =>
    obtain ⟨d, more, digit, rest, rfl⟩ := digits?_cons.mp read
    have digit := digit?_eq_some_iff.mp digit
    subst length
    obtain ⟨rfl, rfl⟩ | next | ⟨cs, rfl, spaced⟩ := moreDigits?_iff.mp rest
    · exact .one digit
    · exact .next digit (ih _ (by simp) next rfl)
    · exact .spaced digit (ih _ (by simp) spaced rfl)

theorem digits?_eq_some_iff {cs : List Char} {ds : List Nat} :
    digits? cs = some ds ↔ Digits cs ds := by
  constructor
  · exact Digits.of_digits?
  · intro digits
    induction digits with
    | one digit => exact digits?_cons.mpr ⟨_, [], digit?_eq_some_iff.mpr digit, rfl, rfl⟩
    | next digit _ read =>
      exact digits?_cons.mpr ⟨_, _, digit?_eq_some_iff.mpr digit, moreDigits?_iff.mpr (.inr (.inl read)), rfl⟩
    | spaced digit _ read =>
      exact digits?_cons.mpr
        ⟨_, _, digit?_eq_some_iff.mpr digit, moreDigits?_iff.mpr (.inr (.inr ⟨_, rfl, read⟩)), rfl⟩

theorem Digits.first {cs : List Char} {ds : List Nat} (digits : Digits cs ds) :
    ∃ c d rest, cs = c :: rest ∧ IsDigit c d := by
  cases digits with
  | one digit => exact ⟨_, _, _, rfl, digit⟩
  | next digit _ => exact ⟨_, _, _, rfl, digit⟩
  | spaced digit _ => exact ⟨_, _, _, rfl, digit⟩

theorem Digits.last {cs : List Char} {ds : List Nat} (digits : Digits cs ds) :
    ∃ c d rest, cs = rest ++ [c] ∧ IsDigit c d := by
  induction digits with
  | @one c d digit => exact ⟨c, d, [], rfl, digit⟩
  | @next c _ _ _ _ _ ih =>
    obtain ⟨c', d, rest, rfl, digit⟩ := ih
    exact ⟨c', d, c :: rest, rfl, digit⟩
  | @spaced c _ _ _ _ _ ih =>
    obtain ⟨c', d, rest, rfl, digit⟩ := ih
    exact ⟨c', d, c :: '_' :: rest, rfl, digit⟩

theorem Digits.small {cs : List Char} {ds : List Nat} (digits : Digits cs ds) : ∀ d ∈ ds, d < 10 := by
  induction digits with
  | one digit => simpa using digit.1
  | next digit _ ih => simpa using ⟨digit.1, ih⟩
  | spaced digit _ ih => simpa using ⟨digit.1, ih⟩

theorem positional_eq (ds : List Nat) : positional ds = Nat.ofDigits 10 ds.reverse := by
  induction ds using List.reverseRecOn with
  | nil => rfl
  | append_singleton ds d ih =>
    rw [positional, List.foldl_append, List.reverse_append]
    simp only [List.foldl_cons, List.foldl_nil, List.reverse_singleton, List.singleton_append,
      Nat.ofDigits_cons, ← ih, positional]
    omega

theorem magnitude?_eq_some_iff {cs : List Char} {n : Nat} :
    magnitude? cs = some n ↔
      ∃ ds, Digits cs ds ∧ ds.length ≤ maxDigits ∧ n = Nat.ofDigits 10 ds.reverse := by
  constructor
  · intro read
    obtain ⟨ds, digits, value⟩ := Option.bind_eq_some_iff.mp read
    split at value
    case isTrue few =>
      cases value
      exact ⟨ds, digits?_eq_some_iff.mp digits, few, positional_eq ds⟩
    case isFalse => cases value
  · intro ⟨ds, digits, few, value⟩
    rw [magnitude?, digits?_eq_some_iff.mpr digits, value]
    simp [few, positional_eq]

theorem dropWhile_append_kept {before cs : List Char} (leading : ∀ c ∈ before, blank c = true)
    (kept : ∀ c rest, cs = c :: rest → blank c = false) : (before ++ cs).dropWhile blank = cs := by
  induction before with
  | nil =>
    cases cs with
    | nil => rfl
    | cons c rest => simp [kept c rest rfl]
  | cons c before ih =>
    simp only [List.mem_cons, forall_eq_or_imp] at leading
    rw [List.cons_append, List.dropWhile_cons_of_pos leading.1]
    exact ih leading.2

theorem trim_around {before core after : List Char} (leading : ∀ c ∈ before, blank c = true)
    (trailing : ∀ c ∈ after, blank c = true) {first last : Char} {rest front : List Char}
    (starts : core = first :: rest) (opens : blank first = false) (ends : core = front ++ [last])
    (closes : blank last = false) : trim (before ++ core ++ after) = core := by
  have left : (before ++ core ++ after).dropWhile blank = core ++ after := by
    rw [List.append_assoc]
    apply dropWhile_append_kept leading
    rw [starts]
    intro c _ same
    cases same
    exact opens
  have right : (core ++ after).reverse.dropWhile blank = core.reverse := by
    rw [List.reverse_append]
    apply dropWhile_append_kept
    · simpa using trailing
    · rw [ends, List.reverse_append]
      intro c _ same
      cases same
      exact closes
  rw [trim, left, right, List.reverse_reverse]

theorem trim_parts (cs : List Char) : ∃ before after, cs = before ++ trim cs ++ after ∧
    (∀ c ∈ before, blank c = true) ∧ ∀ c ∈ after, blank c = true := by
  refine ⟨cs.takeWhile blank, ((cs.dropWhile blank).reverse.takeWhile blank).reverse, ?_, ?_, ?_⟩
  · rw [trim, List.append_assoc, ← List.reverse_append, List.takeWhile_append_dropWhile,
      List.reverse_reverse, List.takeWhile_append_dropWhile]
  · exact List.all_eq_true.mp List.all_takeWhile
  · intro c member
    exact List.all_eq_true.mp List.all_takeWhile c (List.mem_reverse.mp member)

theorem integer?_of_sign {text : String} {sign body : List Char} {factor : Int}
    (cut : trim text.toList = sign ++ body) (signed : Sign sign factor) {c : Char} {d : Nat}
    {rest : List Char} (opens : body = c :: rest) (digit : IsDigit c d) :
    integer? text = (magnitude? body).map fun n => factor * (n : Int) := by
  obtain ⟨-, noPlus, noMinus, -⟩ := digit.solid
  cases signed with
  | none =>
    rw [integer?, cut, List.nil_append, opens]
    split
    · rename_i same
      exact absurd (List.cons.inj same).1 noMinus
    · rename_i same
      exact absurd (List.cons.inj same).1 noPlus
    · simp
  | plus => simp [integer?, cut]
  | minus => simp [integer?, cut]

theorem sign_read {text : String} {n : Int} (read : integer? text = some n) :
    ∃ sign body factor m, trim text.toList = sign ++ body ∧ Sign sign factor ∧
      magnitude? body = some m ∧ n = factor * (m : Int) := by
  unfold integer? at read
  split at read
  all_goals
    rename_i cut
    obtain ⟨_, cast, rfl⟩ := Option.map_eq_some_iff.mp read
    obtain ⟨m, value, whole⟩ := Option.bind_eq_some_iff.mp cast
    cases whole
  · exact ⟨['-'], _, -1, m, cut, .minus, value, by simp⟩
  · exact ⟨['+'], _, 1, m, cut, .plus, value, by simp⟩
  · exact ⟨[], _, 1, m, rfl, .none, value, by simp⟩

theorem Sign.opens {sign body : List Char} {factor : Int} (signed : Sign sign factor) {c : Char}
    {rest : List Char} (body_eq : body = c :: rest) (solid : blank c = false) :
    ∃ first more, sign ++ body = first :: more ∧ blank first = false := by
  cases signed with
  | none => exact ⟨c, rest, body_eq, solid⟩
  | plus => exact ⟨'+', body, rfl, rfl⟩
  | minus => exact ⟨'-', body, rfl, rfl⟩

-- A text is read as a number just if it is a literal with that value.
theorem integer?_eq_some_iff {text : String} {n : Int} : integer? text = some n ↔ Literal text n := by
  constructor
  · intro read
    obtain ⟨sign, body, factor, m, cut, signed, value, rfl⟩ := sign_read read
    obtain ⟨ds, digits, few, rfl⟩ := magnitude?_eq_some_iff.mp value
    obtain ⟨before, after, parts, leading, trailing⟩ := trim_parts text.toList
    exact .intro (cut ▸ parts) leading trailing signed digits few
  · intro literal
    cases literal with
    | @intro before sign body after factor ds parts leading trailing signed digits few =>
    obtain ⟨c, d, rest, opens, digit⟩ := digits.first
    obtain ⟨c', d', front, closes, digit'⟩ := digits.last
    obtain ⟨first, more, starts, solid⟩ := signed.opens opens digit.solid.1
    have cut : trim text.toList = sign ++ body := by
      rw [parts]
      exact trim_around leading trailing starts solid (by rw [closes, List.append_assoc]) digit'.solid.1
    rw [integer?_of_sign cut signed opens digit, magnitude?_eq_some_iff.mpr ⟨ds, digits, few, rfl⟩]
    rfl

theorem Literal.short {text : String} {n : Int} (literal : Literal text n) :
    (Nat.digits 10 n.natAbs).length ≤ maxDigits := by
  cases literal with
  | @intro _ sign body _ factor ds _ _ _ signed digits few =>
  have magnitude : (factor * (Nat.ofDigits 10 ds.reverse : Nat)).natAbs = Nat.ofDigits 10 ds.reverse := by
    cases signed <;> simp
  have bound : Nat.ofDigits 10 ds.reverse < 10 ^ ds.reverse.length :=
    Nat.ofDigits_lt_base_pow_length (by decide) fun d member =>
      digits.small d (List.mem_reverse.mp member)
  rw [magnitude]
  rw [List.length_reverse] at bound
  exact (Nat.digits_length_le_iff (by decide) _).mpr bound |>.trans few

end StreamRelay.Numeral
