namespace StreamRelay

-- What a clock reading or a duration exactly is: a signed fraction, or no finite number.
inductive Quantity where
  | finite (negative : Bool) (num den : Nat)
  | infinite (negative : Bool)
  | undefined
  deriving DecidableEq, Repr

namespace Quantity

-- Nearest whole number to `num / den`, a tie to the even one.
def roundDiv (num den : Nat) : Nat :=
  if 2 * (num % den) < den then num / den
  else if den < 2 * (num % den) then num / den + 1
  else num / den + num / den % 2

def sign (negative : Bool) : String := if negative then "-" else ""

def padded (width n : Nat) : String :=
  let text := toString n
  String.ofList (List.replicate (width - text.length) '0') ++ text

def fixed (places : Nat) : Quantity → String
  | finite negative num den =>
    let unit := Nat.pow 10 places
    let scaled := roundDiv (num * unit) den
    let whole := sign negative ++ toString (scaled / unit)
    if places = 0 then whole else whole ++ "." ++ padded places (scaled % unit)
  | infinite negative => sign negative ++ "inf"
  | undefined => "nan"

theorem roundDiv_near (num : Nat) {den : Nat} (pos : 0 < den) :
    2 * (roundDiv num den * den) ≤ 2 * num + den ∧
      2 * num ≤ 2 * (roundDiv num den * den) + den := by
  have parts := Nat.div_add_mod num den
  have less := Nat.mod_lt num pos
  have comm := Nat.mul_comm den (num / den)
  have next : (num / den + 1) * den = num / den * den + den := Nat.succ_mul _ _
  unfold roundDiv
  split
  · constructor <;> omega
  · split
    · constructor <;> omega
    · rcases Nat.mod_two_eq_zero_or_one (num / den) with even | odd
      · rw [even, Nat.add_zero]; constructor <;> omega
      · rw [odd]; constructor <;> omega

theorem roundDiv_tie {num den : Nat} (half : 2 * (num % den) = den) :
    roundDiv num den % 2 = 0 := by
  unfold roundDiv
  rw [if_neg (by omega), if_neg (by omega)]
  rcases Nat.mod_two_eq_zero_or_one (num / den) with even | odd
  · rw [even]; exact even
  · rw [odd, Nat.add_mod, odd]

end Quantity
end StreamRelay
