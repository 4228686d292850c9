import StreamRelay.Numeral.Fixed

namespace StreamRelay

class Clock (T : Type) where
  zero : T
  add : T → T → T
  sub : T → T → T
  before : T → T → Bool
  millis : Int → T
  -- Whether so many milliseconds can be held at all.
  holds : Int → Bool
  quantity : T → Quantity

namespace Clock
variable {T : Type} [Clock T]

def clamp (d : T) : T := if before zero d then d else zero

def isZero (d : T) : Bool := !before zero d && !before d zero

def fixed (places : Nat) (d : T) : String := (quantity d).fixed places

end Clock

-- The exact value of a binary floating point number.
def Quantity.ofFloat (x : Float) : Quantity :=
  let bits := x.toBits.toNat
  let negative := bits >>> 63 = 1
  let hidden := Nat.pow 2 52
  let exponent := bits / hidden % 2048
  let fraction := bits % hidden
  if exponent = 2047 then if fraction = 0 then .infinite negative else .undefined
  else
    let significand := if exponent = 0 then fraction else hidden + fraction
    let power := max exponent 1
    if 1075 ≤ power then .finite negative (significand * Nat.pow 2 (power - 1075)) 1
    else .finite negative significand (Nat.pow 2 (1075 - power))

-- Seconds in binary floating point.
instance : Clock Float where
  zero := 0
  add := (· + ·)
  sub := (· - ·)
  before a b := a < b
  millis n := Float.ofInt n / 1000
  holds n := (Float.ofInt n).isFinite
  quantity := Quantity.ofFloat

instance : Clock Int where
  zero := 0
  add := (· + ·)
  sub := (· - ·)
  before a b := a < b
  millis n := n
  holds _ := true
  quantity n := .finite (n < 0) n.natAbs 1000

-- A clock on which no time passes at an instant.
class Clock.Lawful (T : Type) [Clock T] : Prop where
  zero_self : Clock.before (Clock.zero : T) Clock.zero = false

instance : Clock.Lawful Float := ⟨by decide⟩

instance : Clock.Lawful Int := ⟨rfl⟩

theorem Clock.isZero_zero {T : Type} [Clock T] [Lawful T] : isZero (zero : T) = true := by
  simp [isZero, Lawful.zero_self]

end StreamRelay
