namespace StreamRelay

abbrev Bytes := List UInt8

namespace Bytes

def ofText (text : String) : Bytes := text.toUTF8.data.toList

-- The first bytes up to a limit; below zero, all but so many at the end.
def cut (limit : Int) (bs : Bytes) : Bytes :=
  if 0 ≤ limit then bs.take limit.toNat else bs.take (bs.length - limit.natAbs)

def newline : UInt8 := 10

def blank (b : UInt8) : Bool := b == 32 || (9 ≤ b && b ≤ 13)

def trim (bs : Bytes) : Bytes := ((bs.dropWhile blank).reverse.dropWhile blank).reverse

-- The finished lines of a text, without their newlines, and what follows the last newline.
def cutLines : Bytes → List Bytes × Bytes
  | [] => ([], [])
  | b :: rest =>
    match cutLines rest with
    | ([], tail) => if b = newline then ([[]], tail) else ([], b :: tail)
    | (line :: lines, tail) =>
      if b = newline then ([] :: line :: lines, tail) else ((b :: line) :: lines, tail)

end Bytes
end StreamRelay
