import StreamRelay.Bytes
import StreamRelay.Numeral.Fixed

namespace StreamRelay

structure Timestamp where
  year : Nat
  month : Nat
  day : Nat
  hour : Nat
  minute : Nat
  second : Nat
  deriving DecidableEq, Repr

def Timestamp.text (t : Timestamp) : String :=
  let two := Quantity.padded 2
  toString t.year ++ "-" ++ two t.month ++ "-" ++ two t.day ++ " " ++
    two t.hour ++ ":" ++ two t.minute ++ ":" ++ two t.second

structure CallSite where
  file : String
  line : Int
  deriving DecidableEq, Repr

def lastPart (path : List Char) : List Char := (path.reverse.takeWhile (· ≠ '/')).reverse

def messageText (now : Timestamp) (text : String) (site : Option CallSite) : String :=
  let file := (site.map fun s => String.ofList (lastPart s.file.toList)).getD "?"
  let line := (site.map CallSite.line).getD 0
  "[" ++ now.text ++ "][" ++ text ++ "][" ++ file ++ "][" ++ toString line ++ "]\n"

def messageLine (now : Timestamp) (text : String) (site : Option CallSite) : Bytes :=
  Bytes.ofText (messageText now text site)

end StreamRelay
