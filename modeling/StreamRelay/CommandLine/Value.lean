import StreamRelay.Defaults
import StreamRelay.Numeral.Integer
import StreamRelay.Text.Quoted

namespace StreamRelay.CommandLine

inductive ValueError where
  | notPort (given : String)
  | portRange (n : Int)
  | notNumber (given : String)
  | notPositive (n : Int)
  | bufferTooLarge (n : Int)
  deriving DecidableEq, Repr

def ValueError.message : ValueError → String
  | notPort given => "invalid port: " ++ Text.quoted given
  | portRange n => "port out of range: " ++ toString n
  | notNumber given => "invalid number: " ++ Text.quoted given
  | notPositive n => "must be positive: " ++ toString n
  | bufferTooLarge n =>
    "buffer size above the largest UDP payload (" ++ toString Defaults.maxDatagram ++ "): " ++
      toString n

def port (given : String) : Except ValueError Int :=
  match Numeral.integer? given with
  | none => .error (.notPort given)
  | some n => if 0 < n ∧ n < 65536 then .ok n else .error (.portRange n)

def positive (given : String) : Except ValueError Int :=
  match Numeral.integer? given with
  | none => .error (.notNumber given)
  | some n => if n ≤ 0 then .error (.notPositive n) else .ok n

def bufferSize (given : String) : Except ValueError Int := do
  let n ← positive given
  if Defaults.maxDatagram < n then throw (.bufferTooLarge n) else return n

end StreamRelay.CommandLine
