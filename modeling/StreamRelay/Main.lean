import StreamRelay.Commands

open StreamRelay

def conclude (result : EStateM.Result Failure (Machine Float Unit) Int) : IO UInt32 := do
  match result with
  | .ok status m =>
    (← IO.getStdout).putStr m.host.stdout
    (← IO.getStderr).putStr m.host.stderr
    return UInt32.ofNat status.toNat
  | .error f m =>
    (← IO.getStdout).putStr m.host.stdout
    (← IO.getStderr).putStr (m.host.stderr ++ f.message ++ "\n")
    return 1

def main (args : List String) : IO UInt32 := do
  let line := CommandLine.readTool args
  let typed ← match line with
    | .ok _ => (← IO.getStdin).readToEnd
    | .error _ => pure ""
  let host : Host Float := {
    clock := 0, console := Bytes.ofText typed, consoleEnded := true, ending := .terminates }
  conclude (Commands.run (.descriptor 0) line ⟨host, ()⟩)
