import StreamRelay.Control
import StreamRelay.Host.Process

namespace StreamRelay.Foreground
variable {T P : Type} [Clock T] [Resumable T P]
open Run

-- One wait: on the console while there is one, else on the stop flag.
def turn (interval : T) : Option Control → Run T P (Option Control × Bool)
  | some c =>
    if c.closed then do
      Os.waitFor .command interval
      return (some c, false)
    else do
      let (c, requested) ← c.poll interval
      return (some c, requested)
  | none => do
    Os.waitFor .command interval
    return (none, false)

def turns (alive : Run T P Bool) (interval : T) : Nat → Option Control → Run T P Unit
  | 0, _ => return ()
  | fuel + 1, control => do
    if !(← alive) then return ()
    else if ← Os.isSet .command then return ()
    else
      let (control, requested) ← turn interval control
      if requested then return ()
      else turns alive interval fuel control

-- Waits for the end. `checks` bounds how often a worker that nothing else ends is asked for.
def waitForQuit (alive : Run T P Bool) (checks : Nat) (stdin : Stdin) (interval : T) :
    Run T P Unit := do
  match Control.ofStdin stdin with
  | .error f => fails f
  | .ok control =>
    let work ← asks Host.workload
    turns alive interval (work + checks + 3) control

end StreamRelay.Foreground
