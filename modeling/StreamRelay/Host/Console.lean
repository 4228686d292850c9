import StreamRelay.Host.Run

namespace StreamRelay

inductive Stdin where
  | missing
  | bare (reason : Failure)
  | descriptor (fd : Int)
  deriving DecidableEq, Repr

namespace Os
variable {T P : Type} [Clock T] [Resumable T P]
open Run

def readable : Run T P Bool := asks fun h => !h.console.isEmpty || h.consoleEnded

def awaitConsole (timeout : T) : Run T P Unit := do
  let _ ← await
  onlyIf (!(← readable)) (advance timeout)

def poll (fd : Int) (timeout : T) : Run T P Bool := do
  let _ ← incident .poll
  onlyIf (!(← readable) && Clock.before Clock.zero timeout) (awaitConsole timeout)
  let there ← readable
  emits (.poll fd timeout there)
  return there

def read (fd : Int) (limit : Nat) : Run T P Bytes := do
  let _ ← incident .read
  let data ← asks (·.console.take limit)
  changes fun h => { h with console := h.console.drop limit }
  emits (.read fd limit data)
  return data

end Os
end StreamRelay
