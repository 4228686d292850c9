import StreamRelay.Relay.State

namespace StreamRelay.Relay
variable {T : Type} [Clock T]
open Run

inductive ReadOutcome where
  | stillOpen | disconnect | failed
  deriving DecidableEq, Repr

def ReadOutcome.name : ReadOutcome → String
  | stillOpen => "open"
  | disconnect => "disconnect"
  | failed => "error"

def readOnce (conn : Connection) : Run T (Relay T) (Option ReadOutcome) := do
  let limit ← gets (·.config.bufferSize)
  match ← outcome (Os.receive conn.sock limit) with
  | .error f =>
    if f.wouldBlock then return some .stillOpen
    else if f.interrupted then return none
    else if f.isOs then
      Os.log .warning ("read from " ++ conn.label ++ " failed: " ++ f.message)
      sets (count fun c => { c with readErrors := c.readErrors + 1 })
      return some .failed
    else fails f
  | .ok data =>
    if data.isEmpty then
      Os.log .info ("client " ++ conn.label ++ " disconnected")
      return some .disconnect
    else
      let sink ← gets Relay.sink
      let sent ← sink.forward data (some conn.sock)
      sets (count (·.forwarded sent data.length))
      return none

def drainFor (conn : Connection) : Nat → Run T (Relay T) ReadOutcome
  | 0 => return .stillOpen
  | fuel + 1 => do
    match ← readOnce conn with
    | some result => return result
    | none => drainFor conn fuel

-- Reads until nothing is left. Each read that goes on uses up unread bytes or a fault.
def drain (conn : Connection) : Run T (Relay T) ReadOutcome := do
  drainFor conn ((← asks Host.workload) + 1)

end StreamRelay.Relay
