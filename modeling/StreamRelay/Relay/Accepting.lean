import StreamRelay.Relay.Admission

namespace StreamRelay.Relay
variable {T : Type} [Clock T]
open Run

-- The errors that concern only the connection being accepted, by number.
def concernsOne (f : Failure) : Bool := f.number?.elim false fun n => n = 103 || n = 1 || n = 71

def unwatchListener : Run T (Relay T) Unit := do
  match ← outcome (Os.unregister (← gets (·.listener.sock))) with
  | .ok _ => return ()
  | .error f => if f.isKey || f.isValue then return () else fails f

-- Makes the listener rest; one that rests or is closed stays as it is.
def pause (delay : T) : Run T (Relay T) Unit := do
  let listener ← gets Relay.listener
  if listener.paused || listener.closed then return ()
  else
    unwatchListener
    let now ← asks Host.clock
    sets (setListener fun l => { l with resumeAt := some (Clock.add now delay) })
    emits (.rests (Clock.add now delay))
    Os.log .warning ("listener paused for " ++ Clock.fixed 2 delay ++ "s")

def retryDelay : T := Clock.millis Defaults.acceptRetryMillis

-- Watches a listener again whose rest is over; if that fails, it rests once more.
def maybeResume : Run T (Relay T) Unit := do
  let listener ← gets Relay.listener
  let now ← asks Host.clock
  match listener.resumeAt with
  | none => return ()
  | some time =>
    if listener.closed || Clock.before now time then return ()
    else
      sets (setListener fun l => { l with resumeAt := none })
      match ← outcome (Os.register listener.sock none) with
      | .ok _ => return ()
      | .error f =>
        if f.isOs || f.isValue || f.isKey then
          Os.log .error ("cannot re-register listener: " ++ f.message)
          pause retryDelay
        else fails f

inductive AcceptOutcome where
  | done | again | admitted
  deriving DecidableEq, Repr

def acceptOnce : Run T (Relay T) AcceptOutcome := do
  match ← outcome (Os.accept (← gets (·.listener.sock))) with
  | .error f =>
    if f.wouldBlock then return .done
    else if f.interrupted then return .again
    else if f.isOs then
      Os.log .error ("accept failed: " ++ f.message)
      if concernsOne f then return .again
      else
        pause retryDelay
        return .done
    else fails f
  | .ok (sock, peer) =>
    match ← enroll sock ⟨peer, []⟩ with
    | none => return .again
    | some conn =>
      sets (count fun c => { c with accepted := c.accepted + 1 })
      Os.log .info ("new client " ++ conn.label)
      return .admitted

def acceptFor : Nat → Nat → Run T (Relay T) Nat
  | 0, admitted => return admitted
  | fuel + 1, admitted => do
    match ← acceptOnce with
    | .done => return admitted
    | .again => acceptFor fuel admitted
    | .admitted => acceptFor fuel (admitted + 1)

-- Accepts until nobody waits, and says how many were admitted. Each accept that goes on uses up a
-- waiting connection or a fault.
def acceptAll : Run T (Relay T) Nat := do
  acceptFor ((← asks Host.workload) + 1) 0

def closeListener : Run T (Relay T) Unit := do
  let listener ← gets Relay.listener
  if listener.closed then return ()
  else
    unwatchListener
    Os.close listener.sock
    sets (setListener fun l => { l with closed := true })

end StreamRelay.Relay
