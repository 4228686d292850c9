import StreamRelay.Endpoint
import StreamRelay.Relay.Accepting
import StreamRelay.Relay.Drain

namespace StreamRelay.Relay
open Run

section Creation
variable {T P : Type} [Clock T] [Resumable T P]

-- A setup step of a relay: if it fails as `caught` says, `undo` is run and the cause wrapped.
def setupStep {α : Type} (act : Run T P α) (caught : Failure → Bool) (undo : Run T P Unit)
    (wrap : Failure → Failure) : Run T P α := do
  match ← outcome act with
  | .ok a => return a
  | .error f =>
    if caught f then
      undo
      fails (wrap f)
    else fails f

def create (config : Config) (control : Option Control) (sink : Option Sink) :
    Run T P (Relay T) := do
  let sink ← Sink.orResolve sink config.udp
  setupStep Os.newSelector Failure.isOs sink.close (.setup .selector)
  let sock ← setupStep
    (Endpoint.listening config.listen config.backlog false)
    Failure.isSetup (do Os.closeSelector; sink.close) id
  let stats := Stats.starting (← asks Host.clock)
  let address ← Os.name sock
  setupStep (Os.register sock none) (fun f => f.isOs || f.isValue)
    (do Os.close sock; Os.closeSelector; sink.close) (.setup .registration)
  match config.pollMillis with
  | .nothing => fails (.empty .pollTimeout)
  | .value n =>
    if Clock.holds T n then
      return {
        config, pollTimeout := Clock.millis n, sink, listener := { sock, address }, stats, control }
    else fails .delayTooLong

end Creation

variable {T : Type} [Clock T]

-- Stops accepting, ends every connection and releases the rest; done once.
def close : Run T (Relay T) Unit := do
  if ← gets Relay.closed then return ()
  else
    sets fun r => { r with closed := true }
    Os.stop .service
    closeListener
    let ended ← closeAll
    sets (count fun c => { c with closed := c.closed + ended })
    (← gets Relay.sink).close
    Os.closeSelector
    let now ← asks Host.clock
    sets fun r => { r with stats := { r.stats with finish := some now } }
    Os.log .info ("forwarder stopped; " ++ (← summary))

-- Serves one ready descriptor: the listener accepts, a connection is read. A connection that was
-- ended earlier in the same batch is passed over.
def serve (entry : Entry) : Run T (Relay T) Unit := do
  if entry.sock = (← gets (·.listener.sock)) then
    let _ ← acceptAll
  else
    match ← gets fun r => entry.conn.bind r.table.connection? with
    | none => return ()
    | some conn =>
      if conn.closed then return ()
      else
        match ← drain conn with
        | .stillOpen => return ()
        | _ =>
          teardown conn.sock
          sets (count fun c => { c with closed := c.closed + 1 })

def dispatch (entries : List (Int × Entry)) : Run T (Relay T) Unit :=
  entries.forM fun entry => serve entry.2

-- Looks at the console without waiting, where there is one.
def consoleAsksEnd : Run T (Relay T) Bool := do
  match ← gets Relay.control with
  | none => return false
  | some control =>
    let (control, requested) ← control.poll Clock.zero
    sets fun r => { r with control := some control }
    return requested

-- Waits for readiness and serves what is ready; a wait broken off by a signal serves nothing.
def waitAndServe : Run T (Relay T) Unit := do
  let timeout ← gets pollTimeout
  match ← outcome (do Os.select timeout (← overview)) with
  | .ok entries => dispatch entries
  | .error f =>
    if f.interrupted then return ()
    else
      onlyIf f.isOs (Os.log .error ("readiness wait failed: " ++ f.message))
      fails f

-- One turn of the loop; false when the console ended it.
def turn : Run T (Relay T) Bool := do
  if ← consoleAsksEnd then
    Os.log .info "shutdown requested from console"
    Os.stop .service
    return false
  else
    maybeResume
    waitAndServe
    return true

def turns : Nat → Run T (Relay T) Unit
  | 0 => return ()
  | fuel + 1 => do
    if ← Os.isSet .service then return ()
    else if ← turn then turns fuel
    else return ()

def announce : Run T (Relay T) Unit := do
  let relay ← gets id
  relay.sink.dest.logged?.forM fun dest =>
    Os.log .info ("forwarding tcp " ++ relay.listener.address.text ++ " -> udp " ++ dest)

-- Relays until told to stop, and closes everything however that ends. Each turn that goes on uses
-- up a batch or a fault.
def run : Run T (Relay T) Unit := do
  announce
  ensuring (do turns ((← asks Host.workload) + 2)) close

end StreamRelay.Relay
