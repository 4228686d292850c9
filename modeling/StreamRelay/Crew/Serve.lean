import StreamRelay.Crew.State
import StreamRelay.Endpoint

namespace StreamRelay.Crew
open Run

def create {T P : Type} [Clock T] [Resumable T P] (config : Config) (sink : Option Sink) :
    Run T P (Crew T) := do
  let sink ← Sink.orResolve sink config.udp
  match ← outcome (Endpoint.listening config.listen config.backlog true) with
  | .error f =>
    if f.isSetup then
      sink.close
      fails f
    else fails f
  | .ok sock =>
    Os.setTimeout sock (some (Clock.millis Defaults.acceptMillis))
    return {
      bufferSize := config.bufferSize, sock, address := ← Os.name sock, sink,
      stats := Stats.starting (← asks Host.clock) }

variable {T : Type} [Clock T]

def stop : Run T (Crew T) Unit := Os.stop .service

-- Notes a read that failed; once the end was asked for, it does not count.
def noteReadError (peer : Address) (f : Failure) : Run T (Crew T) Unit := do
  if ← Os.isSet .service then return ()
  else
    Os.log .warning ("read from " ++ peer.text ++ " failed: " ++ f.message)
    sets recordReadError

def readOnce (sock : SocketId) (peer : Address) : Run T (Crew T) Bool := do
  let limit ← gets bufferSize
  match ← outcome (Os.receive sock limit) with
  | .error f =>
    if f.isOs then
      noteReadError peer f
      return false
    else fails f
  | .ok data =>
    if data.isEmpty then return false
    else
      let sent ← (← gets sink).forward data (some sock)
      sets (record sent data.length)
      return true

def readFor (sock : SocketId) (peer : Address) : Nat → Run T (Crew T) Unit
  | 0 => return ()
  | fuel + 1 => do
    if ← readOnce sock peer then readFor sock peer fuel
    else return ()

-- What a reader does: it reads to the end, closes its socket in any case, and signs off. Each read
-- that goes on uses up unread bytes or a fault.
def attend (sock : SocketId) (peer : Address) : Run T (Crew T) Unit := do
  ensuring (do readFor sock peer ((← asks Host.workload) + 1)) (Os.close sock)
  Os.log .info ("client " ++ peer.text ++ " disconnected")
  sets (untrack sock)

def finish (r : Reader) : Run T (Crew T) Unit := do
  Os.runThread r.thread (attend r.sock r.peer)
  sets (setAlive r.thread false)

def start (r : Reader) : Run T (Crew T) Unit := do
  emits (.threadStart r.thread)
  sets (setAlive r.thread true)
  match ← asks Host.clientMode with
  | .inline => finish r
  | .deferred => return ()

def join (r : Reader) (timeout : Option T) : Run T (Crew T) Unit := do
  emits (.threadJoin r.thread timeout)
  onlyIf (← gets (isAlive r.thread)) (finish r)

-- Wakes a reader that waits for its client; a socket that is gone already needs no waking.
def wake (sock : SocketId) : Run T (Crew T) Unit := do
  match ← outcome (Os.shutdown sock) with
  | .ok _ => return ()
  | .error f => if f.isOs then return () else fails f

-- Stops accepting, wakes and joins the readers and releases the sink; done once.
def close (joinTimeout : Option T) : Run T (Crew T) Unit := do
  if ← gets closed then return ()
  else
    sets fun c => { c with closed := true }
    stop
    Os.close (← gets sock)
    (← gets clients).forM wake
    (← gets readers).forM (join · joinTimeout)
    (← gets sink).close
    let now ← asks Host.clock
    Os.log .info ("forwarder stopped; " ++ (← gets (·.stats.summary now)))

-- Accepts one client and starts its reader; a timeout or a refusal accepts nobody.
def acceptOne : Run T (Crew T) Unit := do
  match ← outcome (Os.accept (← gets sock)) with
  | .error f =>
    if f.timedOut then return ()
    else if f.isOs then Os.log .error ("accept failed: " ++ f.message)
    else fails f
  | .ok (sock, peer) =>
    Os.setTimeout sock none
    sets (track sock)
    let reader : Reader := { thread := ← Os.newThread, sock, peer }
    sets (hire reader)
    start reader
    Os.log .info ("new client " ++ peer.text)

def accepts : Nat → Run T (Crew T) Unit
  | 0 => return ()
  | fuel + 1 => do
    if ← Os.isSet .service then return ()
    else
      acceptOne
      accepts fuel

-- Serves until told to stop, and closes everything however that ends. Each accept uses up a waiting
-- client, a batch or a fault.
def serve : Run T (Crew T) Unit := do
  let crew ← gets id
  crew.sink.dest.logged?.forM fun dest =>
    Os.log .info ("forwarding tcp " ++ crew.address.text ++ " -> udp " ++ dest ++
      " (thread per connection)")
  ensuring (do accepts ((← asks Host.workload) + 2))
    (close (some (Clock.millis Defaults.joinMillis)))

end StreamRelay.Crew
