import StreamRelay.Host.Socket

namespace StreamRelay.Endpoint
variable {T P : Type} [Clock T] [Resumable T P]
open Run

-- One step of a setup; if the system refuses it, the socket is closed and the step named.
def guarded (sock : SocketId) (step : SetupStep) (act : Run T P Unit) : Run T P Unit := do
  match ← outcome act with
  | .ok _ => return ()
  | .error f =>
    if f.isOs then
      Os.close sock
      fails (.setup step f)
    else fails f

def newSocket (transport : Transport) (step : SetupStep) : Run T P SocketId := do
  match ← outcome (Os.socket transport) with
  | .ok sock => return sock
  | .error f => if f.isOs then fails (.setup step f) else fails f

def listening (address : Address) (backlog : Given Int) (blocking : Bool) : Run T P SocketId := do
  let sock ← newSocket .stream .tcpSocket
  guarded sock .reuseAddress (Os.reuseAddress sock)
  guarded sock .bind (Os.bind sock address)
  guarded sock .listen do
    Os.listen sock backlog
    Os.setBlocking sock blocking
  return sock

-- A bound datagram socket, which waits for ever unless the timeout is a positive one.
def receiving (address : Address) (timeout : T) : Run T P SocketId := do
  let sock ← newSocket .datagram .udpSocket
  guarded sock .bind (Os.bind sock address)
  onlyIf (Clock.before Clock.zero timeout) (Os.setTimeout sock (some timeout))
  return sock

end StreamRelay.Endpoint
