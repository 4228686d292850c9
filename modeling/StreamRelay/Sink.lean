import StreamRelay.Host.Socket

namespace StreamRelay

structure Sink where
  sock : SocketId
  dest : Address
  deriving DecidableEq, Repr

namespace Sink
variable {T P : Type} [Clock T] [Resumable T P]
open Run

def lookupFirst (address : Address) : Run T P Address := do
  match ← outcome (Os.lookup address) with
  | .error f =>
    if f.hasKind .lookup || f.isEncoding then fails (.setup (.lookup address.host) f) else fails f
  | .ok [] => fails .noAddress
  | .ok (dest :: _) => return dest

-- A sink to the first address of a host. It never waits: a full send buffer loses a datagram.
def resolve (address : Address) : Run T P Sink := do
  let dest ← lookupFirst address
  match ← outcome (Os.socket .datagram) with
  | .error f => if f.isOs then fails (.setup .udpSocket f) else fails f
  | .ok sock =>
    Os.setBlocking sock false
    return ⟨sock, dest⟩

def orResolve (given : Option Sink) (address : Address) : Run T P Sink :=
  match given with
  | some sink => return sink
  | none => resolve address

-- Sends one datagram, perhaps on behalf of a connection; false when the system refuses it.
def forward (sink : Sink) (data : Bytes) (origin : Option SocketId := none) : Run T P Bool := do
  emits (.offered origin data)
  let size := toString data.length
  let record (level : Level) (text : String → String) : Run T P Unit :=
    sink.dest.logged?.forM fun dest => Os.log level (text dest)
  match ← outcome (Os.sendTo sink.sock data sink.dest) with
  | .ok _ =>
    record .debug fun dest => "forwarded " ++ size ++ " bytes to " ++ dest
    return true
  | .error f =>
    if f.isOs then
      record .warning fun dest =>
        "udp forward of " ++ size ++ " bytes to " ++ dest ++ " failed: " ++ f.message
      return false
    else fails f

def close (sink : Sink) : Run T P Unit := Os.close sink.sock

end Sink
end StreamRelay
