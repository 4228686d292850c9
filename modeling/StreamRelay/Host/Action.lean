import StreamRelay.Host.State

namespace StreamRelay.Host
variable {T : Type} [Clock T]

-- Puts a socket of a new client on the host, not yet known to any listener.
def addClient (h : Host T) (c : Incoming) : Host T × SocketId :=
  let standard : Address := ⟨"10.0.0." ++ toString (h.clients + 1), (5000 + h.clients : Int)⟩
  let sock : Sock T := {
    fd := c.fd.getD h.freeNumber, transport := .stream, isOpen := !c.dead
    arrived := c.data, unread := c.data, ended := c.ended, reset := c.reset
    peer := c.peer.getD ⟨standard, []⟩, client := some h.clients }
  ({ h with sockets := h.sockets ++ [sock], clients := h.clients + 1 }, h.sockets.length)

def client? (h : Host T) (client : Nat) : Option SocketId :=
  h.sockets.findIdx? (·.client = some client)

-- The client that an event concerns, if none of that number has come yet.
def stranger? (h : Host T) : Action T → Option Nat
  | .send c _ | .finish c | .reset c => if (h.client? c).isSome then none else some c
  | _ => none

def alterClient (h : Host T) (client : Nat) (f : Sock T → Sock T) : Host T :=
  (h.client? client).elim h (h.alter · f)

-- Everything but running the worker thread, which needs the program.
def apply (h : Host T) : Action T → Host T
  | .connect c =>
    let (h, id) := h.addClient c
    match h.listener with
    | some l => h.alter l fun s => { s with backlog := s.backlog ++ [id] }
    | none => { h with waiting := h.waiting ++ [id] }
  | .send c data =>
    h.alterClient c fun s => { s with
      arrived := s.arrived ++ data, unread := s.unread ++ data
      late := if s.ended then s.late ++ data else s.late }
  | .finish c => h.alterClient c fun s => { s with ended := true }
  | .reset c => h.alterClient c fun s => { s with reset := true }
  | .console data => { h with console := h.console ++ data }
  | .consoleEnd => { h with consoleEnded := true }
  | .advance d => { h with clock := Clock.add h.clock d }
  | .fault call next => { h with faults := h.faults ++ next.map (call, ·) }
  | .datagram data =>
    match h.server with
    | some id => h.alter id (Sock.takeIn [data])
    | none => { h with early := h.early ++ [data] }
  | .closeServer => h.server.elim h (h.alter · fun s => { s with isOpen := false })
  | .stop => h.stop
  | .signal s => h.deliver s
  | .runWorker => h

end StreamRelay.Host
