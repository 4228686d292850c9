import StreamRelay.Host.Run

namespace StreamRelay.Os
variable {T P : Type} [Clock T] [Resumable T P]
open Run

def opened (id : SocketId) : Run T P (Sock T) := fun m =>
  match m.host.sock? id with
  | some s => if s.isOpen then .ok s m else .error (.os .badDescriptor) m
  | none => .error (.os .badDescriptor) m

def number (id : SocketId) : Run T P Int := asks (·.number id)

def alter (id : SocketId) (f : Sock T → Sock T) : Run T P Unit := changes (·.alter id f)

def allocate (transport : Transport) : Run T P SocketId := fun m =>
  let sock : Sock T := { fd := m.host.freeNumber, transport }
  .ok m.host.sockets.length { m with host := { m.host with sockets := m.host.sockets ++ [sock] } }

def socket (transport : Transport) : Run T P SocketId := do
  emits (.begun .socket none)
  let _ ← incident .socket
  let id ← allocate transport
  emits (.socket transport (← number id))
  return id

def close (id : SocketId) : Run T P Unit := changes fun h =>
  if h.isOpen id then
    (h.alter id fun s => { s with isOpen := false }).emit (.closed id (h.number id))
  else h

def setBlocking (id : SocketId) (blocking : Bool) : Run T P Unit := noting .setBlocking id do
  emits (.setBlocking (← number id) blocking)
  let _ ← incident .setBlocking
  let _ ← opened id
  alter id fun s => { s with timeout := if blocking then none else some Clock.zero }

def setTimeout (id : SocketId) (timeout : Option T) : Run T P Unit := noting .setTimeout id do
  emits (.setTimeout (← number id) timeout)
  let _ ← incident .setTimeout
  let _ ← opened id
  alter id fun s => { s with timeout }

def reuseAddress (id : SocketId) : Run T P Unit := do
  emits (.reuseAddress (← number id))
  let _ ← incident .setOption
  let _ ← opened id

-- Port 0 asks for any; the host then takes 40000 plus the descriptor number.
def bind (id : SocketId) (address : Address) : Run T P Unit := do
  emits (.bind (← number id) address)
  let _ ← incident .bind
  let s ← opened id
  let port := if address.port = .value 0 then .value (40000 + s.fd) else address.port
  alter id fun s => { s with name := ⟨address.host, port⟩ }
  onlyIf (s.transport = .datagram) <| changes fun h =>
    { h.alter id (Sock.takeIn h.early) with
      server := some id, early := [] }

def listen (id : SocketId) (backlog : Given Int) : Run T P Unit := do
  emits (.listen (← number id) backlog)
  let _ ← incident .listen
  let _ ← opened id
  changes fun h =>
    { h.alter id (fun s => { s with backlog := s.backlog ++ h.waiting }) with
      listener := some id, waiting := [] }

def name (id : SocketId) : Run T P Address := return (← opened id).name

def takeAccepted (id : SocketId) : Run T P (Option SocketId) := fun m =>
  match (m.host.sock? id).map Sock.backlog with
  | some (first :: rest) =>
    .ok (some first) { m with host := m.host.alter id fun s => { s with backlog := rest } }
  | _ => .ok none m

def awaitConnection (id : SocketId) (timeout : Option T) : Run T P Unit := do
  let _ ← await
  if (← opened id).backlog.isEmpty then
    advance (timeout.getD Clock.zero)
    fails (.os .timedOut)
  else return ()

-- Accepts the oldest waiting connection, and waits for one if the socket waits.
def accept (id : SocketId) : Run T P (SocketId × Address) := do
  emits (.begun .accept (some id))
  let _ ← incident .accept
  let s ← opened id
  onlyIf (s.backlog.isEmpty && s.waits) (awaitConnection id s.timeout)
  match ← takeAccepted id with
  | none => fails (.os .wouldBlock)
  | some conn =>
    emits (.accept conn (← number conn))
    return (conn, (← asks (·.peer conn)).address)

def receive (id : SocketId) (limit : Nat) : Run T P Bytes := noting .receive id do
  emits (.begun .receive (some id))
  let _ ← incident .receive
  let s ← opened id
  if s.reset then fails (.os .resetByPeer)
  else if !s.unread.isEmpty then
    alter id fun s => { s with unread := s.unread.drop limit }
    emits (.received id (s.unread.take limit))
    return s.unread.take limit
  else if s.ended || s.shut || s.waits then
    emits (.received id [])
    return []
  else fails (.os .wouldBlock)

-- The first bytes of the next datagram, whose rest is lost. A negative limit leaves out so many
-- at the end.
def receiveFrom (id : SocketId) (limit : Int) : Run T P Bytes := do
  emits (.begun .receiveFrom (some id))
  let _ ← incident .receiveFrom
  let s ← opened id
  onlyIf s.inbox.isEmpty (do let _ ← await)
  let s ← opened id
  match s.inbox with
  | [] =>
    advance (s.timeout.getD Clock.zero)
    fails (.os .timedOut)
  | data :: rest =>
    alter id fun s => { s with inbox := rest }
    emits (.received id (Bytes.cut limit data))
    return Bytes.cut limit data

def send (id : SocketId) (data : Bytes) : Run T P Int := do
  let scripted ← incident .send
  let s ← opened id
  let count := scripted.getD data.length
  emits (.send s.fd data count)
  return count

def sendTo (id : SocketId) (data : Bytes) (dest : Address) : Run T P Unit := noting .sendTo id do
  emits (.begun .sendTo (some id))
  let _ ← incident .sendTo
  let s ← opened id
  emits (.datagram s.fd data dest)

-- Ends the stream in both directions, which also ends what waits on it.
def shutdown (id : SocketId) : Run T P Unit := do
  changes fun h => { h with shutdowns := h.shutdowns ++ [h.number id] }
  let _ ← incident .shutdown
  let _ ← opened id
  alter id fun s => { s with shut := true }

def lookup (address : Address) : Run T P (List Address) := do
  emits (.lookup address)
  let _ ← incident .lookup
  match address.host with
  | .nothing => fails (.empty .lookup)
  | .value host => asks fun h => (h.resolve.lookup host).getD [address]

def connect (address : Address) (timeout : Option T) : Run T P SocketId := do
  emits (.connect address timeout)
  let _ ← incident .connect
  let id ← allocate .stream
  alter id fun s => { s with timeout }
  return id

end StreamRelay.Os
