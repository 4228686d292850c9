import StreamRelay.Host.Event

namespace StreamRelay

structure Connection where
  sock : SocketId
  peer : Address
  -- The number at admission; a closed socket has none any more.
  fd : Int
  registered : Bool := false
  closed : Bool := false
  deriving DecidableEq, Repr

def Connection.label (c : Connection) : String := c.peer.text ++ " (fd " ++ toString c.fd ++ ")"

structure Table where
  -- Every connection that was ever admitted, in order of admission.
  known : List Connection := []
  -- The live ones by number, in order of admission; each number at most once.
  live : List (Int × SocketId) := []
  deriving DecidableEq, Repr

namespace Table

def connection? (t : Table) (sock : SocketId) : Option Connection := t.known.find? (·.sock = sock)

def get? (t : Table) (fd : Int) : Option Connection := (t.live.lookup fd).bind t.connection?

def size (t : Table) : Nat := t.live.length

def toList (t : Table) : List Connection := t.live.filterMap fun entry => t.connection? entry.2

-- Whether this very connection is alive.
def contains (t : Table) (sock : SocketId) : Bool :=
  match t.connection? sock with
  | some c => t.live.lookup c.fd = some sock
  | none => false

-- Puts a socket under a number; one that has the number already loses its place to it.
def place (fd : Int) (sock : SocketId) : List (Int × SocketId) → List (Int × SocketId)
  | [] => [(fd, sock)]
  | entry :: rest => if entry.1 = fd then (fd, sock) :: rest else entry :: place fd sock rest

def insert (t : Table) (c : Connection) : Table :=
  { known := t.known ++ [c], live := place c.fd c.sock t.live }

def erase (t : Table) (fd : Int) : Table := { t with live := t.live.filter (·.1 ≠ fd) }

def alter (t : Table) (sock : SocketId) (f : Connection → Connection) : Table :=
  { t with known := t.known.map fun c => if c.sock = sock then f c else c }

end Table
end StreamRelay
