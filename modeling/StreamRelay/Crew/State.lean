import StreamRelay.Host.Process
import StreamRelay.Sink
import StreamRelay.Stats

namespace StreamRelay

structure Reader where
  thread : Nat
  sock : SocketId
  peer : Address
  alive : Bool := false
  deriving DecidableEq, Repr

structure Crew (T : Type) where
  bufferSize : Nat
  sock : SocketId
  address : Address
  sink : Sink
  stats : Stats T
  -- Sockets whose readers have not finished, each once.
  clients : List SocketId := []
  readers : List Reader := []
  closed : Bool := false

namespace Crew
variable {T : Type}

-- A reader that is put off waits for its join.
instance : Resumable T (Crew T) := ⟨fun h p => (h, p)⟩

def count (f : Counters → Counters) (c : Crew T) : Crew T :=
  { c with stats := { c.stats with counters := f c.stats.counters } }

def track (sock : SocketId) (c : Crew T) : Crew T :=
  count (fun n => { n with accepted := n.accepted + 1 })
    { c with clients := if c.clients.contains sock then c.clients else c.clients ++ [sock] }

def record (sent : Bool) (size : Nat) (c : Crew T) : Crew T := c.count (·.forwarded sent size)

def recordReadError (c : Crew T) : Crew T :=
  c.count fun n => { n with readErrors := n.readErrors + 1 }

def untrack (sock : SocketId) (c : Crew T) : Crew T :=
  count (fun n => { n with closed := n.closed + 1 })
    { c with clients := c.clients.filter (· ≠ sock) }

-- Takes on a reader, and lets go of those that have ended.
def hire (r : Reader) (c : Crew T) : Crew T :=
  { c with readers := c.readers.filter Reader.alive ++ [r] }

def setAlive (thread : Nat) (alive : Bool) (c : Crew T) : Crew T :=
  { c with readers := c.readers.map fun r => if r.thread = thread then { r with alive } else r }

def isAlive (thread : Nat) (c : Crew T) : Bool :=
  c.readers.any fun r => r.thread = thread && r.alive

end Crew
end StreamRelay
