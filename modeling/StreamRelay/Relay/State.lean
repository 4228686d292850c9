import StreamRelay.Control
import StreamRelay.Host.Selector
import StreamRelay.Relay.Table
import StreamRelay.Sink

namespace StreamRelay

structure Listener (T : Type) where
  sock : SocketId
  address : Address
  closed : Bool := false
  -- When it is to be watched again, while it rests.
  resumeAt : Option T := none

def Listener.paused {T : Type} (l : Listener T) : Bool := l.resumeAt.isSome

structure Relay (T : Type) where
  config : Config
  pollTimeout : T
  sink : Sink
  listener : Listener T
  stats : Stats T
  control : Option Control := none
  table : Table := {}
  closed : Bool := false

namespace Relay
variable {T : Type}

instance : Resumable T (Relay T) := ⟨fun h p => (h, p)⟩

variable [Clock T]

def setTable (f : Table → Table) (r : Relay T) : Relay T := { r with table := f r.table }

def setListener (f : Listener T → Listener T) (r : Relay T) : Relay T :=
  { r with listener := f r.listener }

def count (f : Counters → Counters) (r : Relay T) : Relay T :=
  { r with stats := { r.stats with counters := f r.stats.counters } }

open Run

def overview : Run T (Relay T) Overview := do
  let watched ← asks Host.watched
  let relay ← gets id
  return ⟨relay.stats.counters, watched, relay.table.live.map Prod.snd⟩

def summary : Run T (Relay T) String := do
  let now ← asks Host.clock
  gets (·.stats.summary now)

end Relay
end StreamRelay
