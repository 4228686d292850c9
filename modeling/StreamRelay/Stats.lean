import StreamRelay.Clock

namespace StreamRelay

structure Counters where
  accepted : Int := 0
  closed : Int := 0
  datagrams : Int := 0
  bytes : Int := 0
  forwardFailures : Int := 0
  readErrors : Int := 0
  deriving DecidableEq, Repr, Inhabited

namespace Counters

def toList (c : Counters) : List Int :=
  [c.accepted, c.closed, c.datagrams, c.bytes, c.forwardFailures, c.readErrors]

-- The first six of the numbers in the order of `toList`, with zeros for those that are missing.
def ofList (ns : List Int) : Counters :=
  ⟨ns.getD 0 0, ns.getD 1 0, ns.getD 2 0, ns.getD 3 0, ns.getD 4 0, ns.getD 5 0⟩

theorem ofList_toList (c : Counters) : ofList c.toList = c := rfl

def forwarded (c : Counters) (sent : Bool) (size : Nat) : Counters :=
  if sent then { c with datagrams := c.datagrams + 1, bytes := c.bytes + size }
  else { c with forwardFailures := c.forwardFailures + 1 }

end Counters

structure Stats (T : Type) where
  counters : Counters
  start : T
  finish : Option T

namespace Stats
variable {T : Type} [Clock T]

def starting (now : T) : Stats T := ⟨{}, now, none⟩

-- Time between start and end, or until now while there is no end.
def duration (s : Stats T) (now : T) : T := Clock.clamp (Clock.sub (s.finish.getD now) s.start)

def summary (s : Stats T) (now : T) : String :=
  let c := s.counters
  "connections=" ++ toString c.accepted ++ " closed=" ++ toString c.closed ++
    " datagrams=" ++ toString c.datagrams ++ " bytes=" ++ toString c.bytes ++
    " forward_failures=" ++ toString c.forwardFailures ++
    " read_errors=" ++ toString c.readErrors ++
    " uptime=" ++ Clock.fixed 1 (s.duration now) ++ "s"

end Stats
end StreamRelay
