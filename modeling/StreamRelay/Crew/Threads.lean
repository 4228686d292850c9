import StreamRelay.Crew.Serve

namespace StreamRelay.Crew
open Run

-- Whether a stream came to its end or a read failed; a failed read may have come too late to count.
inductive Exit where
  | ended
  | broke (noted : Bool)
  deriving DecidableEq

-- Where a reader is between two of its turns. A turn is one call of the host, one look at the stop
-- flag or one edit under the lock, together with what is logged.
inductive Phase where
  | reading
  | holding (data : Bytes)
  | counting (data : Bytes) (sent : Bool)
  | failing (f : Failure)
  | noting
  | closing (exit : Exit)
  | signing (exit : Exit)
  | leaving (exit : Exit)
  | away (exit : Exit)
  -- A failure that is not the system's ends the thread, perhaps with data in hand.
  | dying (f : Failure) (lost : Option Bytes)
  | fading (lost : Option Bytes)
  | dead (lost : Option Bytes)

namespace Phase

def finished : Phase → Bool
  | away _ | dead _ => true
  | _ => false

def counts : Phase → List (Bytes × Bool)
  | counting data sent => [(data, sent)]
  | _ => []

end Phase

structure Hand where
  thread : Nat
  sock : SocketId
  peer : Address
  phase : Phase := .reading
  -- The payloads that were counted, and whether each was sent.
  counted : List (Bytes × Bool) := []

namespace Hand

def of (r : Reader) : Hand := { thread := r.thread, sock := r.sock, peer := r.peer }

def moved (hand : Hand) (phase : Phase) : Hand :=
  { hand with phase, counted := hand.counted ++ hand.phase.counts }

end Hand

inductive Why where
  | told
  | broken (f : Failure)
  -- A client was accepted and could not be made to wait.
  | unready (sock : SocketId) (f : Failure)
  deriving DecidableEq

def Why.failure : Why → Option Failure
  | told => none
  | broken f | unready _ f => some f

-- What is left to do when a crew is closed.
inductive Chore where
  | marking
  | telling
  | shutting
  | surveying
  | waking (sock : SocketId)
  | calling
  -- To join a thread is to wait for it a while; it may still be at work when the wait is away.
  | joining (r : Reader)
  | releasing
  | summing
  deriving DecidableEq

inductive Duty where
  | announcing
  | looking
  | accepting
  | preparing (sock : SocketId) (peer : Address)
  | listing (sock : SocketId) (peer : Address)
  | hiring (sock : SocketId) (peer : Address)
  | starting (r : Reader)
  | reporting (peer : Address)
  | closing (why : Why) (left : List Chore)
  -- Everything was done, or the closing itself was cut short.
  | gone (why : Why) (cut : Option Failure)
  deriving DecidableEq

-- The reader that the next turn sets to work.
def Duty.hires : Duty → List Hand
  | starting r => [.of r]
  | _ => []

variable {T : Type} [Clock T]

namespace Hand

def next (hand : Hand) : Run T (Crew T) Phase :=
  match hand.phase with
  | .reading => do
    match ← outcome (Os.receive hand.sock (← gets bufferSize)) with
    | .error f => return if f.isOs then .failing f else .dying f none
    | .ok data => return if data.isEmpty then .closing .ended else .holding data
  | .holding data => do
    match ← outcome ((← gets sink).forward data (some hand.sock)) with
    | .error f => return .dying f (some data)
    | .ok sent => return .counting data sent
  | .counting data sent => do
    sets (record sent data.length)
    return .reading
  | .failing f => do
    if ← Os.isSet .service then return .closing (.broke false)
    else
      Os.log .warning ("read from " ++ hand.peer.text ++ " failed: " ++ f.message)
      return .noting
  | .noting => do
    sets recordReadError
    return .closing (.broke true)
  | .closing exit => do
    Os.close hand.sock
    Os.log .info ("client " ++ hand.peer.text ++ " disconnected")
    return .signing exit
  | .signing exit => do
    sets (untrack hand.sock)
    return .leaving exit
  | .leaving exit => do
    sets (setAlive hand.thread false)
    return .away exit
  | .dying f lost => do
    Os.close hand.sock
    emits (.threadDied hand.thread f)
    return .fading lost
  | .fading lost => do
    sets (setAlive hand.thread false)
    return .dead lost
  | .away exit => return .away exit
  | .dead lost => return .dead lost

def turn (hand : Hand) : Run T (Crew T) Hand := return hand.moved (← hand.next)

end Hand

def Chore.turn : Chore → Run T (Crew T) (List Chore)
  | .marking => do
    if ← gets closed then return []
    else
      sets fun c => { c with closed := true }
      return [.telling, .shutting, .surveying, .calling, .releasing, .summing]
  | .telling => do
    stop
    return []
  | .shutting => do
    Os.close (← gets sock)
    return []
  | .surveying => return (← gets clients).map .waking
  | .waking sock => do
    wake sock
    return []
  | .calling => return (← gets readers).map .joining
  | .joining r => do
    emits (.threadJoin r.thread (some (Clock.millis Defaults.joinMillis)))
    return []
  | .releasing => do
    (← gets sink).close
    return []
  | .summing => do
    let now ← asks Host.clock
    Os.log .info ("forwarder stopped; " ++ (← gets (·.stats.summary now)))
    return []

def Duty.turn : Duty → Run T (Crew T) Duty
  | .announcing => do
    let crew ← gets id
    crew.sink.dest.logged?.forM fun dest =>
      Os.log .info ("forwarding tcp " ++ crew.address.text ++ " -> udp " ++ dest ++
        " (thread per connection)")
    return .looking
  | .looking => do
    if ← Os.isSet .service then return .closing .told [.marking]
    else return .accepting
  | .accepting => do
    match ← outcome (Os.accept (← gets sock)) with
    | .error f =>
      if f.timedOut then return .looking
      else if f.isOs then
        Os.log .error ("accept failed: " ++ f.message)
        return .looking
      else return .closing (.broken f) [.marking]
    | .ok (sock, peer) => return .preparing sock peer
  | .preparing sock peer => do
    match ← outcome (Os.setTimeout sock none) with
    | .error f => return .closing (.unready sock f) [.marking]
    | .ok _ => return .listing sock peer
  | .listing sock peer => do
    sets (track sock)
    return .hiring sock peer
  | .hiring sock peer => do
    let reader : Reader := { thread := ← Os.newThread, sock, peer }
    sets (hire reader)
    return .starting reader
  | .starting r => do
    emits (.threadStart r.thread)
    sets (setAlive r.thread true)
    return .reporting r.peer
  | .reporting peer => do
    Os.log .info ("new client " ++ peer.text)
    return .looking
  | .closing why [] => return .gone why none
  | .closing why (chore :: rest) => do
    match ← outcome chore.turn with
    | .error f => return .gone why (some f)
    | .ok more => return .closing why (more ++ rest)
  | .gone why cut => return .gone why cut

-- Where all the threads of a crew are: the loop that accepts and then closes, and the readers in the
-- order in which they were set to work.
structure Roster where
  duty : Duty := .announcing
  hands : List Hand := []

namespace Roster

def turn (s : Roster) : Nat → Run T (Crew T) Roster
  | 0 => return ⟨← s.duty.turn, s.hands ++ s.duty.hires⟩
  | i + 1 =>
    match s.hands[i]? with
    | none => return s
    | some hand => return { s with hands := s.hands.set i (← hand.turn) }

-- How the loop has ended, if it has.
def ended (s : Roster) : Option (Option Failure) :=
  match s.duty with
  | .gone why cut => some (cut.or why.failure)
  | _ => none

end Roster

def Chore.joins (thread : Nat) : Chore → Bool
  | .joining r => r.thread = thread
  | .releasing | .summing => false
  | _ => true

-- Whether a reader that was set to work goes on by itself. One that is put off waits to be joined.
def Duty.frees (duty : Duty) (thread : Nat) : ThreadMode → Bool
  | .inline => true
  | .deferred =>
    match duty with
    | .closing _ left => !left.any (·.joins thread)
    | _ => false

-- Whose turn it is if nothing says so: that of the first reader that can go on, or else of the loop.
def Roster.due (s : Roster) (mode : ThreadMode) : Nat :=
  match s.hands.findIdx? fun hand => !hand.phase.finished && s.duty.frees hand.thread mode with
  | some i => i + 1
  | none => 0

-- The turns that are left once the end was asked for.
def Phase.weight : Phase → Nat
  | .away _ | .dead _ => 0
  | .leaving _ | .fading _ => 1
  | .signing _ | .dying .. => 2
  | .closing _ => 3
  | .noting => 4
  | .failing _ => 5
  | .reading => 6
  | .counting .. => 7
  | .holding _ => 8

def Hand.weight (hand : Hand) : Nat := hand.phase.weight

section Weights
variable (c : Crew T)

def Chore.weight : Chore → Nat
  | .telling | .shutting | .waking _ | .joining _ | .releasing | .summing => 1
  | .surveying => 1 + c.clients.length
  | .calling => 1 + c.readers.length
  | .marking => 7 + c.clients.length + c.readers.length

def Duty.weight : Duty → Nat
  | .gone .. => 0
  | .closing _ left => 1 + weigh (Chore.weight c) left
  | .looking => 9 + c.clients.length + c.readers.length
  | .announcing | .reporting _ => 10 + c.clients.length + c.readers.length
  | .starting _ => 17 + c.clients.length + c.readers.length
  | .hiring .. => 19 + c.clients.length + c.readers.length
  | .listing .. => 21 + c.clients.length + c.readers.length
  | .preparing .. => 22 + c.clients.length + c.readers.length
  | .accepting => 23 + c.clients.length + c.readers.length

end Weights

end StreamRelay.Crew
