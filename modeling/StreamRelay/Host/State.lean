import StreamRelay.Host.Event
import StreamRelay.Message

namespace StreamRelay

structure Sock (T : Type) where
  fd : Int
  transport : Transport
  isOpen : Bool := true
  -- How long calls wait; none is for ever.
  timeout : Option T := none
  name : Address := ⟨Defaults.listenHost, (0 : Int)⟩
  backlog : List SocketId := []
  -- All that the peer has sent.
  arrived : Bytes := []
  -- What of that nobody has read.
  unread : Bytes := []
  ended : Bool := false
  -- What came although the stream had ended.
  late : Bytes := []
  reset : Bool := false
  shut : Bool := false
  -- All datagrams that have come, oldest first.
  came : List Bytes := []
  -- Those of them that nobody has taken.
  inbox : List Bytes := []
  peer : Peer := ⟨⟨"", (0 : Int)⟩, []⟩
  client : Option Nat := none

namespace Sock
variable {T : Type}

def weight (s : Sock T) : Nat := s.unread.length + s.backlog.length + s.inbox.length

def takeIn (datagrams : List Bytes) (s : Sock T) : Sock T :=
  { s with came := s.came ++ datagrams, inbox := s.inbox ++ datagrams }

-- Whether calls on the socket wait at all.
def waits [Clock T] (s : Sock T) : Bool := s.timeout.elim true fun t => !Clock.isZero t

-- Whether a wait for readiness reports the socket.
def ready (s : Sock T) : Bool :=
  s.isOpen && (!s.backlog.isEmpty || !s.unread.isEmpty || s.ended || s.reset)

end Sock

-- A watched descriptor's socket, and the connection it belongs to unless it is a listener.
structure Entry where
  sock : SocketId
  conn : Option SocketId
  deriving DecidableEq, Repr

-- A call on a socket that failed, and whether the socket was open and watched at that time.
structure Refusal where
  call : Call
  sock : SocketId
  watched : Bool
  cause : Failure
  deriving DecidableEq, Repr

inductive Ending where
  | raises (flag : Flag)
  -- Whatever the terminate signal and the worker thread stop.
  | terminates
  deriving DecidableEq, Repr

inductive ThreadMode where
  | inline | deferred
  deriving DecidableEq, Repr

structure Host (T : Type) where
  clock : T
  now : Timestamp := ⟨2024, 1, 2, 3, 4, 5⟩
  sockets : List (Sock T) := []
  selectorOpen : Bool := false
  -- Watched descriptors; each number at most once.
  entries : List (Int × Entry) := []
  faults : List (Call × Fault T) := []
  batches : List (Batch T) := []
  resolve : List (String × List Address) := []
  clients : Nat := 0
  listener : Option SocketId := none
  -- Clients that came before anyone listened.
  waiting : List SocketId := []
  server : Option SocketId := none
  -- Datagrams that came before anyone was bound.
  early : List Bytes := []
  console : Bytes := []
  consoleEnded : Bool := false
  serviceStop : Bool := false
  commandStop : Bool := false
  ending : Ending := .raises .service
  onInterrupt : Option Flag := none
  onTerminate : Option Flag := none
  -- What stops the worker thread, once it has run.
  workerStop : Option Flag := none
  threads : Nat := 0
  workerMode : ThreadMode := .inline
  -- Whose turn it is in the worker at each of the next places where it gets in; once none is left it
  -- goes on to its end where it is run, and waits elsewhere.
  plan : List (List Nat) := []
  clientMode : ThreadMode := .inline
  shutdowns : List Int := []
  refusals : List Refusal := []
  fileOpen : Bool := false
  stdout : String := ""
  stderr : String := ""
  -- Where log records go: to the observer, or to standard error from a level on.
  logLevel : Option Level := none
  stamp : String := "TIME"
  -- Newest first.
  trace : List (Stamped T) := []

namespace Host
variable {T : Type}

def sock? (h : Host T) (id : SocketId) : Option (Sock T) := h.sockets[id]?

-- The descriptor number that a socket has or had.
def number (h : Host T) (id : SocketId) : Int := ((h.sock? id).map Sock.fd).getD (-1)

def peer (h : Host T) (id : SocketId) : Peer :=
  ((h.sock? id).map Sock.peer).getD ⟨⟨"", (0 : Int)⟩, []⟩

def isOpen (h : Host T) (id : SocketId) : Bool := ((h.sock? id).map Sock.isOpen).getD false

-- The descriptor number while the socket is open, else -1.
def fileno (h : Host T) (id : SocketId) : Int := if h.isOpen id then h.number id else -1

def alter (h : Host T) (id : SocketId) (f : Sock T → Sock T) : Host T :=
  { h with sockets := h.sockets.modify id f }

def openNumbers (h : Host T) : List Int := (h.sockets.filter Sock.isOpen).map Sock.fd

-- The lowest number from 3 on that no open socket has.
def freeNumber (h : Host T) : Int :=
  let used := h.openNumbers
  let tried : List Int := (List.range (used.length + 1)).map fun n => Int.ofNat (n + 3)
  (tried.find? (!used.contains ·)).getD 3

def watching? (h : Host T) (fd : Int) : Option Entry := h.entries.lookup fd

def watches (h : Host T) (id : SocketId) : Bool := h.isOpen id && (h.watching? (h.number id)).isSome

def note (h : Host T) (call : Call) (id : SocketId) (cause : Failure) : Host T :=
  { h with refusals := ⟨call, id, h.watches id, cause⟩ :: h.refusals }

def watched (h : Host T) : List Int := (h.entries.map Prod.fst).mergeSort (· ≤ ·)

def isSet (h : Host T) : Flag → Bool
  | .service => h.serviceStop
  | .command => h.commandStop

def emit (h : Host T) (e : Event T) : Host T := { h with trace := ⟨h.clock, e⟩ :: h.trace }

def raise (h : Host T) (flag : Flag) : Host T :=
  let h := h.emit (.told flag)
  match flag with
  | .service => { h with serviceStop := true }
  | .command => { h with commandStop := true }

def handler (h : Host T) : Signal → Option Flag
  | .interrupt => h.onInterrupt
  | .terminate => h.onTerminate

def setHandler (h : Host T) (s : Signal) (flag : Option Flag) : Host T :=
  match s with
  | .interrupt => { h with onInterrupt := flag }
  | .terminate => { h with onTerminate := flag }

-- A signal arrives; without a handler nothing happens.
def deliver (h : Host T) (s : Signal) : Host T := (h.handler s).elim h h.raise

def stop (h : Host T) : Host T :=
  match h.ending with
  | .raises flag => h.raise flag
  | .terminates =>
    let h := h.deliver .terminate
    h.workerStop.elim h h.raise

def popFault (call : Call) : List (Call × Fault T) → Option (Fault T) × List (Call × Fault T)
  | [] => (none, [])
  | (c, f) :: rest =>
    if c = call then (some f, rest)
    else let (found, left) := popFault call rest; (found, (c, f) :: left)

-- Whether there is anything that a script that has run out can stop.
def canStop (h : Host T) : Bool :=
  match h.ending with
  | .raises _ => true
  | .terminates => h.onTerminate.isSome || h.workerStop.isSome

def takeTrace (h : Host T) : List (Stamped T) × Host T := (h.trace.reverse, { h with trace := [] })

-- No less than the number of things that can still come out of the host.
def workload (h : Host T) : Nat :=
  weigh Batch.weight h.batches + weigh (fun f => f.2.weight) h.faults +
    weigh Sock.weight h.sockets + h.waiting.length + h.early.length + h.console.length

end Host
end StreamRelay
