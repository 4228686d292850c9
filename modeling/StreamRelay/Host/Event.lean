import StreamRelay.Host.Script
import StreamRelay.Stats

namespace StreamRelay

inductive Level where
  | debug | info | warning | error | critical
  deriving DecidableEq, Repr

namespace Level

def all : List Level := [debug, info, warning, error, critical]

def rank : Level → Nat
  | debug => 0
  | info => 1
  | warning => 2
  | error => 3
  | critical => 4

def name : Level → String
  | debug => "DEBUG"
  | info => "INFO"
  | warning => "WARNING"
  | error => "ERROR"
  | critical => "CRITICAL"

def ofName? (name : String) : Option Level := all.find? (·.name = name)

end Level

inductive Transport where
  | stream | datagram
  deriving DecidableEq, Repr

-- A socket of the host, open or not.
abbrev SocketId := Nat

-- What can be told to stop: the service itself, or the command that waits for it.
inductive Flag where
  | service | command
  deriving DecidableEq, Repr

structure Overview where
  counters : Counters := {}
  watched : List Int := []
  live : List SocketId := []

inductive Event (T : Type) where
  -- A call begins that may end without leaving another event.
  | begun (call : Call) (sock : Option SocketId)
  | received (sock : SocketId) (data : Bytes)
  -- A payload was handed to the sink, on behalf of a connection.
  | offered (origin : Option SocketId) (data : Bytes)
  | told (flag : Flag)
  | rests (resumeAt : T)
  | socket (transport : Transport) (fd : Int)
  | closed (sock : SocketId) (fd : Int)
  | setBlocking (fd : Int) (blocking : Bool)
  | setTimeout (fd : Int) (timeout : Option T)
  | reuseAddress (fd : Int)
  | bind (fd : Int) (address : Address)
  | listen (fd : Int) (backlog : Given Int)
  | accept (sock : SocketId) (fd : Int)
  -- These bytes were offered, and this count of them reported as accepted.
  | send (fd : Int) (offered : Bytes) (count : Int)
  | datagram (fd : Int) (data : Bytes) (dest : Address)
  | lookup (address : Address)
  | connect (address : Address) (timeout : Option T)
  | register (fd : Int)
  | unregister (fd : Int)
  | ready (timeout : T) (fds : List Int) (overview : Overview)
  | selectorClosed
  | poll (fd : Int) (timeout : T) (readable : Bool)
  | read (fd : Int) (limit : Nat) (data : Bytes)
  | wait (timeout : T)
  | threadStart (thread : Nat)
  | threadJoin (thread : Nat) (timeout : Option T)
  | threadDied (thread : Nat) (failure : Failure)
  | signal (s : Signal) (handled : Bool)
  | openFile (path : Given String)
  | write (data : Bytes)
  | flush
  | fileClosed
  | log (level : Level) (text : String)

structure Stamped (T : Type) where
  time : T
  event : Event T

end StreamRelay
