import StreamRelay.Defaults
import StreamRelay.Given
import StreamRelay.Text.Quoted

namespace StreamRelay

inductive OsKind where
  | other | permission | notFound | noProcess | interrupted | noChild | wouldBlock | alreadyExists
  | notDirectory | isDirectory | brokenPipe | aborted | reset | timedOut | refused | lookup
  deriving DecidableEq, Repr

def OsKind.ofNumber (n : Int) : OsKind :=
  if n = 1 ∨ n = 13 then .permission
  else if n = 2 then .notFound
  else if n = 3 then .noProcess
  else if n = 4 then .interrupted
  else if n = 10 then .noChild
  else if n = 11 ∨ n = 114 ∨ n = 115 then .wouldBlock
  else if n = 17 then .alreadyExists
  else if n = 20 then .notDirectory
  else if n = 21 then .isDirectory
  else if n = 32 ∨ n = 108 then .brokenPipe
  else if n = 103 then .aborted
  else if n = 104 then .reset
  else if n = 110 then .timedOut
  else if n = 111 then .refused
  else .other

structure OsError where
  kind : OsKind
  number : Option Int
  text : String
  path : Option String := none
  deriving DecidableEq, Repr

namespace OsError

def ofNumber (n : Int) (text : String) (path : Option String := none) : OsError :=
  ⟨.ofNumber n, some n, text, path⟩

def badDescriptor : OsError := ofNumber 9 "Bad file descriptor"

def wouldBlock : OsError := ofNumber 11 "Resource temporarily unavailable"

def resetByPeer : OsError := ofNumber 104 "Connection reset by peer"

def timedOut : OsError := ⟨.timedOut, none, "timed out", none⟩

def message (e : OsError) : String :=
  match e.number, e.path with
  | none, _ => e.text
  | some n, none => "[Errno " ++ toString n ++ "] " ++ e.text
  | some n, some path => "[Errno " ++ toString n ++ "] " ++ e.text ++ ": " ++ Text.quoted path

end OsError

inductive SetupStep where
  | lookup (host : Given String)
  | udpSocket | tcpSocket | reuseAddress | bind | listen | selector | registration
  deriving DecidableEq, Repr

def SetupStep.text : SetupStep → String
  | lookup host => "invalid UDP host " ++ host.shown Text.quoted
  | udpSocket => "udp socket"
  | tcpSocket => "tcp socket"
  | reuseAddress => "setsockopt SO_REUSEADDR"
  | bind => "bind"
  | listen => "listen"
  | selector => "selector"
  | registration => "register listener"

-- Where an empty argument is not enough.
inductive Need where
  | level | bufferSize | pollTimeout | lookup
  deriving DecidableEq, Repr

def Need.text : Need → String
  | level => "attribute name must be string, not 'list'"
  | bufferSize => "'<' not supported between instances of 'int' and 'list'"
  | pollTimeout => "unsupported operand type(s) for /: 'list' and 'float'"
  | lookup => "unhashable type: 'list'"

inductive Failure where
  | os (error : OsError)
  -- A stream accepted nothing more after this many bytes of a total.
  | stalled (sent : Int) (total : Nat)
  | encoding (text : String)
  | value (text : String)
  | key (text : String)
  -- The thing asked has no such operation.
  | unsupported (text : String)
  | wrongType (text : String)
  | bufferSize (asked : Int)
  | empty (need : Need)
  | sendMode (asked : String)
  | closedDescriptor
  | alreadyWatched (fd : Int)
  | notWatched (fd : Int)
  | noAddress
  | delayTooLong
  -- Everything was to stop, and nothing could be told to.
  | nothingToStop
  -- An event names a client that has not come yet.
  | unknownClient (client : Nat)
  | setup (step : SetupStep) (cause : Failure)
  deriving DecidableEq, Repr

namespace Failure

def message : Failure → String
  | os error => error.message
  | stalled sent total =>
    "send made no progress after " ++ toString sent ++ "/" ++ toString total ++ " bytes"
  | encoding text | value text | unsupported text | wrongType text => text
  | key text => Text.quoted text
  | bufferSize asked =>
    "buffer_size must be in 1.." ++ toString Defaults.maxDatagram ++ ", got " ++ toString asked
  | sendMode asked =>
    "invalid mode: " ++ Text.quoted asked ++ " (must be 'tcp' or 'udp')"
  | closedDescriptor => "Invalid file descriptor: -1"
  | alreadyWatched fd =>
    Text.quoted ("<sock " ++ toString fd ++ "> (FD " ++ toString fd ++ ") is already registered")
  | notWatched fd => Text.quoted ("<sock " ++ toString fd ++ "> is not registered")
  | empty need => need.text
  | noAddress | unknownClient _ => "list index out of range"
  | delayTooLong => "int too large to convert to float"
  | nothingToStop => "nothing to stop"
  | setup step cause => step.text ++ ": " ++ cause.message

-- Refused by the operating system or by the far end.
def isOs : Failure → Bool
  | os _ | stalled .. => true
  | _ => false

def hasKind (kind : OsKind) : Failure → Bool
  | os error => error.kind = kind
  | _ => false

def wouldBlock : Failure → Bool := hasKind .wouldBlock

def interrupted : Failure → Bool := hasKind .interrupted

def timedOut : Failure → Bool := hasKind .timedOut

def isValue : Failure → Bool
  | encoding _ | value _ | bufferSize _ | sendMode _ | closedDescriptor => true
  | _ => false

def isKey : Failure → Bool
  | key _ | alreadyWatched _ | notWatched _ => true
  | _ => false

def isSetup : Failure → Bool
  | setup .. => true
  | _ => false

def isUnsupported : Failure → Bool
  | unsupported _ => true
  | _ => false

def isEncoding : Failure → Bool
  | encoding _ => true
  | _ => false

def number? : Failure → Option Int
  | os error => error.number
  | _ => none

end Failure
end StreamRelay
