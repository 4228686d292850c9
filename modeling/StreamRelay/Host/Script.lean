import StreamRelay.Bytes
import StreamRelay.Config

namespace StreamRelay

inductive Call where
  | accept | bind | connect | flush | lookup | listen | openFile | poll | read | receive
  | receiveFrom | register | select | selector | send | sendTo | setBlocking | setOption
  | setTimeout | shutdown | signal | socket | unregister | write
  deriving DecidableEq, Repr

inductive Signal where
  | interrupt | terminate
  deriving DecidableEq, Repr

-- A client that connects: what it sends, how its stream ends, and how its socket looks.
structure Incoming where
  data : Bytes := []
  ended : Bool := false
  reset : Bool := false
  peer : Option Peer := none
  -- A descriptor number that the socket gets whether or not it is free.
  fd : Option Int := none
  -- The socket is closed before anyone has used it.
  dead : Bool := false
  deriving DecidableEq, Repr

mutual
-- One event of the surroundings. Clients are numbered in the order in which they appear.
inductive Action (T : Type) where
  | connect (client : Incoming)
  | send (client : Nat) (data : Bytes)
  | finish (client : Nat)
  | reset (client : Nat)
  | console (data : Bytes)
  | consoleEnd
  | advance (d : T)
  | fault (call : Call) (next : List (Fault T))
  | datagram (data : Bytes)
  | closeServer
  | stop
  | signal (s : Signal)
  | runWorker

inductive Fault (T : Type) where
  | pass
  -- The call reports this number of bytes.
  | count (n : Int)
  | incident (actions : List (Action T)) (failure : Option Failure)
end

-- What happens while the program waits, and the descriptors then reported, if prescribed.
structure Batch (T : Type) where
  actions : List (Action T) := []
  ready : Option (List Int) := none

def weigh {α : Type} (weight : α → Nat) : List α → Nat
  | [] => 0
  | a :: rest => weight a + weigh weight rest

variable {T : Type}

mutual
-- No less than the number of things that an action can bring about.
def Action.weight : Action T → Nat
  | .connect client => 2 + client.data.length
  | .send _ data | .console data => 1 + data.length
  | .fault _ next => 1 + Fault.weights next
  | .datagram _ => 2
  | .finish _ | .reset _ | .consoleEnd | .advance _ | .closeServer | .stop | .signal _
  | .runWorker => 1

def Action.weights : List (Action T) → Nat
  | [] => 0
  | a :: rest => a.weight + Action.weights rest

def Fault.weight : Fault T → Nat
  | .pass | .count _ => 1
  | .incident actions _ => 1 + Action.weights actions

def Fault.weights : List (Fault T) → Nat
  | [] => 0
  | f :: rest => f.weight + Fault.weights rest
end

def Batch.weight (b : Batch T) : Nat := 1 + Action.weights b.actions

end StreamRelay
