import StreamRelay.Host.Process
import StreamRelay.Host.Socket

namespace StreamRelay

structure Recorder where
  sock : SocketId
  bufferSize : Int := Defaults.bufferSize
  datagrams : Nat := 0
  bytes : Nat := 0
  deriving DecidableEq, Repr

namespace Recorder
variable {T : Type}

instance : Resumable T Recorder := ⟨fun h p => (h, p)⟩

variable [Clock T]
open Run

def count (data : Bytes) (r : Recorder) : Recorder :=
  { r with datagrams := r.datagrams + 1, bytes := r.bytes + data.length }

def report : Run T Recorder Unit := do
  let self ← gets id
  Os.log .info
    ("log server done; datagrams=" ++ toString self.datagrams ++ " bytes=" ++ toString self.bytes)

-- Appends one datagram; it is counted once it is written and flushed.
def append (data : Bytes) : Run T Recorder Unit := do
  Os.write data
  Os.flush
  sets (count data)

-- Receives one datagram and appends it; false ends the service. One that arrives after the end was
-- asked for is dropped.
def turn : Run T Recorder Bool := do
  let self ← gets id
  match ← outcome (Os.receiveFrom self.sock self.bufferSize) with
  | .error f =>
    if f.timedOut then return true
    else if f.isOs then
      let stopped ← Os.isSet .command
      if stopped || !(← asks (·.isOpen self.sock)) then return false
      else
        Os.log .warning ("recvfrom failed: " ++ f.message)
        return true
    else fails f
  | .ok data =>
    if ← Os.isSet .command then return false
    else
      append data
      return true

def turns : Nat → Run T Recorder Unit
  | 0 => return ()
  | fuel + 1 => do
    if ← Os.isSet .command then return ()
    else if ← turn then turns fuel
    else return ()

-- Records until told to stop. Each turn that goes on uses up a datagram, a batch or a fault.
def run : Run T Recorder Unit := do
  turns ((← asks Host.workload) + 2)
  report

-- Where a recorder's thread is between two of its turns. A turn is one call or one look.
inductive Place where
  | looking
  | receiving
  | refused (f : Failure)
  | probing (f : Failure)
  | testing (data : Bytes)
  | writing (data : Bytes)
  | flushing (data : Bytes)
  | summing
  | gone (cut : Option Failure)
  deriving DecidableEq, Repr

def Place.turn : Place → Run T Recorder Place
  | .looking => do
    if ← Os.isSet .command then return .summing
    else return .receiving
  | .receiving => do
    let self ← gets id
    match ← outcome (Os.receiveFrom self.sock self.bufferSize) with
    | .error f =>
      return if f.timedOut then .looking else if f.isOs then .refused f else .gone (some f)
    | .ok data => return .testing data
  | .refused f => do
    if ← Os.isSet .command then return .summing
    else return .probing f
  | .probing f => do
    let self ← gets id
    if ← asks (·.isOpen self.sock) then
      Os.log .warning ("recvfrom failed: " ++ f.message)
      return .looking
    else return .summing
  | .testing data => do
    if ← Os.isSet .command then return .summing
    else return .writing data
  | .writing data => do
    match ← outcome (Os.write data) with
    | .error f => return .gone (some f)
    | .ok _ => return .flushing data
  | .flushing data => do
    match ← outcome Os.flush with
    | .error f => return .gone (some f)
    | .ok _ =>
      sets (count data)
      return .looking
  | .summing => do
    report
    return .gone none
  | .gone cut => return .gone cut

-- The turns that are left once the end was asked for.
def Place.weight : Place → Nat
  | .gone _ => 0
  | .summing => 1
  | .looking | .testing _ | .refused _ => 2
  | .probing _ | .flushing _ => 3
  | .receiving | .writing _ => 4

end Recorder
end StreamRelay
