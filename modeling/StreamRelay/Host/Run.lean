import StreamRelay.Host.Action

namespace StreamRelay

structure Machine (T P : Type) where
  host : Host T
  prog : P

abbrev Run (T P : Type) := EStateM Failure (Machine T P)

-- A program with a worker that may get in while the rest of the program waits.
class Resumable (T P : Type) where
  resume : Host T → P → Host T × P

instance : Resumable T Unit := ⟨fun h p => (h, p)⟩

variable {T P α : Type}

namespace Run

def asks (f : Host T → α) : Run T P α := fun m => .ok (f m.host) m

def changes (f : Host T → Host T) : Run T P Unit := fun m => .ok () { m with host := f m.host }

def gets (f : P → α) : Run T P α := fun m => .ok (f m.prog) m

def sets (f : P → P) : Run T P Unit := fun m => .ok () { m with prog := f m.prog }

def emits (e : Event T) : Run T P Unit := changes (·.emit e)

def fails (f : Failure) : Run T P α := fun m => .error f m

def onlyIf (b : Bool) (act : Run T P Unit) : Run T P Unit := if b then act else pure ()

-- The outcome of a run as a value; what it did is kept either way.
def outcome (act : Run T P α) : Run T P (Except Failure α) := fun m =>
  match act m with
  | .ok a m => .ok (.ok a) m
  | .error f m => .ok (.error f) m

-- A call on a socket; if it fails, the host keeps a record of that.
def noting (call : Call) (id : SocketId) (act : Run T P α) : Run T P α := fun m =>
  match act m with
  | .ok a m => .ok a m
  | .error f m => .error f { m with host := m.host.note call id f }

-- The first run and then, however it ended, the second; a failure of the second wins.
def ensuring (act : Run T P α) (last : Run T P Unit) : Run T P α := fun m =>
  match act m with
  | .ok a m =>
    match last m with
    | .ok _ m => .ok a m
    | .error f m => .error f m
  | .error f m =>
    match last m with
    | .ok _ m => .error f m
    | .error g m => .error g m

end Run

namespace Os
variable [Clock T] [Resumable T P]
open Run

def runWorker : Run T P Unit := fun m =>
  let (host, prog) := Resumable.resume m.host m.prog
  .ok () ⟨host, prog⟩

-- Stops what a script that has run out stops, if there is anything to stop.
def stopAll : Run T P Unit := fun m =>
  if m.host.canStop then .ok () { m with host := m.host.stop } else .error .nothingToStop m

def perform (action : Action T) : Run T P Unit := do
  match ← asks (·.stranger? action) with
  | some client => fails (.unknownClient client)
  | none =>
    match action with
    | .runWorker => runWorker
    | .stop => stopAll
    | _ => changes (·.apply action)

def happen (actions : List (Action T)) : Run T P Unit := actions.forM perform

def takeFault (call : Call) : Run T P (Option (Fault T)) := fun m =>
  let (fault, faults) := Host.popFault call m.host.faults
  .ok fault { m with host := { m.host with faults } }

-- What the script has for this call: its events happen, its error ends the call. The result is the
-- count that it prescribes.
def incident (call : Call) : Run T P (Option Int) := do
  match ← takeFault call with
  | none | some .pass => return none
  | some (.count n) => return some n
  | some (.incident actions failure) =>
    happen actions
    match failure with
    | none => return none
    | some f => fails f

def takeBatch : Run T P (Option (Batch T)) := fun m =>
  .ok m.host.batches.head? { m with host := { m.host with batches := m.host.batches.tail } }

-- Lets the next batch happen; with none left, everything is told to stop. The result is what the
-- batch prescribes to be ready.
def await : Run T P (Option (List Int)) := do
  match ← takeBatch with
  | none =>
    stopAll
    return none
  | some batch =>
    happen batch.actions
    return batch.ready

def advance (d : T) : Run T P Unit := changes fun h => { h with clock := Clock.add h.clock d }

def isSet (flag : Flag) : Run T P Bool := asks (·.isSet flag)

def stop (flag : Flag) : Run T P Unit := changes (·.raise flag)

def log (level : Level) (text : String) : Run T P Unit := changes fun h =>
  match h.logLevel with
  | none => h.emit (.log level text)
  | some least =>
    if least.rank ≤ level.rank then
      { h with stderr := h.stderr ++ h.stamp ++ " [" ++ level.name ++ "] " ++ text ++ "\n" }
    else h

end Os
end StreamRelay
