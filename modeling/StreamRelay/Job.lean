import StreamRelay.Crew.Threads
import StreamRelay.Recorder

namespace StreamRelay

-- Work that a thread of its own does in turns.
class Work (T W : Type) where
  -- Where its threads are between two turns.
  Place : Type
  first : Place
  -- A turn of one of them; a failure is a place like others.
  turn : Place → Nat → Run T W Place
  -- How the thread has ended, if it has: it returned, or died of a failure.
  ended : Place → Option (Option Failure)
  -- Whose turn it is if nothing says so.
  due : Host T → Place → Nat
  -- No fewer than the turns that are left, if anything tells it to stop.
  left : Host T → W → Place → Nat
  stopFlag : Flag

namespace Recorder

instance {T : Type} [Clock T] : Work T Recorder where
  Place := Place
  first := .looking
  turn place _ := place.turn
  ended
    | .gone cut => some cut
    | _ => none
  due _ _ := 0
  left h _ place := 6 * (h.workload + 2) + place.weight
  stopFlag := .command

end Recorder

namespace Crew

instance {T : Type} [Clock T] : Work T (Crew T) where
  Place := Roster
  first := {}
  turn := Roster.turn
  ended := Roster.ended
  due h s := s.due h.clientMode
  left h c s := 30 * (h.workload + 2) + s.duty.weight c + weigh Hand.weight s.hands
  stopFlag := .service

end Crew

structure Job (T W : Type) [Work T W] where
  work : W
  thread : Nat
  place : Option (Work.Place T W) := none

namespace Job
variable {T W : Type} [Work T W]

def started (job : Job T W) : Job T W := { job with place := some Work.first }

def ended (job : Job T W) : Option (Option Failure) := job.place.bind Work.ended

def alive (job : Job T W) : Bool := job.place.isSome && job.ended.isNone

-- A thread that dies leaves a note of that, which stands for all that is printed of it.
def noting (h : Host T) (before after : Job T W) : Host T :=
  match before.ended, after.ended with
  | none, some (some f) => h.emit (.threadDied after.thread f)
  | _, _ => h

def turn (who : Nat) (m : Machine T (Job T W)) : Machine T (Job T W) :=
  match m.prog.place with
  | none => m
  | some place =>
    let h := { m.host with workerStop := some (Work.stopFlag T W) }
    match Work.turn place who ⟨h, m.prog.work⟩ with
    | .ok next n =>
      let job := { m.prog with work := n.prog, place := some next }
      ⟨noting n.host m.prog job, job⟩
    -- No turn of either worker fails.
    | .error _ n => ⟨n.host, { m.prog with work := n.prog }⟩

def turns (order : List Nat) (m : Machine T (Job T W)) : Machine T (Job T W) :=
  order.foldl (fun m who => turn who m) m

def due (m : Machine T (Job T W)) : Nat := (m.prog.place.map (Work.due m.host)).getD 0

-- Turn after turn as they are due, until the thread has ended.
def goOn : Nat → Machine T (Job T W) → Machine T (Job T W)
  | 0, m => m
  | fuel + 1, m => if m.prog.alive then goOn fuel (turn (due m) m) else m

def finish (m : Machine T (Job T W)) : Machine T (Job T W) :=
  goOn ((m.prog.place.map (Work.left m.host m.prog.work)).getD 0) m

def planned (m : Machine T (Job T W)) : Option (Machine T (Job T W)) :=
  match m.host.plan with
  | [] => none
  | order :: rest => some (turns order ⟨{ m.host with plan := rest }, m.prog⟩)

instance : Resumable T (Job T W) where
  resume h job :=
    let m := (planned ⟨h, job⟩).getD (finish ⟨h, job⟩)
    (m.host, m.prog)

variable [Clock T]
open Run

-- Between two calls of the program the thread takes its turns. Without a plan it waits.
def pause : Run T (Job T W) Unit := fun m => .ok () ((planned m).getD m)

def start : Run T (Job T W) Unit := do
  emits (.threadStart (← gets Job.thread))
  sets started
  match ← asks Host.workerMode with
  | .inline => Os.runWorker
  | .deferred => return ()

-- Waits until the thread has ended. The rest of the program does nothing meanwhile.
def join : Run T (Job T W) Unit := do
  emits (.threadJoin (← gets Job.thread) none)
  pause
  fun m => .ok () (finish m)

def isAlive : Run T (Job T W) Bool := do
  pause
  gets Job.alive

end Job
end StreamRelay
