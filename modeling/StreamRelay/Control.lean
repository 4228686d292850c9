import StreamRelay.Host.Console

namespace StreamRelay

inductive Arrival where
  | nothing
  | wouldBlock
  -- The bytes that a read returned; none at the end of the stream.
  | chunk (data : Bytes)
  | pollFailed (cause : Failure)
  | readFailed (cause : Failure)
  deriving DecidableEq, Repr

structure Control where
  fd : Int
  command : Bytes
  closed : Bool := false
  -- What followed the last newline.
  pending : Bytes := []
  deriving DecidableEq, Repr

namespace Control

-- What is made of an arrival: whether the end was asked for, and what is logged.
structure Verdict where
  control : Control
  requested : Bool := false
  records : List (Level × String) := []

-- The lines before the command are logged unless blank; after the command nothing is looked at.
def scan (command : Bytes) : List Bytes → Bool × List (Level × String)
  | [] => (false, [])
  | line :: rest =>
    if Bytes.trim line = command then (true, [])
    else
      let (requested, records) := scan command rest
      if (Bytes.trim line).isEmpty then (requested, records)
      else (requested, (.debug, "ignoring console input " ++ Text.quotedBytes line) :: records)

def observe (c : Control) : Arrival → Verdict
  | .nothing | .wouldBlock => { control := c }
  | .pollFailed cause =>
    { control := { c with closed := true }
      records := [(.warning, "control channel unusable, console commands disabled: " ++
        cause.message)] }
  | .readFailed cause =>
    { control := { c with closed := true }
      records := [(.warning, "control channel read failed, console commands disabled: " ++
        cause.message)] }
  | .chunk [] =>
    let (requested, records) := scan c.command [c.pending]
    { control := { c with closed := true, pending := [] }
      requested
      records := (.info, "control channel reached EOF; console commands disabled") :: records }
  | .chunk data =>
    let (lines, pending) := Bytes.cutLines (c.pending ++ data)
    let (requested, records) := scan c.command lines
    { control := { c with pending }, requested, records }

variable {T P : Type} [Clock T] [Resumable T P]
open Run

def look (c : Control) (timeout : T) : Run T P Arrival := do
  match ← outcome (Os.poll c.fd timeout) with
  | .error f => if f.isOs || f.isValue then return .pollFailed f else fails f
  | .ok false => return .nothing
  | .ok true =>
    match ← outcome (Os.read c.fd Defaults.consoleReadSize) with
    | .ok data => return .chunk data
    | .error f =>
      if f.wouldBlock then return .wouldBlock
      else if f.isOs then return .readFailed f
      else fails f

def poll (c : Control) (timeout : T) : Run T P (Control × Bool) := do
  if c.closed then return (c, false)
  else
    let verdict := c.observe (← look c timeout)
    verdict.records.forM fun (level, text) => Os.log level text
    return (verdict.control, verdict.requested)

def onDescriptor (fd : Int) (command : String := Defaults.quitCommand) : Control :=
  { fd, command := Bytes.ofText command }

-- The channel on standard input; none where it has no descriptor.
def ofStdin : Stdin → Except Failure (Option Control)
  | .missing => .ok none
  | .descriptor fd => .ok (some (onDescriptor fd))
  | .bare reason =>
    if reason.isUnsupported || reason.isOs || reason.isValue then .ok none else .error reason

end Control
end StreamRelay
