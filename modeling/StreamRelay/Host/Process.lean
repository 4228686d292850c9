import StreamRelay.Host.Run

namespace StreamRelay.Os
variable {T P : Type} [Clock T] [Resumable T P]
open Run

def waitFor (flag : Flag) (timeout : T) : Run T P Unit := do
  if ← isSet flag then return ()
  else
    emits (.wait timeout)
    let _ ← await
    onlyIf (!(← isSet flag)) (advance timeout)

-- Makes a signal raise a flag, or do what it does by default; the result is what it did before.
def setHandler (s : Signal) (flag : Option Flag) : Run T P (Option Flag) := do
  let _ ← incident .signal
  let previous ← asks (·.handler s)
  changes (·.setHandler s flag)
  emits (.signal s flag.isSome)
  return previous

def newThread : Run T P Nat := fun m =>
  .ok m.host.threads { m with host := { m.host with threads := m.host.threads + 1 } }

-- Runs a thread's body to its end; a failure kills the thread and nothing else.
def runThread (thread : Nat) (body : Run T P Unit) : Run T P Unit := do
  match ← outcome body with
  | .ok _ => return ()
  | .error f => emits (.threadDied thread f)

def openFile (path : Given String) : Run T P Unit := do
  emits (.openFile path)
  let _ ← incident .openFile
  changes fun h => { h with fileOpen := true }

def write (data : Bytes) : Run T P Unit := do
  let _ ← incident .write
  emits (.write data)

def flush : Run T P Unit := do
  let _ ← incident .flush
  emits .flush

def closeFile : Run T P Unit := do
  emits .fileClosed
  changes fun h => { h with fileOpen := false }

def print (line : String) : Run T P Unit :=
  changes fun h => { h with stdout := h.stdout ++ line ++ "\n" }

def complain (line : String) : Run T P Unit :=
  changes fun h => { h with stderr := h.stderr ++ line ++ "\n" }

end StreamRelay.Os
