import StreamRelay.Host.Socket

namespace StreamRelay.Os
variable {T P : Type} [Clock T] [Resumable T P]
open Run

def newSelector : Run T P Unit := do
  let _ ← incident .selector
  changes fun h => { h with selectorOpen := true }

def register (id : SocketId) (conn : Option SocketId) : Run T P Unit := noting .register id do
  emits (.register (← asks (·.fileno id)))
  let _ ← incident .register
  let fd ← asks (·.fileno id)
  if !(← asks (·.isOpen id)) then fails .closedDescriptor
  else if (← asks (·.watching? fd)).isSome then fails (.alreadyWatched fd)
  else changes fun h => { h with entries := h.entries ++ [(fd, ⟨id, conn⟩)] }

-- Removes the entry of a descriptor; a closed socket's by the socket itself.
def unregister (id : SocketId) : Run T P Unit := noting .unregister id do
  emits (.unregister (← asks (·.fileno id)))
  let _ ← incident .unregister
  let fd ← number id
  if ← asks (·.isOpen id) then
    if (← asks (·.watching? fd)).isNone then fails (.notWatched fd)
    else changes fun h => { h with entries := h.entries.filter (·.1 ≠ fd) }
  else if (← asks fun h => h.entries.any (·.2.sock = id)) then
    changes fun h => { h with entries := h.entries.filter (·.2.sock ≠ id) }
  else fails .closedDescriptor

def readyNumbers (h : Host T) : List Int :=
  h.watched.filter fun fd =>
    ((h.watching? fd).bind fun e => (h.sock? e.sock).map Sock.ready).getD false

-- The entries of those numbers that are watched.
def entriesOf (h : Host T) (fds : List Int) : List (Int × Entry) :=
  fds.filterMap fun fd => (h.watching? fd).map (fd, ·)

-- Waits for readiness and reports the ready entries, as they are when the wait ends.
def select (timeout : T) (overview : Overview) : Run T P (List (Int × Entry)) := do
  emits (.begun .select none)
  let _ ← incident .select
  let prescribed ← await
  let found ← asks fun h => entriesOf h (prescribed.getD (readyNumbers h))
  onlyIf found.isEmpty (advance timeout)
  emits (.ready timeout (found.map Prod.fst) overview)
  return found

def closeSelector : Run T P Unit := do
  emits .selectorClosed
  changes fun h => { h with selectorOpen := false, entries := [] }

end StreamRelay.Os
