import StreamRelay.Relay.State

namespace StreamRelay.Relay
variable {T : Type} [Clock T]
open Run

-- Takes an accepted socket into the table; one that cannot be prepared is closed.
def enroll (sock : SocketId) (peer : Peer) : Run T (Relay T) (Option Connection) := do
  match ← outcome (Os.setBlocking sock false) with
  | .error f =>
    if f.isOs then
      Os.log .error
        ("cannot make connection from " ++ peer.tuple ++ " non-blocking: " ++ f.message)
      Os.close sock
      return none
    else fails f
  | .ok _ =>
    let conn : Connection := { sock, peer := peer.address, fd := ← asks (·.fileno sock) }
    match ← outcome (Os.register sock (some sock)) with
    | .error f =>
      if f.isOs || f.isValue || f.isKey then
        Os.log .error ("cannot register connection " ++ conn.label ++ ": " ++ f.message)
        Os.close sock
        return none
      else fails f
    | .ok _ =>
      let conn := { conn with registered := true }
      sets (setTable (·.insert conn))
      return some conn

-- Stops watching a socket; that it was not watched is only noted.
def unwatch (conn : Connection) : Run T (Relay T) Unit := do
  match ← outcome (Os.unregister conn.sock) with
  | .ok _ => return ()
  | .error f =>
    if f.isKey || f.isValue then
      Os.log .debug ("unregister of " ++ conn.label ++ " failed: " ++ f.message)
    else fails f

def release (conn : Connection) : Run T (Relay T) Unit := do
  unwatch conn
  sets (setTable (·.alter conn.sock fun c => { c with registered := false }))

-- Ends a connection; once ended, doing it again changes nothing.
def teardown (sock : SocketId) : Run T (Relay T) Unit := do
  match ← gets (·.table.connection? sock) with
  | none => return ()
  | some conn =>
    if conn.closed then return ()
    else
      onlyIf conn.registered (release conn)
      sets (setTable (·.erase conn.fd))
      Os.close sock
      sets (setTable (·.alter sock fun c => { c with closed := true }))

def closeAll : Run T (Relay T) Nat := do
  let live ← gets (·.table.toList)
  live.forM fun conn => teardown conn.sock
  return live.length

end StreamRelay.Relay
