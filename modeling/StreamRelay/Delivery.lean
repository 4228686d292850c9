import StreamRelay.Host.Socket

namespace StreamRelay.Delivery
variable {T P : Type} [Clock T] [Resumable T P]
open Run

-- Sends what is left of `total` bytes after `sent`; no more sends than the fuel, which has to be
-- the number of bytes left.
def sendRest (sock : SocketId) (total : Nat) : Nat → Int → Bytes → Run T P Unit
  | 0, _, _ => return ()
  | fuel + 1, sent, rest => do
    if rest.isEmpty then return ()
    else
      let n ← Os.send sock rest
      if n ≤ 0 then fails (.stalled sent total)
      else sendRest sock total fuel (sent + n) (rest.drop n.toNat)

def sendAll (sock : SocketId) (data : Bytes) : Run T P Unit :=
  sendRest sock data.length data.length 0 data

inductive Mode where
  | tcp | udp
  deriving DecidableEq, Repr

def Mode.name : Mode → String
  | tcp => "tcp"
  | udp => "udp"

def Mode.ofName? (name : String) : Option Mode := [Mode.tcp, Mode.udp].find? (·.name = name)

def deliver (mode : Mode) (address : Address) (payload : Bytes) (timeout : Option T) :
    Run T P Unit := do
  match mode with
  | .tcp =>
    let sock ← Os.connect address timeout
    ensuring (sendAll sock payload) (Os.close sock)
  | .udp =>
    let sock ← Os.socket .datagram
    ensuring (Os.sendTo sock payload address) (Os.close sock)

def deliverBy (mode : String) (address : Address) (payload : Bytes) (timeout : Option T) :
    Run T P Unit :=
  match Mode.ofName? mode with
  | some mode => deliver mode address payload timeout
  | none => fails (.sendMode mode)

end StreamRelay.Delivery
