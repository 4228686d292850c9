import StreamRelay.Failure

namespace StreamRelay

structure Address where
  host : Given String
  port : Given Int
  deriving DecidableEq, Repr

def Address.text (a : Address) : String := a.host.text ++ ":" ++ a.port.number

-- For records of the log, which have to have a number for the port.
def Address.logged? (a : Address) : Option String :=
  match a.port with
  | .nothing => none
  | .value _ => some a.text

-- The far end of a connection; an address of the longer kind has more numbers.
structure Peer where
  address : Address
  more : List Int := []
  deriving DecidableEq, Repr

def Peer.tuple (p : Peer) : String :=
  let numbers := p.address.port.number :: p.more.map toString
  "(" ++ ", ".intercalate (p.address.host.shown Text.quoted :: numbers) ++ ")"

-- The settings as given, not yet checked.
structure Settings where
  listenPort : Given Int
  udpHost : Given String
  udpPort : Given Int
  listenHost : Given String := Defaults.listenHost
  bufferSize : Given Int := (Defaults.bufferSize : Int)
  pollMillis : Given Int := Defaults.pollMillis
  backlog : Given Int := Defaults.backlog
  deriving DecidableEq, Repr

structure Config where
  listen : Address
  udp : Address
  bufferSize : Nat
  pollMillis : Given Int
  backlog : Given Int
  bufferSize_pos : 0 < bufferSize
  bufferSize_le : bufferSize ≤ Defaults.maxDatagram
  deriving DecidableEq, Repr

def Settings.check (s : Settings) : Except Failure Config :=
  match s.bufferSize with
  | .nothing => .error (.empty .bufferSize)
  | .value size =>
    if fits : 0 < size ∧ size ≤ Defaults.maxDatagram then
      .ok ⟨⟨s.listenHost, s.listenPort⟩, ⟨s.udpHost, s.udpPort⟩, size.toNat, s.pollMillis,
        s.backlog, by omega, by omega⟩
    else .error (.bufferSize size)

end StreamRelay
