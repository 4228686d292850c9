import StreamRelay.CommandLine.Layout
import StreamRelay.CommandLine.Scan
import StreamRelay.Delivery

namespace StreamRelay.CommandLine

inductive Command where
  | forward (settings : Settings)
  | forwardThreaded (settings : Settings)
  | logServer (address : Address) (file : Given String)
  | send (mode : Delivery.Mode) (address : Address) (text : Given String)
  deriving DecidableEq, Repr

structure Request where
  level : Given Level
  command : Command
  deriving DecidableEq, Repr

-- Why a line asks for nothing: the help of a grammar is shown, or its usage and a complaint.
inductive Refusal where
  | help (grammar : Grammar)
  | complaint (grammar : Grammar) (reason : Complaint)
  deriving DecidableEq, Repr

def helpSwitch : Switch := ⟨["-h", "--help"], none, "show this help message and exit"⟩

def levelSwitch : Switch := ⟨["--log-level"], some (.choice (Level.all.map Level.name)), ""⟩

def listenSwitch : Switch := ⟨["--listen-host"], some .text, ""⟩

def forwardSwitches : List Switch := [
  helpSwitch, listenSwitch,
  ⟨["--buffer-size"], some .bufferSize, "bytes per read / max datagram"⟩,
  ⟨["--backlog"], some .positive, ""⟩]

def pollSwitch : Switch := ⟨["--poll-timeout-ms"], some .positive, ""⟩

def forwardOperands : List Operand := [
  ⟨"tcp_port", .port, "TCP port to accept clients on"⟩,
  ⟨"udp_host", .text, "UDP destination host"⟩,
  ⟨"udp_port", .port, "UDP destination port"⟩]

def forwarderGrammar : Grammar := {
  prog := "tcp2udp", description := "Forward TCP client data to a UDP destination."
  switches := forwardSwitches ++ [pollSwitch, levelSwitch], operands := forwardOperands }

def forwardGrammar : Grammar := {
  prog := "udpbridge forward"
  switches := forwardSwitches ++ [pollSwitch], operands := forwardOperands }

def threadedGrammar : Grammar := {
  prog := "udpbridge forward-threaded"
  switches := forwardSwitches, operands := forwardOperands }

def logServerGrammar : Grammar := {
  prog := "udpbridge log-server"
  switches := [helpSwitch, listenSwitch]
  operands := [⟨"udp_port", .port, ""⟩, ⟨"log_file", .text, ""⟩] }

def sendGrammar : Grammar := {
  prog := "udpbridge send"
  switches := [helpSwitch]
  operands := [
    ⟨"mode", .choice ["tcp", "udp"], ""⟩, ⟨"host", .text, ""⟩, ⟨"port", .port, ""⟩,
    ⟨"message", .text, ""⟩] }

def toolGrammar : Grammar := {
  prog := "udpbridge", description := "TCP→UDP bridge utilities."
  switches := [helpSwitch, levelSwitch]
  commands := [
    ("forward", "single-threaded selector-based forwarder"),
    ("forward-threaded", "forwarder with one thread per client"),
    ("log-server", "append received UDP datagrams to a file"),
    ("send", "send one timestamped test message")] }

namespace Reading

def textOf (r : Reading) (key : String) (standard : Given String) : Given String :=
  match r.value? key with
  | some (.text s) => s
  | some .nothing => .nothing
  | _ => standard

def numberOf (r : Reading) (key : String) (standard : Given Int) : Given Int :=
  match r.value? key with
  | some (.number n) => n
  | some .nothing => .nothing
  | _ => standard

def level (r : Reading) : Given Level :=
  match r.textOf "--log-level" Level.info.name with
  | .nothing => .nothing
  | .value name => (Level.ofName? name).getD .info

def settings (r : Reading) : Settings := {
  listenPort := r.numberOf "tcp_port" .nothing
  udpHost := r.textOf "udp_host" .nothing
  udpPort := r.numberOf "udp_port" .nothing
  listenHost := r.textOf "--listen-host" Defaults.listenHost
  bufferSize := r.numberOf "--buffer-size" (Defaults.bufferSize : Int)
  pollMillis := r.numberOf "--poll-timeout-ms" Defaults.pollMillis
  backlog := r.numberOf "--backlog" Defaults.backlog }

def logServer (r : Reading) : Command :=
  .logServer ⟨r.textOf "--listen-host" Defaults.listenHost, r.numberOf "udp_port" .nothing⟩
    (r.textOf "log_file" .nothing)

def send (r : Reading) : Command :=
  .send ((Delivery.Mode.ofName? (r.textOf "mode" .nothing).text).getD .tcp)
    ⟨r.textOf "host" .nothing, r.numberOf "port" .nothing⟩ (r.textOf "message" .nothing)

end Reading

def readBy (g : Grammar) (args : List String) : Except Refusal Reading :=
  (g.scan args).mapError fun
    | .help => .help g
    | .refused reason => .complaint g reason

def nothingLeft (g : Grammar) (extras : List String) : Except Refusal Unit :=
  if extras.isEmpty then .ok () else .error (.complaint g (.unrecognized extras))

def commandOf (name : String) : Grammar × (Reading → Command) :=
  if name = "forward" then (forwardGrammar, fun r => .forward r.settings)
  else if name = "forward-threaded" then (threadedGrammar, fun r => .forwardThreaded r.settings)
  else if name = "log-server" then (logServerGrammar, Reading.logServer)
  else (sendGrammar, Reading.send)

-- What a line asks of the program with all the commands. Arguments left over by a command's line
-- are reported with those of the whole line.
def readTool (args : List String) : Except Refusal Request := do
  let whole ← readBy toolGrammar args
  let (name, line) := whole.command.getD ("", [])
  let (grammar, command) := commandOf name
  let own ← readBy grammar line
  nothingLeft toolGrammar (whole.extras ++ own.extras)
  return ⟨whole.level, command own⟩

def readForwarder (args : List String) : Except Refusal Request := do
  let r ← readBy forwarderGrammar args
  nothingLeft forwarderGrammar r.extras
  return ⟨r.level, .forward r.settings⟩

end StreamRelay.CommandLine
