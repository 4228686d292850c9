import StreamRelay.CommandLine.Request
import StreamRelay.Foreground
import StreamRelay.Job
import StreamRelay.Relay.Loop

namespace StreamRelay.Commands
variable {T P Q α : Type} [Clock T]
open Run

-- A run on the same host with a program state of its own.
def hosting (q : Q) (act : Run T Q α) : Run T P α := fun m =>
  match act ⟨m.host, q⟩ with
  | .ok a n => .ok a ⟨n.host, m.prog⟩
  | .error f n => .error f ⟨n.host, m.prog⟩

section Signals
variable [Resumable T P]

-- Makes a signal raise a flag. Where that is not possible the signal is left alone; otherwise the
-- result is the handler it had.
def install (flag : Flag) (s : Signal) : Run T P (Option (Signal × Option Flag)) := do
  match ← outcome (Os.setHandler s (some flag)) with
  | .ok previous => return some (s, previous)
  | .error f => if f.isValue then return none else fails f

-- Both signals raise a flag while the body runs, and then do again what they did before.
def withSignals (flag : Flag) (body : Run T P α) : Run T P α := do
  let first ← install flag .interrupt
  let second ← install flag .terminate
  ensuring body do
    ([first, second].filterMap id).forM fun (s, previous) => do
      let _ ← Os.setHandler s previous

end Signals

def quitHint : String := "Type 'quit' and press Enter to exit the server gracefully."

def announce [Resumable T P] (address : Address) (s : Settings) : Run T P Unit := do
  Os.print ("TCP server listening on port " ++ address.port.number ++
    ", forwarding to UDP " ++ (Address.mk s.udpHost s.udpPort).text)
  Os.print quitHint

def failed [Resumable T P] (line : String) : Run T P Int := do
  Os.complain ("error: " ++ line)
  return 1

def checked (s : Settings) : Run T P Config := fun m =>
  match s.check with
  | .ok config => .ok config m
  | .error f => .error f m

def console (stdin : Stdin) : Run T P (Option Control) := fun m =>
  match Control.ofStdin stdin with
  | .ok control => .ok control m
  | .error f => .error f m

def forward (stdin : Stdin) (s : Settings) : Run T Unit Int := do
  let config ← checked s
  let control ← console stdin
  match ← outcome (Relay.create config control none) with
  | .error f => if f.isSetup then failed f.message else fails f
  | .ok relay =>
    announce relay.listener.address s
    hosting relay do
      withSignals .service do
        match ← outcome Relay.run with
        | .ok _ => return 0
        | .error f =>
          if f.isOs then failed ("event loop failed: " ++ f.message) else fails f

def attend {W : Type} [Work T W] (stdin : Stdin) : Run T (Job T W) Unit := do
  Job.start
  Foreground.waitForQuit Job.isAlive 0 stdin (Clock.millis Defaults.consoleMillis)
  Job.pause

def forwardThreaded (stdin : Stdin) (s : Settings) : Run T Unit Int := do
  let config ← checked s
  match ← outcome (Crew.create config none) with
  | .error f => if f.isSetup then failed f.message else fails f
  | .ok crew =>
    announce crew.address s
    let job : Job T (Crew T) := { work := crew, thread := ← Os.newThread }
    hosting job do
      withSignals .command (attend stdin)
      Os.stop .service
      Job.join
    return 0

def logServer (stdin : Stdin) (address : Address) (file : Given String) : Run T Unit Int := do
  match ← outcome (Endpoint.receiving address (Clock.millis Defaults.receiveMillis)) with
  | .error f => if f.isSetup then failed f.message else fails f
  | .ok sock =>
    match ← outcome (Os.openFile file) with
    | .error f =>
      if f.isOs then
        Os.close sock
        failed ("open " ++ file.text ++ ": " ++ f.message)
      else fails f
    | .ok _ =>
      Os.print ("UDP server listening on port " ++ address.port.number ++ ", writing to " ++
        file.text)
      Os.print quitHint
      let job : Job T Recorder := { work := { sock }, thread := ← Os.newThread }
      let work : Run T (Job T Recorder) Unit := withSignals .command do
        attend stdin
        Os.stop .command
        Job.join
      hosting job (ensuring (ensuring work (Os.close sock)) Os.closeFile)
      Os.print "UDP server stopped."
      return 0

-- The place that messages of the send command are stamped with.
def sendSite : CallSite := ⟨"cli.py", 191⟩

def send (mode : Delivery.Mode) (address : Address) (text : Given String) : Run T Unit Int := do
  let payload := messageLine (← asks Host.now) text.text (some sendSite)
  let name := mode.name.toUpper
  match ← outcome
      (Delivery.deliver mode address payload (some (Clock.millis Defaults.connectMillis))) with
  | .error f =>
    if f.isOs then failed ("failed to send " ++ name ++ " message: " ++ f.message) else fails f
  | .ok _ =>
    Os.print (name ++ " message sent to " ++ address.text)
    return 0

def perform (stdin : Stdin) (request : CommandLine.Request) : Run T Unit Int := do
  match request.level with
  | .nothing => fails (.empty .level)
  | .value level =>
    changes fun h => { h with logLevel := some level }
    match request.command with
    | .forward s => forward stdin s
    | .forwardThreaded s => forwardThreaded stdin s
    | .logServer address file => logServer stdin address file
    | .send mode address text => send mode address text

-- Answers a line that asks for nothing: help on standard output, or usage and complaint on standard
-- error and status 1.
def refuse : CommandLine.Refusal → Run T Unit Int
  | .help g => do
    changes fun h => { h with stdout := h.stdout ++ g.help }
    return 0
  | .complaint g reason => do
    changes fun h => { h with stderr := h.stderr ++ g.usage }
    Os.complain (g.prog ++ ": error: " ++ reason.message)
    return 1

def run (stdin : Stdin) (line : Except CommandLine.Refusal CommandLine.Request) : Run T Unit Int :=
  match line with
  | .ok request => perform stdin request
  | .error refusal => refuse refusal

end StreamRelay.Commands
