import StreamRelay.CommandLine.Value
import StreamRelay.Given

namespace StreamRelay.CommandLine

inductive Kind where
  | text
  | port
  | positive
  | bufferSize
  | choice (allowed : List String)
  deriving DecidableEq, Repr

inductive Value where
  | nothing
  | text (s : String)
  | number (n : Int)
  deriving DecidableEq, Repr

-- An option. Without a kind it takes no value and asks for help.
structure Switch where
  names : List String
  kind : Option Kind
  help : String := ""
  deriving DecidableEq, Repr

namespace Switch

def label (s : Switch) : String := "/".intercalate s.names

def key (s : Switch) : String := s.names.headD ""

end Switch

structure Operand where
  name : String
  kind : Kind
  help : String := ""
  deriving DecidableEq, Repr

structure Grammar where
  prog : String
  description : String := ""
  switches : List Switch
  operands : List Operand := []
  commands : List (String × String) := []
  deriving DecidableEq, Repr

namespace Grammar

def named (g : Grammar) : List (String × Switch) :=
  g.switches.flatMap fun s => s.names.map (·, s)

def switch? (g : Grammar) (name : String) : Option Switch := g.named.lookup name

def commandNames (g : Grammar) : List String := g.commands.map Prod.fst

end Grammar

def commandName : String := "cmd"

inductive Complaint where
  | ambiguous (given : String) (candidates : List String)
  | ignoredValue (argument given : String)
  | missingValue (argument : String)
  | badValue (argument : String) (reason : ValueError)
  | badChoice (argument given : String) (allowed : List String)
  | missing (arguments : List String)
  | unrecognized (arguments : List String)
  deriving DecidableEq, Repr

def Complaint.message : Complaint → String
  | ambiguous given candidates =>
    "ambiguous option: " ++ given ++ " could match " ++ ", ".intercalate candidates
  | ignoredValue argument given =>
    "argument " ++ argument ++ ": ignored explicit argument " ++ Text.quoted given
  | missingValue argument => "argument " ++ argument ++ ": expected one argument"
  | badValue argument reason => "argument " ++ argument ++ ": " ++ reason.message
  | badChoice argument given allowed =>
    "argument " ++ argument ++ ": invalid choice: " ++ Text.quoted given ++ " (choose from " ++
      ", ".intercalate (allowed.map Text.quoted) ++ ")"
  | missing arguments => "the following arguments are required: " ++ ", ".intercalate arguments
  | unrecognized arguments => "unrecognized arguments: " ++ " ".intercalate arguments

def Kind.readText (kind : Kind) (argument given : String) : Except Complaint Value :=
  let number (r : Except ValueError Int) : Except Complaint Value :=
    (r.map Value.number).mapError (.badValue argument)
  match kind with
  | .text => .ok (.text given)
  | .port => number (CommandLine.port given)
  | .positive => number (CommandLine.positive given)
  | .bufferSize => number (CommandLine.bufferSize given)
  | .choice allowed =>
    if allowed.contains given then .ok (.text given) else .error (.badChoice argument given allowed)

def Kind.read (kind : Kind) (argument : String) : Given String → Except Complaint Value
  | .nothing => .ok .nothing
  | .value given => kind.readText argument given

end StreamRelay.CommandLine
