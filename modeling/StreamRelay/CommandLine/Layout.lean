import StreamRelay.CommandLine.Grammar

namespace StreamRelay.CommandLine

def textWidth : Nat := 78

def helpColumn : Nat := 24

def spaces (n : Nat) : String := String.ofList (List.replicate n ' ')

def braced (names : List String) : String := "\x7b" ++ ",".intercalate names ++ "\x7d"

-- What stands for the value of a switch: its name in capitals, or the alternatives.
def Switch.placeholder (s : Switch) : String :=
  match s.kind with
  | some (.choice allowed) => " " ++ braced allowed
  | some _ =>
    let letters := s.key.toList.dropWhile (· = '-')
    " " ++ String.ofList (letters.map fun c => if c = '-' then '_' else c.toUpper)
  | none => ""

def Switch.inUsage (s : Switch) : String := "[" ++ s.key ++ s.placeholder ++ "]"

def Switch.inHelp (s : Switch) : String := ", ".intercalate (s.names.map (· ++ s.placeholder))

def Operand.shown (o : Operand) : String :=
  match o.kind with
  | .choice allowed => braced allowed
  | _ => o.name

-- Fills words into lines; `used` columns of the current line are taken, later lines begin after
-- `indent` columns.
def fill (indent : Nat) : Nat → List String → List String → List String
  | _, line, [] => [" ".intercalate line]
  | used, line, word :: rest =>
    if textWidth < used + 1 + word.length && !line.isEmpty then
      " ".intercalate line :: fill indent (indent + word.length) [word] rest
    else fill indent (used + 1 + word.length) (line ++ [word]) rest

namespace Grammar

def operandsShown (g : Grammar) : List String :=
  g.operands.map Operand.shown ++
    (if g.commands.isEmpty then [] else [braced g.commandNames ++ " ..."])

def usage (g : Grammar) : String :=
  let head := "usage: "
  let options := g.switches.map Switch.inUsage
  let whole := " ".intercalate (g.prog :: options ++ g.operandsShown)
  if head.length + whole.length ≤ textWidth then head ++ whole ++ "\n"
  else
    let indent := head.length + g.prog.length + 1
    let operandLines :=
      if g.operandsShown.isEmpty then [] else fill indent (indent - 1) [] g.operandsShown
    let lines := fill indent (head.length - 1) [] (g.prog :: options) ++ operandLines
    head ++ ("\n" ++ spaces indent).intercalate lines ++ "\n"

def helpLine (column indent : Nat) (shown help : String) : String :=
  let head := spaces indent ++ shown
  if help.isEmpty then head ++ "\n"
  else if head.length + 2 ≤ column then head ++ spaces (column - head.length) ++ help ++ "\n"
  else head ++ "\n" ++ spaces column ++ help ++ "\n"

def helpRows (g : Grammar) : List (Nat × String × String) × List (Nat × String × String) :=
  let operands := g.operands.map fun o => (2, o.shown, o.help)
  let commands :=
    if g.commands.isEmpty then []
    else (2, braced g.commandNames, "") :: g.commands.map fun c => (4, c.1, c.2)
  (operands ++ commands, g.switches.map fun s => (2, s.inHelp, s.help))

def help (g : Grammar) : String :=
  let (operands, options) := g.helpRows
  let widest := ((operands ++ options).map fun row => row.1 + row.2.1.length).foldl max 0
  let column := min (widest + 2) helpColumn
  let block (heading : String) (rows : List (Nat × String × String)) : String :=
    let lines := rows.map fun (indent, shown, help) => helpLine column indent shown help
    "\n" ++ heading ++ ":\n" ++ String.join lines
  g.usage ++ (if g.description.isEmpty then "" else "\n" ++ g.description ++ "\n") ++
    block "positional arguments" operands ++ block "options" options

end Grammar
end StreamRelay.CommandLine
