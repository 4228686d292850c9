import StreamRelay.CommandLine.Grammar

namespace StreamRelay.CommandLine

inductive Mark where
  -- The first lone `--`.
  | divider
  | operand
  | switch (s : Switch) (name : String) (value : Option String)
  -- It looks like an option, and there is no such option here.
  | unknown
  deriving DecidableEq, Repr

def decimal (c : Char) : Bool := (Numeral.digit? c).isSome

def negativeTail (cs : List Char) : Bool :=
  let cs := if cs.getLast? = some '\n' then cs.dropLast else cs
  match cs.dropWhile decimal with
  | [] => !cs.isEmpty
  | '.' :: rest => !rest.isEmpty && rest.all decimal
  | _ => false

-- A negative number, which is an operand although it begins like an option.
def negativeNumber (cs : List Char) : Bool :=
  match cs with
  | '-' :: rest => negativeTail rest
  | _ => false

def splitValue (cs : List Char) : List Char × Option (List Char) :=
  match cs.dropWhile (· ≠ '=') with
  | [] => (cs, none)
  | _ :: value => (cs.takeWhile (· ≠ '='), some value)

namespace Grammar

-- The switches that a shortened option may mean, with the value that it carries.
def candidates (g : Grammar) (arg : List Char) : List (String × Switch × Option String) :=
  match arg with
  | '-' :: '-' :: _ =>
    let (name, value) := splitValue arg
    (g.named.filter fun s => name.isPrefixOf s.1.toList).map fun s =>
      (s.1, s.2, value.map String.ofList)
  | _ =>
    g.named.filterMap fun s =>
      if s.1.toList = arg.take 2 then some (s.1, s.2, some (String.ofList (arg.drop 2)))
      else if arg.isPrefixOf s.1.toList then some (s.1, s.2, none)
      else none

def mark (g : Grammar) (arg : String) : Except Complaint Mark :=
  let cs := arg.toList
  if cs.head? ≠ some '-' then .ok .operand
  else
    match g.switch? arg with
    | some s => .ok (.switch s arg none)
    | none =>
      if cs.length = 1 then .ok .operand
      else
        let (name, value) := splitValue cs
        match value, g.switch? (String.ofList name) with
        | some value, some s => .ok (.switch s (String.ofList name) (some (String.ofList value)))
        | _, _ =>
          match g.candidates cs with
          | [] =>
            if negativeNumber cs || cs.contains ' ' then .ok .operand else .ok .unknown
          | [(name, s, value)] => .ok (.switch s name value)
          | several => .error (.ambiguous arg (several.map Prod.fst))

def marks (g : Grammar) : List String → Except Complaint (List (String × Mark))
  | [] => .ok []
  | arg :: rest =>
    if arg = "--" then .ok ((arg, .divider) :: rest.map (·, .operand))
    else do
      let m ← g.mark arg
      return (arg, m) :: (← g.marks rest)

end Grammar

inductive Stop where
  | help
  | refused (complaint : Complaint)
  deriving DecidableEq, Repr

structure Reading where
  operands : List Operand
  values : List (String × Value) := []
  extras : List String := []
  command : Option (String × List String) := none
  deriving DecidableEq, Repr

abbrev Marked := List (String × Mark)

def isDivider (m : String × Mark) : Bool := m.2 = .divider

def isOption (m : String × Mark) : Bool :=
  match m.2 with
  | .switch .. | .unknown => true
  | _ => false

-- The arguments that stand for the next operand, dividers around it included, and the rest.
def nextOperand (line : Marked) : Option (List String × Marked) :=
  match line.dropWhile isDivider with
  | (arg, .operand) :: rest =>
    let before := (line.takeWhile isDivider).map Prod.fst
    let after := (rest.takeWhile isDivider).map Prod.fst
    some (before ++ arg :: after, rest.dropWhile isDivider)
  | _ => none

def wordOf : List String → Given String
  | [] => .nothing
  | word :: _ => word

def givenAs (words : List String) : Given String := wordOf (words.erase "--")

namespace Reading

def assign (r : Reading) (key : String) (v : Value) : Reading :=
  { r with values := r.values ++ [(key, v)] }

def value? (r : Reading) (key : String) : Option Value := r.values.reverse.lookup key

def takeOperands (r : Reading) : List Operand → Marked → Except Stop (Reading × Marked)
  | [], line => .ok ({ r with operands := [] }, line)
  | o :: later, line =>
    match nextOperand line with
    | none => .ok ({ r with operands := o :: later }, line)
    | some (args, rest) => do
      let v ← (o.kind.read o.name (givenAs args)).mapError Stop.refused
      takeOperands (r.assign o.name v) later rest

def takeCommand (g : Grammar) (r : Reading) (line : Marked) : Except Stop (Reading × Marked) :=
  match line with
  | [] => .ok (r, line)
  | (name, _) :: rest =>
    if g.commands.isEmpty || r.command.isSome || (nextOperand line).isNone then .ok (r, line)
    else if g.commandNames.contains name then
      .ok ({ r with command := some (name, rest.map Prod.fst) }, [])
    else .error (.refused (.badChoice commandName name g.commandNames))

def takeLeading (g : Grammar) (r : Reading) (line : Marked) : Except Stop (Reading × Marked) := do
  let (r, line) ← r.takeOperands r.operands line
  if r.operands.isEmpty then takeCommand g r line else return (r, line)

-- Several one-letter options in one argument, none of which takes a value.
def shortTail (g : Grammar) (s : Switch) : List Char → Except Stop Unit
  | [] => .error .help
  | c :: rest =>
    match g.switch? (String.ofList ['-', c]) with
    | some next => shortTail g next rest
    | none => .error (.refused (.ignoredValue s.label (String.ofList (c :: rest))))

-- Takes one option, with its value from the argument itself or from the next one.
def takeSwitch (g : Grammar) (r : Reading) (s : Switch) (name : String) (value : Option String)
    (line : Marked) : Except Stop (Reading × Marked) :=
  match s.kind, value with
  | none, none => .error .help
  | none, some given =>
    if given.isEmpty || name.startsWith "--" then
      .error (.refused (.ignoredValue s.label given))
    else (shortTail g s given.toList).map fun _ => (r, line)
  | some kind, some given => do
    let v ← (kind.read s.label (givenAs [given])).mapError Stop.refused
    return (r.assign s.key v, line)
  | some kind, none =>
    match line with
    | (given, .operand) :: rest => do
      let v ← (kind.read s.label (givenAs [given])).mapError Stop.refused
      return (r.assign s.key v, rest)
    | _ => .error (.refused (.missingValue s.label))

def step (g : Grammar) (r : Reading) (line : Marked) : Except Stop (Reading × Marked) :=
  match line with
  | [] => .ok (r, [])
  | (_, .switch s name value) :: rest => takeSwitch g r s name value rest
  | (arg, .unknown) :: rest => .ok ({ r with extras := r.extras ++ [arg] }, rest)
  | _ => do
    let (next, rest) ← takeLeading g r line
    if rest.length < line.length then return (next, rest)
    else
      let skipped := line.takeWhile (!isOption ·)
      return ({ next with extras := next.extras ++ skipped.map Prod.fst },
        line.dropWhile (!isOption ·))

-- Steps while an option is left; each step takes at least one argument of the line.
def steps (g : Grammar) : Nat → Reading → Marked → Except Stop (Reading × Marked)
  | 0, r, line => .ok (r, line)
  | fuel + 1, r, line =>
    if line.any isOption then do
      let (r, line) ← step g r line
      steps g fuel r line
    else .ok (r, line)

def missing (g : Grammar) (r : Reading) : List String :=
  r.operands.map Operand.name ++
    (if g.commands.isEmpty || r.command.isSome then [] else [commandName])

end Reading

def Grammar.scan (g : Grammar) (args : List String) : Except Stop Reading := do
  let line ← (g.marks args).mapError Stop.refused
  let (r, line) ← Reading.steps g line.length { operands := g.operands } line
  let (r, line) ← r.takeLeading g line
  let r := { r with extras := r.extras ++ line.map Prod.fst }
  match r.missing g with
  | [] => return r
  | names => throw (.refused (.missing names))

end StreamRelay.CommandLine
