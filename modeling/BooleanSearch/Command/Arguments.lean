import BooleanSearch.Command.Basic

/-!
# Command lines

The arguments of a command line name a command, its options and its query. Options may stand
before and after the query, by their long name or joined in one argument by their short names.
What is no option becomes the query as long as none was given, so a query may start with `-`.
After `--` every argument is a query.
-/

namespace BooleanSearch

/-- An option of the command line. -/
inductive Flag where
  | verbose
  | help
  | version
  | field
  | json
  | address
  deriving DecidableEq, Repr

namespace Flag

/-- The long name of an option. -/
def long : Flag → Text
  | .verbose => "verbose".toList
  | .help => "help".toList
  | .version => "version".toList
  | .field => "field".toList
  | .json => "json".toList
  | .address => "addr".toList

/-- The short name of an option. -/
def short : Flag → Char
  | .verbose => 'v'
  | .help => 'h'
  | .version => 'V'
  | .field => 'f'
  | .json => 'j'
  | .address => 'a'

/-- Whether an option has a value. -/
def takesValue : Flag → Bool
  | .field => true
  | .address => true
  | _ => false

end Flag

/-- Why a command line names no command to carry out. -/
inductive Usage where
  /-- The query is missing. -/
  | missingArgument
  /-- An argument is neither an option nor expected. -/
  | unknownArgument
  /-- There is no such command. -/
  | unknownCommand
  /-- An option lacks its value. -/
  | missingValue
  /-- An option is given twice. -/
  | repeated
  /-- An option without a value is given one. -/
  | surplusValue
  /-- The command is missing. -/
  | missingCommand
  /-- The line is empty. -/
  | emptyLine
  /-- Help is asked for. -/
  | help
  /-- The version is asked for. -/
  | version
  deriving DecidableEq, Repr

/-- What is expected on a command line: the options, and whether a query stands among them. -/
structure Form where
  flags : List Flag
  takesQuery : Bool
  deriving DecidableEq, Repr

/-- What was read of a command line. -/
structure Reading where
  /-- The options that are settled, with their values. -/
  given : List (Flag × Text) := []
  /-- The last option, which is not settled yet, with its value once it is read. -/
  open? : Option (Flag × Option Text) := none
  query : Option Text := none
  /-- Whether `--` was read. -/
  escaped : Bool := false
  deriving DecidableEq, Repr

namespace Reading

/-- The value of an option that was given. -/
def value? (reading : Reading) (flag : Flag) : Option Text :=
  (reading.given.find? fun entry => entry.1 = flag).map Prod.snd

/-- Whether an option was given. -/
def has (reading : Reading) (flag : Flag) : Bool := (reading.value? flag).isSome

/-- Adds an option, which must not have been given yet. -/
def add (reading : Reading) (flag : Flag) (value : Text) : Except Usage Reading :=
  if reading.has flag then .error .repeated
  else .ok { reading with given := (flag, value) :: reading.given }

/-- Settles the last option, which must have its value by now. -/
def settle (reading : Reading) : Except Usage Reading :=
  match reading.open? with
  | none => .ok reading
  | some (_, none) => .error .missingValue
  | some (flag, some value) => { reading with open? := none }.add flag value

/-- An option that stands with its value. -/
def withValue (reading : Reading) (flag : Flag) (value : Text) : Except Usage Reading := do
  (← reading.settle).add flag value

/-- An option whose value is the next argument. -/
def expecting (reading : Reading) (flag : Flag) : Except Usage Reading := do
  return { ← reading.settle with open? := some (flag, none) }

/-- An option without a value. Those for help and for the version end the reading. -/
def withoutValue (reading : Reading) (flag : Flag) : Except Usage Reading := do
  let reading ← reading.settle
  match flag with
  | .help => throw .help
  | .version => throw .version
  | flag => reading.add flag []

end Reading

namespace Form

/-- Whether the query is still to come. -/
def lacksQuery (form : Form) (reading : Reading) : Bool :=
  form.takesQuery && reading.query.isNone

/-- Reads an argument that is no option: the value of the option before it, or else the query. -/
def plain (form : Form) (reading : Reading) (arg : Text) : Except Usage Reading :=
  match reading.open? with
  | some (flag, none) => .ok { reading with open? := some (flag, some arg) }
  | _ =>
    if form.lacksQuery reading then do return { ← reading.settle with query := some arg }
    else .error .unknownArgument

/-- Reads an option by its long name, which may be joined to a value by `=` but not left out. -/
def long (form : Form) (reading : Reading) (arg name : Text) : Except Usage Reading :=
  let (name, value) := match Text.splitFirst? '=' name with
    | some (name, value) => (name, some value)
    | none => (name, none)
  match form.flags.find? fun flag => flag.long == name with
  | some flag =>
    match flag.takesValue, value with
    | true, some value => reading.withValue flag value
    | true, none => reading.expecting flag
    | false, some _ => .error .surplusValue
    | false, none => reading.withoutValue flag
  | none =>
    if form.lacksQuery reading && !name.isEmpty then form.plain reading arg
    else .error .unknownArgument

/-- The option with a short name. -/
def ofShort? (form : Form) (c : Char) : Option Flag := form.flags.find? fun flag => flag.short == c

/-- Reads options by their short names. The first that has a value takes the rest as its value. -/
def shorts (form : Form) (reading : Reading) : Text → Except Usage Reading
  | [] => .ok reading
  | c :: rest =>
    match form.ofShort? c with
    | none => .error .unknownArgument
    | some flag =>
      if flag.takesValue then
        match rest with
        | [] => reading.expecting flag
        | '=' :: value => reading.withValue flag value
        | value => reading.withValue flag value
      else do form.shorts (← reading.withoutValue flag) rest

/-- Reads one argument. -/
def step (form : Form) (reading : Reading) (arg : Text) : Except Usage Reading :=
  if reading.escaped then
    if form.lacksQuery reading then do return { ← reading.settle with query := some arg }
    else .error .unknownArgument
  else match arg with
    | ['-', '-'] => .ok { reading with escaped := true }
    | '-' :: '-' :: name => form.long reading arg name
    | '-' :: c :: rest =>
      if form.lacksQuery reading && (c :: rest).any (fun c => (form.ofShort? c).isNone) then
        form.plain reading arg
      else form.shorts reading (c :: rest)
    | arg => form.plain reading arg

/-- Reads all arguments. -/
def read (form : Form) (reading : Reading) : List Text → Except Usage Reading
  | [] => do
    let reading ← reading.settle
    if form.lacksQuery reading then .error .missingArgument else .ok reading
  | arg :: args => do form.read (← form.step reading arg) args

end Form

/-- A command line that names a command. -/
structure Invocation where
  verbose : Bool
  command : Command
  deriving DecidableEq, Repr

namespace Invocation

/-- The names of the commands, help included. -/
def commandNames : List Text :=
  ["translate".toList, "postfix".toList, "tokens".toList, "daemon".toList, "help".toList]

/-- What is expected before the command. -/
def outerForm : Form := ⟨[.verbose, .help, .version], false⟩

/-- What is expected after the name of a command, and the command that was read there. -/
def inner? (name : Text) : Option (Form × (Reading → Command)) :=
  if name = "translate".toList then
    some (⟨[.field, .verbose, .help], true⟩,
      fun r => .translate (r.query.getD []) (r.value? .field))
  else if name = "postfix".toList then
    some (⟨[.json, .verbose, .help], true⟩, fun r => .program (r.query.getD []) (r.has .json))
  else if name = "tokens".toList then
    some (⟨[.verbose, .help], true⟩, fun r => .tokens (r.query.getD []))
  else if name = "daemon".toList then
    some (⟨[.address, .verbose, .help], false⟩, fun r => .daemon (r.value? .address))
  else none

/-- The request for help on the commands that are named: at most one, which must exist. -/
def helpOn : List Text → Usage
  | [] => .help
  | [name] => if name ∈ commandNames then .help else .unknownCommand
  | _ => .unknownCommand

/-- Reads the arguments up to the command and then the command. -/
def readFrom (reading : Reading) : List Text → Except Usage Invocation
  | [] => .error (if reading.given.isEmpty then .emptyLine else .missingCommand)
  | arg :: args =>
    if reading.escaped then
      .error (if arg ∈ commandNames then .unknownArgument else .unknownCommand)
    else if arg = "help".toList then .error (helpOn args)
    else match inner? arg with
      | some (form, command) => do
        let inner ← form.read {} args
        return ⟨reading.has .verbose || inner.has .verbose, command inner⟩
      | none =>
        match arg with
        | '-' :: _ :: _ => do readFrom (← outerForm.step reading arg) args
        | _ => .error .unknownCommand

/-- The invocation that the arguments of a command line stand for. -/
def ofArguments (args : List Text) : Except Usage Invocation := readFrom {} args

end Invocation

end BooleanSearch
