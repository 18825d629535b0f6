import Courseware.Text.Basic

/-!
# Arguments of the command line

The arguments name a command and options. An option is long (`--path`) or short (`-p`), takes a value or
none, and is given at most once on each side of the command; those of every command may stand on either
side, where a value after the command counts. A value is attached (`--path=p`, `-pp`, `-p=p`) or is the
next argument, unless that looks like an option.

Arguments are read from left to right, and reading stops at the first that is wrong or asks for help. An
option that awaits its value is settled by whatever comes next, so that a missing value is found there.
-/

namespace Courseware.Cli

/-- How places are listed. -/
inductive ListingFormat
  | text
  | json
deriving DecidableEq, Repr

/-- What is to be done. -/
inductive Command
  | build (dryRun : Bool)
  | check
  | paths (format : ListingFormat)
  | sql
deriving DecidableEq, Repr

/-- What the command line asks for. -/
structure Request where
  command : Option Command
  root : Option String
  isVerbose : Bool
  isPlain : Bool
deriving DecidableEq, Repr

/-- Why no command is run: the arguments are wrong, or they ask for something else. -/
inductive Interruption
  | misuse
  | help
  | version
deriving DecidableEq, Repr

/-- The commands by name. -/
inductive CommandName
  | build
  | check
  | paths
  | sql
deriving DecidableEq, Repr

/-- The command of a name. -/
def CommandName.ofString? : String → Option CommandName
  | "build" => some build
  | "check" => some check
  | "paths" => some paths
  | "sql" => some sql
  | _ => none

/-- Options without a value. -/
inductive Flag
  | verbose
  | plain
  | dryRun
deriving DecidableEq, Repr

/-- Options with a value. -/
inductive ValueOption
  | path
  | format
deriving DecidableEq, Repr

/-- What an option is. -/
inductive OptionKind
  | flag (flag : Flag)
  | value (option : ValueOption)
  | interruption (interruption : Interruption)
deriving DecidableEq, Repr

/-- The option of a long name, before the command or among the options of a command. -/
def OptionKind.ofLong? (command : Option CommandName) : String → Option OptionKind
  | "path" => some (.value .path)
  | "verbose" => some (.flag .verbose)
  | "no-color" => some (.flag .plain)
  | "help" => some (.interruption .help)
  | "version" => if command = none then some (.interruption .version) else none
  | "dry-run" => if command = some .build then some (.flag .dryRun) else none
  | "format" => if command = some .paths then some (.value .format) else none
  | _ => none

/-- The option of a letter. -/
def OptionKind.ofLetter? (command : Option CommandName) : Char → Option OptionKind
  | 'p' => some (.value .path)
  | 'v' => some (.flag .verbose)
  | 'h' => some (.interruption .help)
  | 'V' => if command = none then some (.interruption .version) else none
  | _ => none

/-- What an argument looks like. -/
inductive Shape
  | separator
  | long (name : String) (value : Option String)
  | short (letters : Text)
  | plain
deriving DecidableEq, Repr

/-- The shape of an argument. -/
def Shape.ofArgument (argument : String) : Shape :=
  match argument.toList with
  | ['-', '-'] => separator
  | '-' :: '-' :: rest =>
    match Text.cut? ['='] rest with
    | some (name, value) => long (String.ofList name) (some (String.ofList value))
    | none => long (String.ofList rest) none
  | '-' :: letter :: letters => short (letter :: letters)
  | _ => plain

/-- The options that have been given on one side of the command. -/
structure Given where
  flags : List Flag
  path : Option String
  format : Option ListingFormat
  /-- The option that has been named last but is not settled, with its value if it has come. -/
  pending : Option (ValueOption × Option String)
deriving DecidableEq, Repr

namespace Given

/-- No options. -/
def none : Given := ⟨[], .none, .none, .none⟩

/-- Give an option its value. -/
def assign (given : Given) (option : ValueOption) (value : String) : Except Interruption Given :=
  match option with
  | .path =>
    if given.path.isSome || value.isEmpty then .error .misuse
    else .ok { given with path := some value }
  | .format =>
    if given.format.isSome then .error .misuse
    else
      match value with
      | "text" => .ok { given with format := some .text }
      | "json" => .ok { given with format := some .json }
      | _ => .error .misuse

/-- Settle the option that is pending. -/
def settle (given : Given) : Except Interruption Given :=
  match given.pending with
  | .none => .ok given
  | some (_, .none) => .error .misuse
  | some (option, some value) => { given with pending := .none }.assign option value

/-- Whether the next argument is to be a value. -/
def awaitsValue (given : Given) : Bool :=
  match given.pending with
  | some (_, .none) => true
  | _ => false

/-- Take the value that is awaited. -/
def take (given : Given) (value : String) : Given :=
  { given with pending := given.pending.map fun (option, _) => (option, some value) }

/-- Take an option that has no value attached. -/
def takeBare (given : Given) (kind : OptionKind) : Except Interruption Given := do
  let given ← given.settle
  match kind with
  | .flag flag =>
    if given.flags.contains flag then throw .misuse else return { given with flags := flag :: given.flags }
  | .value option => return { given with pending := some (option, .none) }
  | .interruption interruption => throw interruption

/-- Take an option that has a value attached. -/
def takeAttached (given : Given) (kind : OptionKind) (value : String) :
    Except Interruption Given := do
  match kind with
  | .value option => (← given.settle).assign option value
  | .flag _ | .interruption _ => throw .misuse

/-- Take the letters of a short argument. The value of an option may follow its letter at once. -/
def takeLetters (command : Option CommandName) (given : Given) :
    Text → Except Interruption Given
  | [] => .ok given
  | letter :: rest =>
    match OptionKind.ofLetter? command letter, rest with
    | .none, _ => .error .misuse
    | some (.value option), '=' :: value => given.takeAttached (.value option) (String.ofList value)
    | some (.value option), first :: value =>
      given.takeAttached (.value option) (String.ofList (first :: value))
    | some kind, rest => do takeLetters command (← given.takeBare kind) rest

/-- Take an argument that looks like an option. -/
def takeOption (command : Option CommandName) (given : Given) :
    Shape → Except Interruption Given
  | .long name value =>
    match OptionKind.ofLong? command name, value with
    | .none, _ => .error .misuse
    | some kind, .none => given.takeBare kind
    | some kind, some value => given.takeAttached kind value
  | .short letters => given.takeLetters command letters
  | .separator | .plain => .error .misuse

end Given

/-- Read the arguments after a command. Nothing but options may stand there. -/
def readOptions (command : CommandName) (given : Given) :
    List String → Except Interruption Given
  | [] => given.settle
  | argument :: rest =>
    match Shape.ofArgument argument with
    | .plain =>
      if given.awaitsValue then readOptions command (given.take argument) rest
      else .error .misuse
    | .separator => if rest.isEmpty then given.settle else .error .misuse
    | shape => do readOptions command (← given.takeOption (some command) shape) rest

/-- What is asked for by a command, the options before it, and those after it. -/
def Request.ofGiven (command : Option CommandName) (before after : Given) : Request where
  command := command.map fun
    | .build => .build (after.flags.contains .dryRun)
    | .check => .check
    | .paths => .paths (after.format.getD .text)
    | .sql => .sql
  root := after.path <|> before.path
  isVerbose := (before.flags ++ after.flags).contains .verbose
  isPlain := (before.flags ++ after.flags).contains .plain

/-- Help may be asked for with a command or with `help` itself. -/
def helpOn : List String → Interruption
  | [] => .help
  | [topic] =>
    if (CommandName.ofString? topic).isSome || topic == "help" then .help else .misuse
  | _ => .misuse

/-- Read the arguments from where no command has been named yet. -/
def readCommand (given : Given) : List String → Except Interruption Request
  | [] => do return .ofGiven none (← given.settle) .none
  | argument :: rest =>
    match Shape.ofArgument argument with
    | .plain =>
      if given.awaitsValue then readCommand (given.take argument) rest
      else if argument = "help" then .error (helpOn rest)
      else
        match CommandName.ofString? argument with
        | some command => do
          let after ← readOptions command .none rest
          return .ofGiven (some command) (← given.settle) after
        | none => .error .misuse
    | .separator =>
      if rest.isEmpty then do return .ofGiven none (← given.settle) .none else .error .misuse
    | shape => do readCommand (← given.takeOption none shape) rest

/-- Read the arguments of the command line. -/
def Request.ofArguments (arguments : List String) : Except Interruption Request :=
  readCommand .none arguments

end Courseware.Cli
