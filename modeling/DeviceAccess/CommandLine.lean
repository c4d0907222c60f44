/-!
# The command line

    edge-trust [OPTIONS] [serve | validate | help]

The options that take a value, `-c`/`--config`, `--log-level` and `--log-format`, may stand
before or after the command and may also be given by the environment; the flag `--no-watch` and
the version stand before the command only.  What follows the command counts more than what
precedes it, both count more than the environment, and an option may be given once in each
place.  Reading stops at the first fault, or at a request for help or the version
(`CommandLine.parse`).
-/

namespace DeviceAccess

/-- What the program is asked to do. -/
inductive Command where
  | serve
  | validate
  deriving DecidableEq, Repr

/-- The options that take a value. -/
inductive ValueOption where
  | config
  | logLevel
  | logFormat
  deriving DecidableEq, Repr

/-- What help is about. -/
inductive HelpTopic where
  | program
  | command (command : Command)
  /-- The command `help` itself. -/
  | help
  deriving DecidableEq, Repr

/-- Why reading a command line ended early. -/
inductive CommandLineStop where
  | displayHelp (topic : HelpTopic)
  | displayVersion
  | unknownArgument (argument : String)
  | invalidSubcommand (argument : String)
  /-- A value is missing or cannot be used. -/
  | invalidValue (option : ValueOption)
  /-- A flag was given a value. -/
  | tooManyValues (argument : String)
  /-- An option was given twice. -/
  | argumentConflict (argument : String)
  deriving DecidableEq, Repr

/-- The name of the kind of a stop. -/
def CommandLineStop.kind : CommandLineStop → String
  | displayHelp _ => "DisplayHelp"
  | displayVersion => "DisplayVersion"
  | unknownArgument _ => "UnknownArgument"
  | invalidSubcommand _ => "InvalidSubcommand"
  | invalidValue _ => "InvalidValue"
  | tooManyValues _ => "TooManyValues"
  | argumentConflict _ => "ArgumentConflict"

/-- A command line as it is understood. -/
structure CommandLine where
  config : Option String
  logLevel : String
  logFormat : Option String
  noWatch : Bool
  command : Option Command
  deriving DecidableEq, Repr

namespace ValueOption

/-- The long name of an option. -/
def name : ValueOption → String
  | config => "config"
  | logLevel => "log-level"
  | logFormat => "log-format"

/-- The variable that gives the option when the command line does not. -/
def envName : ValueOption → String
  | config => "EDGE_TRUST_CONFIG"
  | logLevel => "EDGE_TRUST_LOG_LEVEL"
  | logFormat => "EDGE_TRUST_LOG_FORMAT"

def all : List ValueOption := [config, logLevel, logFormat]

/-- Whether a value can be used; the name of a file may not be empty. -/
def accepts : ValueOption → String → Bool
  | config, value => value ≠ ""
  | _, _ => true

end ValueOption

namespace CommandLine

/-- What was read of one place of the command line, before or after the command. -/
structure Place where
  /-- The command that precedes. -/
  command : Option Command
  values : List (ValueOption × String)
  noWatch : Bool
  /-- An option that was named last, with its value if that has been read. -/
  pending : Option (ValueOption × Option String)
  deriving Repr

/-- Whether a command precedes. -/
def Place.afterCommand (p : Place) : Bool := p.command.isSome

/-- What help asked for at a place is about. -/
def Place.topic (p : Place) : HelpTopic :=
  match p.command with
  | some c => .command c
  | none => .program

/-- Takes the option that was named last into account. -/
def Place.settle (p : Place) : Except CommandLineStop Place :=
  match p.pending with
  | none => .ok p
  | some (o, none) => .error (.invalidValue o)
  | some (o, some value) =>
    if (p.values.lookup o).isSome then .error (.argumentConflict o.name)
    else if !o.accepts value then .error (.invalidValue o)
    else .ok { p with values := (o, value) :: p.values, pending := none }

/-- Names an option, with its value if that is attached. -/
def Place.choose (p : Place) (o : ValueOption) (value : Option String) :
    Except CommandLineStop Place :=
  p.settle.map fun p => { p with pending := some (o, value) }

/-- Reads the flag `--no-watch`. -/
def Place.watchOff (p : Place) : Except CommandLineStop Place := do
  let p ← p.settle
  if p.noWatch then throw (.argumentConflict "no-watch")
  return { p with noWatch := true }

/-- Reads a request for help or the version. -/
def Place.stop (p : Place) (stop : CommandLineStop) : Except CommandLineStop Place := do
  let _ ← p.settle
  throw stop

/-- Reads an argument that starts with `--`. -/
def Place.long (p : Place) (argument : String) : Except CommandLineStop Place :=
  let body := argument.toList.drop 2
  let name := String.ofList (body.takeWhile (· ≠ '='))
  let value := match body.dropWhile (· ≠ '=') with
    | _ :: v => some (String.ofList v)
    | [] => none
  let flag (act : Except CommandLineStop Place) :=
    if value.isSome then .error (.tooManyValues argument) else act
  match ValueOption.all.find? fun o => o.name = name with
  | some o => p.choose o value
  | none =>
    if name = "help" then flag (p.stop (.displayHelp p.topic))
    else if name = "version" ∧ !p.afterCommand then flag (p.stop .displayVersion)
    else if name = "no-watch" ∧ !p.afterCommand then flag p.watchOff
    else .error (.unknownArgument argument)

/-- Reads the letters of an argument that starts with one `-`. -/
def Place.short (p : Place) (argument : String) : List Char → Except CommandLineStop Place
  | [] => .ok p
  | c :: rest =>
    if c = 'c' then
      let value := match rest with
        | '=' :: v => some (String.ofList v)
        | [] => none
        | v => some (String.ofList v)
      p.choose .config value
    else if c = 'h' then p.stop (.displayHelp p.topic)
    else if c = 'V' ∧ !p.afterCommand then p.stop .displayVersion
    else .error (.unknownArgument argument)

/-- What the name of a command stands for. -/
def topicOf? (name : String) : Option HelpTopic :=
  if name = "serve" then some (.command .serve)
  else if name = "validate" then some (.command .validate)
  else if name = "help" then some .help
  else none

/-- Reads what follows the command `help`: the name of a command. -/
def help : List String → CommandLineStop
  | [] => .displayHelp .program
  | name :: rest =>
    match topicOf? name, rest with
    | none, _ => .invalidSubcommand name
    | some topic, [] => .displayHelp topic
    | some _, other :: _ => .invalidSubcommand other

/-- The fault of an argument that is neither an option nor a command. -/
def stray (afterCommand escaped : Bool) (argument : String) : CommandLineStop :=
  if afterCommand then .unknownArgument argument
  else if escaped && (topicOf? argument).isSome then
    .unknownArgument argument
  else .invalidSubcommand argument

/-- Reads the arguments of one place up to the end, or up to a command, which is given back
with the arguments after it. -/
def Place.read (p : Place) :
    List String → Except CommandLineStop (Place × Option (Command × List String))
  | [] => .ok (p, none)
  | argument :: rest =>
    let awaiting := match p.pending with
      | some (_, none) => true
      | _ => false
    match (if awaiting || p.afterCommand then none else topicOf? argument) with
    | some (.command c) => .ok (p, some (c, rest))
    | some _ => .error (help rest)
    | none =>
      if argument = "--" then
        match rest with
        | [] => .ok (p, none)
        | other :: _ => .error (stray p.afterCommand true other)
      else if argument.startsWith "--" then do (← p.long argument).read rest
      else if argument.startsWith "-" && argument ≠ "-" then do
        (← p.short argument (argument.toList.drop 1)).read rest
      else
        match p.pending with
        | some (o, none) => { p with pending := some (o, some argument) }.read rest
        | _ => .error (stray p.afterCommand false argument)

/-- Adds what the environment says about the options that were not given. -/
def Place.withEnvironment (p : Place) (env : String → Option String) :
    Except CommandLineStop Place :=
  ValueOption.all.foldlM (fun p o =>
    if (p.values.lookup o).isSome then .ok p
    else match env o.envName with
      | none => .ok p
      | some value =>
        if o.accepts value then .ok { p with values := p.values ++ [(o, value)] }
        else .error (.invalidValue o)) p

/-- The value of an option: what follows the command, then what precedes it, then the
environment. -/
def value (before after : Place) (env : String → Option String) (o : ValueOption) :
    Option String :=
  match after.values.lookup o with
  | some v => some v
  | none =>
    match before.values.lookup o with
    | some v => some v
    | none => env o.envName

/-- Reads the arguments that follow the program's name. -/
def parse (env : String → Option String) (arguments : List String) :
    Except CommandLineStop CommandLine := do
  let (before, command) ← (Place.mk none [] false none).read arguments
  let after ← match command with
    | none => pure (Place.mk none [] false none)
    | some (c, rest) => do
      let (after, _) ← (Place.mk (some c) [] false none).read rest
      let after ← after.settle
      let _ ← after.withEnvironment env
      pure after
  let before ← before.settle
  let _ ← before.withEnvironment env
  return {
    config := value before after env .config
    logLevel := (value before after env .logLevel).getD "info"
    logFormat := value before after env .logFormat
    noWatch := before.noWatch
    command := command.map (·.1) }

end CommandLine

end DeviceAccess
