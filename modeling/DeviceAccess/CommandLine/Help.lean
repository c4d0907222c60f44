import DeviceAccess.CommandLine

/-!
# Help

The texts that the command line answers on request: what the program, or one of its commands, is for,
how it is called, and its options with the variables that give them.  Descriptions stand in a column
of their own and are broken between words at the width of a page.  A command line that cannot be read
is answered by what is wrong with it (`Help.complaint`).
-/

namespace DeviceAccess

namespace Help

/-- The program's name and version. -/
def version : String := "edge-trust 0.1.0"

/-- The width of a page. -/
def pageWidth : Nat := 100

/-- An entry of a list: how it is written, and what it is for. -/
structure Entry where
  written : String
  about : String

/-- Breaks words into lines of at most `width` characters; a longer word has a line of its own. -/
def fill (width : Nat) (line : String) : List String → List String
  | [] => [line]
  | word :: words =>
    if line.length + 1 + word.length ≤ width then fill width (line ++ " " ++ word) words
    else line :: fill width word words

/-- A text in lines of at most `width` characters. -/
def wrap (width : Nat) (text : String) : List String :=
  match text.splitOn " " with
  | [] => []
  | word :: words => fill width word words

/-- Blanks. -/
def blanks (n : Nat) : String := String.ofList (List.replicate n ' ')

/-- A list with its descriptions in one column. -/
def table (entries : List Entry) : List String :=
  let width := (entries.map fun e => e.written.length).foldl max 0
  let column := width + 4
  entries.flatMap fun e =>
    match wrap (pageWidth - column) e.about with
    | [] => []
    | first :: rest =>
      ("  " ++ e.written ++ blanks (width - e.written.length) ++ "  " ++ first)
        :: rest.map fun line => blanks column ++ line

/-- What a command is for. -/
def about : Command → String
  | .serve => "Run the service until interrupted (default)"
  | .validate => "Load and validate a configuration, then print a summary"

/-- The name of a command. -/
def commandName : Command → String
  | .serve => "serve"
  | .validate => "validate"

/-- What the command `help` is for. -/
def helpAbout : String := "Print this message or the help of the given subcommand(s)"

/-- The list of commands. -/
def commands : List Entry :=
  [.serve, .validate].map (fun c => ⟨commandName c, about c⟩) ++ [⟨"help", helpAbout⟩]

/-- How an option that takes a value is written. -/
def written : ValueOption → String
  | .config => "--config <CONFIG>"
  | .logLevel => "--log-level <LOG_LEVEL>"
  | .logFormat => "--log-format <LOG_FORMAT>"

/-- The options that take a value, with the variables that give them as they are. -/
def valueOptions (env : String → Option String) : List Entry :=
  let given := fun (o : ValueOption) =>
    " [env: " ++ o.envName ++ "=" ++ (env o.envName).getD "" ++ "]"
  [⟨"-c, " ++ written .config, "Path to configuration file (YAML)" ++ given .config⟩,
    ⟨"    " ++ written .logLevel,
      "Log level (trace, debug, info, warn, error)" ++ given .logLevel ++ " [default: info]"⟩,
    ⟨"    " ++ written .logFormat, "Log format (text, json)" ++ given .logFormat⟩]

/-- The request for help. -/
def helpOption : Entry := ⟨"-h, --help", "Print help"⟩

/-- A page, line by line. -/
def page (env : String → Option String) : HelpTopic → List String
  | .program =>
    ["Edge trust service - certificate sessions, group policies and a local CA for client devices",
      "", "Usage: edge-trust [OPTIONS] [COMMAND]", "", "Commands:"] ++ table commands
    ++ ["", "Options:"] ++ table (valueOptions env ++ [
      ⟨"    --no-watch", "Do not watch the configuration file for changes"⟩, helpOption,
      ⟨"-V, --version", "Print version"⟩])
  | .command c =>
    [about c, "", "Usage: edge-trust " ++ commandName c ++ " [OPTIONS]", "", "Options:"]
    ++ table (valueOptions env ++ [helpOption])
  | .help =>
    [helpAbout, "", "Usage: edge-trust help [COMMAND]", "", "Commands:"]
    ++ table commands

/-! ### Complaints -/

/-- How an argument that was given twice is written. -/
def repeated (name : String) : String :=
  ((ValueOption.all.find? fun o => o.name = name).map written).getD ("--" ++ name)

/-- What is wrong with a command line. -/
def complaint : CommandLineStop → Option String
  | .displayHelp _ | .displayVersion => none
  | .unknownArgument a => some ("unexpected argument '" ++ a ++ "' found")
  | .invalidSubcommand a => some ("unrecognized subcommand '" ++ a ++ "'")
  | .invalidValue o => some ("a value is required for '" ++ written o ++ "' but none was supplied")
  | .tooManyValues a => some ("unexpected value in '" ++ a ++ "'; no more were expected")
  | .argumentConflict a =>
    some ("the argument '" ++ repeated a ++ "' cannot be used multiple times")

end Help

end DeviceAccess
