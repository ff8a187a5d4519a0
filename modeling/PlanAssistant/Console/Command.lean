import PlanAssistant.Console.Arguments

/-!
The commands of the program and how they are written.  Options of the program itself stand before the
command; asking for help or for the version comes before everything else, except for options that
cannot be read.
-/
namespace PlanAssistant

/-- What a run is asked to do. -/
structure RunRequest where
  task : String
  /-- The root of the workspace, as written. -/
  workspace : String := "."
  withoutWorkspace : Bool := false
  model : Option String := none
  showsReasoning : Bool := false
deriving DecidableEq, Repr

inductive Command where
  | run (request : RunRequest)
  | models
  | config
  | help
deriving DecidableEq, Repr

/-- What the options of the program and the command word ask for. -/
inductive Entry where
  | version
  | help
  | command (name : String) (args : List String)
deriving DecidableEq, Repr

/-! ### The program's own options -/

inductive ProgramOption where
  | version
  | verbose
  | help
deriving DecidableEq, Repr

def programOptions : List (OptionSpec ProgramOption) :=
  [ { id := .version, long := "--version", short := some 'V' },
    { id := .verbose, long := "--verbose", short := some 'v' },
    { id := .help, long := "--help" } ]

/-- The first option that comes before everything else. -/
def urgent? (options : List (Given ProgramOption)) : Option Entry :=
  options.findSome? fun given =>
    match given.id with
    | .version => some .version
    | .help => some .help
    | .verbose => none

def commandNames : List String := ["run", "models", "config"]

/-- What a command word that names no command comes to: if it is written like an option, it is read as
one of the program's after all. -/
def Entry.ofUnknown (words : List String) : Except UsageError Entry := do
  if Text.startsWith (words.headD "") "-" then
    let arguments ← Arguments.read programOptions false words
    match urgent? arguments.options with
    | some entry => return entry
    | none => throw .unknownCommand
  else throw .unknownCommand

/-- Read the options of the program, up to the command word. -/
def Entry.read (args : List String) : Except UsageError Entry := do
  let arguments ← Arguments.read programOptions false args
  match urgent? arguments.options with
  | some entry => return entry
  | none =>
    match arguments.words with
    | [] => throw .missingArgument
    | name :: rest =>
      if commandNames.contains name then return .command name rest
      else Entry.ofUnknown (name :: rest)

/-! ### The options of commands -/

inductive RunOption where
  | workspace
  | noWorkspace
  | model
  | reasoning
  | help
deriving DecidableEq, Repr

def runOptions : List (OptionSpec RunOption) :=
  [ { id := .workspace, long := "--workspace", short := some 'w', takesValue := true },
    { id := .noWorkspace, long := "--no-workspace" },
    { id := .model, long := "--model", short := some 'm', takesValue := true },
    { id := .reasoning, long := "--reasoning" },
    { id := .help, long := "--help" } ]

/-- The one word among those given. -/
def onlyWord : List String → Except UsageError String
  | [] => .error .missingArgument
  | [word] => .ok word
  | _ => .error .surplusArgument

def readRun (args : List String) : Except UsageError Command := do
  let arguments ← Arguments.read runOptions true args
  if arguments.isGiven .help then return .help
  let task ← onlyWord arguments.words
  return .run
    { task
      workspace := (arguments.value? .workspace).getD "."
      withoutWorkspace := arguments.isGiven .noWorkspace
      model := arguments.value? .model
      showsReasoning := arguments.isGiven .reasoning }

def plainOptions : List (OptionSpec Unit) := [{ id := (), long := "--help" }]

/-- Read the arguments of a command that takes none. -/
def readPlain (command : Command) (args : List String) : Except UsageError Command := do
  let arguments ← Arguments.read plainOptions true args
  if arguments.isGiven () then return .help
  if arguments.words.isEmpty then return command else throw .surplusArgument

/-- Read the arguments of a command. -/
def Command.read (name : String) (args : List String) : Except UsageError Command :=
  match name with
  | "run" => readRun args
  | "models" => readPlain .models args
  | "config" => readPlain .config args
  | _ => .error .unknownCommand

end PlanAssistant
