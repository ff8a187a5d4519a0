import PlanAssistant.Text.Search

/-!
Command-line arguments.  An option has a long name after two dashes, and perhaps a letter after one;
letters may be run together, and a value follows its option or is joined to it.  Two dashes alone end
the options; for some commands the first word that is no option does so too.  The words that remain are
given back in order.
-/
namespace PlanAssistant

/-- An option: its identity, its names, and whether it takes a value. -/
structure OptionSpec (α : Type) where
  id : α
  long : String
  short : Option Char := none
  takesValue : Bool := false

/-- An option that was given, with its value if it takes one. -/
structure Given (α : Type) where
  id : α
  value : Option String := none
deriving DecidableEq, Repr

/-- Why arguments cannot be read. -/
inductive UsageError where
  | unknownOption
  | missingValue
  | surplusValue
  | missingArgument
  | surplusArgument
  | unknownCommand
deriving DecidableEq, Repr

/-- Arguments on the way: the options and words found, the option that waits for its value, and whether
all that follows are words. -/
structure Arguments (α : Type) where
  options : List (Given α) := []
  words : List String := []
  awaiting : Option α := none
  ended : Bool := false

namespace Arguments

variable {α : Type}

def give (arguments : Arguments α) (given : Given α) : Arguments α :=
  { arguments with options := arguments.options ++ [given] }

/-- Read letters that are run together; what follows a letter with a value is its value. -/
def readLetters (specs : List (OptionSpec α)) (arguments : Arguments α) :
    List Char → Except UsageError (Arguments α)
  | [] => .ok arguments
  | letter :: rest =>
    match specs.find? (·.short == some letter) with
    | none => .error .unknownOption
    | some spec =>
      if spec.takesValue then
        match rest with
        | [] => .ok { arguments with awaiting := some spec.id }
        | _ => .ok (arguments.give ⟨spec.id, some (String.ofList rest)⟩)
      else readLetters specs (arguments.give ⟨spec.id, none⟩) rest

/-- Read an option with a long name, and its value if one is joined to it. -/
def readLong (spec : OptionSpec α) (arguments : Arguments α) (joined : Option String) :
    Except UsageError (Arguments α) :=
  match spec.takesValue, joined with
  | true, some value => .ok (arguments.give ⟨spec.id, some value⟩)
  | true, none => .ok { arguments with awaiting := some spec.id }
  | false, some _ => .error .surplusValue
  | false, none => .ok (arguments.give ⟨spec.id, none⟩)

/-- The name before an equals sign, and the value after it. -/
def splitJoined (arg : String) : String × Option String :=
  if Text.contains arg "=" then ((Text.cut '=' arg).1, some (Text.cut '=' arg).2) else (arg, none)

def readOption (specs : List (OptionSpec α)) (arguments : Arguments α) (arg : String) :
    Except UsageError (Arguments α) :=
  let (name, joined) := splitJoined arg
  match specs.find? (·.long == name) with
  | some spec => readLong spec arguments joined
  | none =>
    if Text.startsWith arg "--" then .error .unknownOption
    else readLetters specs arguments (arg.toList.drop 1)

/-- Whether an argument is written like an option. -/
def looksLikeOption (arg : String) : Bool := Text.startsWith arg "-" && 1 < Text.length arg

/-- Read one argument; unless words and options may be mixed, the first word ends the options. -/
def readOne (specs : List (OptionSpec α)) (mixed : Bool) (arguments : Arguments α) (arg : String) :
    Except UsageError (Arguments α) :=
  match arguments.awaiting with
  | some id => .ok { arguments.give ⟨id, some arg⟩ with awaiting := none }
  | none =>
    if arguments.ended then .ok { arguments with words := arguments.words ++ [arg] }
    else if arg == "--" then .ok { arguments with ended := true }
    else if looksLikeOption arg then readOption specs arguments arg
    else .ok { arguments with words := arguments.words ++ [arg], ended := !mixed }

/-- Read all arguments. -/
def read (specs : List (OptionSpec α)) (mixed : Bool) (args : List String) :
    Except UsageError (Arguments α) :=
  match args.foldlM (readOne specs mixed) {} with
  | .error e => .error e
  | .ok arguments => if arguments.awaiting.isSome then .error .missingValue else .ok arguments

/-- Whether an option was given. -/
def isGiven [BEq α] (arguments : Arguments α) (id : α) : Bool := arguments.options.any (·.id == id)

/-- The last value given for an option. -/
def value? [BEq α] (arguments : Arguments α) (id : α) : Option String :=
  (arguments.options.reverse.find? (·.id == id)).bind (·.value)

end Arguments
end PlanAssistant
