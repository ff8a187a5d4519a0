import PlanAssistant.Text.Blank
import PlanAssistant.Text.Lines
import PlanAssistant.Text.Search
import PlanAssistant.Text.Utf8

/-!
Environment variables, and files of `NAME=value` lines that fill in those not set yet.  The user's file
comes before the project's, so for each variable the first source that gives it a value wins.
-/
namespace PlanAssistant

/-- Variables and their values; no name occurs twice. -/
abbrev Environment := List (String × String)

namespace Environment

def get? (env : Environment) (name : String) : Option String := (env.find? (·.1 == name)).map (·.2)

/-- The value of a variable, empty when it is not set. -/
def value (env : Environment) (name : String) : String := (env.get? name).getD ""

def set (env : Environment) (name value : String) : Environment :=
  if (env.get? name).isSome then
    env.map fun entry => if entry.1 == name then (name, value) else entry
  else env ++ [(name, value)]

/-- Whether a variable is set to something. -/
def has (env : Environment) (name : String) : Bool := !(env.value name).isEmpty

end Environment

namespace KeyFile

/-- Why reading a key file broke off. -/
inductive Fault where
  | notUtf8
  | nulCharacter
deriving DecidableEq, Repr

def Fault.message : Fault → String
  | notUtf8 => "The file is not UTF-8 text"
  | nulCharacter => "embedded null byte"

def isQuote (c : Char) : Bool := c == '\'' || c == '"'

/-- The name and the value a line gives, without the quotes around the value. -/
def entry? (line : String) : Option (String × String) :=
  let line := Text.strip line
  if line.isEmpty || Text.startsWith line "#" || !Text.contains line "=" then none
  else
    let (name, value) := Text.cut '=' line
    let name := Text.strip name
    let value := String.ofList (Text.stripWhile isQuote (Text.strip value).toList)
    if name.isEmpty then none else some (name, value)

def hasNul (text : String) : Bool := text.toList.contains '\x00'

/-- One entry: a variable that has a value keeps it. -/
def applyEntry (env : Environment) (name value : String) : Except Fault Environment :=
  if env.has name then .ok env
  else if hasNul name || hasNul value then .error .nulCharacter
  else .ok (env.set name value)

/-- The lines in order, up to the first that fails. -/
def applyLines (env : Environment) : List String → Environment × Option Fault
  | [] => (env, none)
  | line :: rest =>
    match entry? line with
    | none => applyLines env rest
    | some (name, value) =>
      match applyEntry env name value with
      | .ok env => applyLines env rest
      | .error fault => (env, some fault)

/-- The lines of a key file, if it is text. -/
def lines? (content : ByteArray) : Option (List String) :=
  (Text.decode? content).map fun text =>
    Text.splitAll (String.ofList (Text.normalizeNewlines text.toList))

/-- Fill in variables from a file; a file that is not there or cannot be read changes nothing. -/
def apply (env : Environment) (content : Option ByteArray) : Environment × Option Fault :=
  match content with
  | none => (env, none)
  | some bytes =>
    match lines? bytes with
    | none => (env, some .notUtf8)
    | some lines => applyLines env lines

/-- Fill in variables from the user's file, then from the project's. -/
def applyBoth (env : Environment) (home project : Option ByteArray) : Environment × Option Fault :=
  match apply env home with
  | (env, some fault) => (env, some fault)
  | (env, none) => apply env project

end KeyFile
end PlanAssistant
