import PlanAssistant.Text.Digit
import PlanAssistant.Text.Blank

/-!
The steps of a plan.  A step begins at the start of a line with `#E` and a number; an equals sign, the
name of a tool and an argument in brackets follow, where blanks around the equals sign may reach over
line ends.  The argument runs to the last bracket of its line, which only blanks follow.  All other
text is prose.
-/
namespace PlanAssistant

structure Step where
  number : String
  tool : String
  argument : String
deriving DecidableEq, Repr, Inhabited

namespace Step

/-- The token that refers to the step. -/
def id (step : Step) : String := "#E" ++ step.number

def isToolCharacter (c : Char) : Bool := c.isAlphanum || c == '_'

/-- The argument in the rest of a line after its opening bracket. -/
def argument? (line : List Char) : Option (List Char) :=
  match line.reverse.dropWhile Text.isBlank with
  | ']' :: before => some before.reverse
  | _ => none

/-- A tool and its argument that start right here. -/
def call? (cs : List Char) : Option (List Char × List Char) :=
  match cs.takeWhile isToolCharacter, cs.dropWhile isToolCharacter with
  | c :: tool, '[' :: rest => (argument? (rest.takeWhile (· != '\n'))).map ((c :: tool), ·)
  | _, _ => none

/-- The part of a step after its number. -/
def assigned? (cs : List Char) : Option (List Char × List Char) :=
  match cs.dropWhile Text.isBlank with
  | '=' :: rest => call? (rest.dropWhile Text.isBlank)
  | _ => none

/-- The step that starts right here. -/
def at? : List Char → Option Step
  | '#' :: 'E' :: rest =>
    match rest.takeWhile Text.isDigit with
    | [] => none
    | number =>
      (assigned? (rest.dropWhile Text.isDigit)).map fun (tool, argument) =>
        ⟨String.ofList number, String.ofList tool, String.ofList argument⟩
  | _ => none

/-- The steps that start at the line starts in `cs`, which itself starts a line or not. -/
def allFrom (lineStart : Bool) : List Char → List Step
  | [] => []
  | c :: rest =>
    let later := allFrom (c == '\n') rest
    match (if lineStart then at? (c :: rest) else none) with
    | some step => step :: later
    | none => later

end Step

/-- The steps of a plan in the order of the text. -/
def planSteps (plan : String) : List Step := Step.allFrom true plan.toList

end PlanAssistant
