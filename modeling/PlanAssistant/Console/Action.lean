import PlanAssistant.Text.Search

/-!
What a terminal is told to show, and the markup of printed lines.  A bracket that would read as a tag is
escaped with a backslash, and so are the backslashes before it.
-/
namespace PlanAssistant

structure Table where
  title : String
  columns : List String
  rows : List (List String)
deriving DecidableEq, Repr

/-- One thing a terminal does. -/
inductive Action where
  | print (markup : String)
  | markdown (source : String)
  | panel (title text : String)
  | table (table : Table)
  /-- Set the label of the spinner. -/
  | label (markup : String)
  | startSpinner
  | stopSpinner
  /-- Ask the user for a line. -/
  | ask (prompt : String)
deriving DecidableEq, Repr

namespace Markup

/-- Whether a tag may begin with a character. -/
def opensTag (c : Char) : Bool := ('a' ≤ c && c ≤ 'z') || c == '#' || c == '/' || c == '@'

/-- The rest of a tag up to its closing bracket, which no other opening bracket comes before. -/
def tagRest? : List Char → Option (List Char)
  | [] => none
  | ']' :: _ => some [']']
  | '[' :: _ => none
  | c :: rest => (tagRest? rest).map (c :: ·)

/-- The tag right here. -/
def tag? : List Char → Option (List Char)
  | '[' :: c :: rest => if opensTag c then (tagRest? rest).map ('[' :: c :: ·) else none
  | _ => none

/-- Escape all tags; `slashes` are the backslashes just read. -/
def escapeFrom (slashes : Nat) : List Char → List Char
  | [] => List.replicate slashes '\\'
  | c :: rest =>
    if c == '\\' then escapeFrom (slashes + 1) rest
    else
      let before := match tag? (c :: rest) with
        | some _ => List.replicate (2 * slashes + 1) '\\'
        | none => List.replicate slashes '\\'
      before ++ c :: escapeFrom 0 rest

/-- A single backslash at the end is doubled. -/
def closeEnd (cs : List Char) : List Char :=
  match cs.reverse with
  | ['\\'] => ['\\', '\\']
  | '\\' :: c :: _ => if c == '\\' then cs else cs ++ ['\\']
  | _ => cs

/-- The markup that shows a text as it stands. -/
def escape (text : String) : String := String.ofList (closeEnd (escapeFrom 0 text.toList))

end Markup
end PlanAssistant
