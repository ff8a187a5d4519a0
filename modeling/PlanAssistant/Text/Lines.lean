/-!
Lines.  `splitAll` cuts at every line boundary a text can hold and drops the boundaries;
`normalizeNewlines` reads the three common line ends as one; `splitNewlines` cuts at a line feed, with
or without a carriage return before it.
-/
namespace PlanAssistant.Text

/-- The single characters that end a line, the carriage return apart. -/
def isLineEnd (c : Char) : Bool :=
  c == '\n' || c == '\x0b' || c == '\x0c' || c == '\x1c' || c == '\x1d' || c == '\x1e' ||
    c == '\u0085' || c == '\u2028' || c == '\u2029'

/-- The lines of `cs`, where `line` holds the current line, last character first. -/
def splitAllFrom (line : List Char) : List Char → List (List Char)
  | [] => if line.isEmpty then [] else [line.reverse]
  | '\r' :: '\n' :: rest => line.reverse :: splitAllFrom [] rest
  | c :: rest =>
    if c == '\r' || isLineEnd c then line.reverse :: splitAllFrom [] rest
    else splitAllFrom (c :: line) rest

/-- The lines of a text; a boundary at its end starts no further line. -/
def splitAll (text : String) : List String := (splitAllFrom [] text.toList).map String.ofList

def normalizeNewlines : List Char → List Char
  | [] => []
  | '\r' :: '\n' :: rest => '\n' :: normalizeNewlines rest
  | c :: rest => (if c == '\r' then '\n' else c) :: normalizeNewlines rest

/-- The pieces of `cs` between line feeds, where `line` holds the current piece, last character
first; a carriage return right before a line feed belongs to the line end. -/
def splitNewlinesFrom (line : List Char) : List Char → List (List Char)
  | [] => [line.reverse]
  | '\r' :: '\n' :: rest => line.reverse :: splitNewlinesFrom [] rest
  | c :: rest =>
    if c == '\n' then line.reverse :: splitNewlinesFrom [] rest
    else splitNewlinesFrom (c :: line) rest

/-- The pieces of a text between its line ends: always one more than there are line ends. -/
def splitNewlines (text : String) : List String :=
  (splitNewlinesFrom [] text.toList).map String.ofList

end PlanAssistant.Text
