/-!
Finding one text inside another: infix tests, cutting at the first occurrence of a character, and
cutting at every one.
-/
namespace PlanAssistant.Text

/-- Whether `needle` occurs in `cs`. -/
def occursIn (needle : List Char) : List Char → Bool
  | [] => needle.isEmpty
  | c :: rest => needle.isPrefixOf (c :: rest) || occursIn needle rest

def contains (text needle : String) : Bool := occursIn needle.toList text.toList

/-- The parts of a text before and after the first `mark`; all of it and nothing when there is none. -/
def cut (mark : Char) (text : String) : String × String :=
  let cs := text.toList
  (String.ofList (cs.takeWhile (· != mark)), String.ofList ((cs.dropWhile (· != mark)).drop 1))

/-- The pieces between the marks: always one more than there are marks. -/
def splitOn (mark : Char) : List Char → List (List Char)
  | [] => [[]]
  | c :: rest =>
    if c == mark then [] :: splitOn mark rest
    else match splitOn mark rest with
      | [] => [[c]]
      | piece :: pieces => (c :: piece) :: pieces

def startsWith (text start : String) : Bool := start.toList.isPrefixOf text.toList

/-- A text cut off after `count` characters. -/
def take (count : Nat) (text : String) : String := String.ofList (text.toList.take count)

def length (text : String) : Nat := text.toList.length

end PlanAssistant.Text
