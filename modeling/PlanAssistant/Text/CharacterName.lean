import PlanAssistant.Interpreter
import PlanAssistant.Text.Digit

/-!
Characters by their names.  The syllables of Hangul are named by the letters they are put together from,
unified ideographs by their codes.  All other names are those that the interpreter lists, in letters of
either case.
-/
namespace PlanAssistant.Text

/-- The longest of the texts that some characters begin with, by its place, and what follows it. -/
def longestStart? (texts : List String) (cs : List Char) : Option (Nat × List Char) :=
  let starts := texts.zipIdx.filter fun (text, _) => text.toList.isPrefixOf cs
  let longer (best next : String × Nat) := if best.1.length < next.1.length then next else best
  starts.head?.map fun first =>
    let (text, place) := starts.foldl longer first
    (place, cs.drop text.length)

/-! ### Syllables -/

def leadNames : List String :=
  ["G", "GG", "N", "D", "DD", "R", "M", "B", "BB", "S", "SS", "", "J", "JJ", "C", "K", "T", "P", "H"]

def vowelNames : List String :=
  [ "A", "AE", "YA", "YAE", "EO", "E", "YEO", "YE", "O", "WA", "WAE", "OE", "YO", "U", "WEO", "WE",
    "WI", "YU", "EU", "YI", "I" ]

def tailNames : List String :=
  [ "", "G", "GG", "GS", "N", "NJ", "NH", "D", "L", "LG", "LM", "LB", "LS", "LT", "LP", "LH", "M",
    "B", "BS", "S", "SS", "NG", "J", "C", "K", "T", "P", "H" ]

def syllableStart : String := "HANGUL SYLLABLE "

/-- The syllable of three letters, the first and the last of which may be missing. -/
def syllable? (cs : List Char) : Option Nat := do
  let (lead, cs) ← longestStart? leadNames cs
  let (vowel, cs) ← longestStart? vowelNames cs
  let (tail, cs) ← longestStart? tailNames cs
  if cs.isEmpty then some (0xAC00 + (lead * vowelNames.length + vowel) * tailNames.length + tail) else none

/-! ### Ideographs -/

def ideographStart : String := "CJK UNIFIED IDEOGRAPH-"

/-- The blocks of unified ideographs, by their first and last codes. -/
def ideographBlocks : List (Nat × Nat) :=
  [ (0x3400, 0x4DBF), (0x4E00, 0x9FFF), (0x20000, 0x2A6DF), (0x2A700, 0x2B738), (0x2B740, 0x2B81D),
    (0x2B820, 0x2CEA1), (0x2CEB0, 0x2EBE0), (0x30000, 0x3134A) ]

def isIdeograph (code : Nat) : Bool := ideographBlocks.any fun (first, last) => first ≤ code && code ≤ last

def isCapitalHex (c : Char) : Bool := isAsciiDigit c || ('A' ≤ c && c ≤ 'F')

/-- The ideograph with a code of four or five digits. -/
def ideograph? (digits : List Char) : Option Nat :=
  let code := valueIn 16 digits
  if (digits.length == 4 || digits.length == 5) && digits.all isCapitalHex && isIdeograph code then some code
  else none

/-- The code of the character with a name. -/
def characterNamed? [Interpreter] (name : List Char) : Option Nat :=
  if syllableStart.toList.isPrefixOf name then syllable? (name.drop syllableStart.length)
  else if ideographStart.toList.isPrefixOf name then ideograph? (name.drop ideographStart.length)
  else Interpreter.characterNames.lookup (String.ofList (name.map Char.toUpper))

end PlanAssistant.Text
