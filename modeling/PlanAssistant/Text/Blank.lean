/-!
Blank characters and the removal of blanks at the ends of a text.  A stripped text neither starts
nor ends with a blank, and stripping it again changes nothing.
-/
namespace PlanAssistant.Text

/-- White space in the sense of texts: the space, the tabs and line ends, the four information
separators, and the wide, thin and no-break spaces. -/
def isBlank (c : Char) : Bool :=
  let n := c.toNat
  n == 0x20 || (0x9 ≤ n && n ≤ 0xD) || (0x1C ≤ n && n ≤ 0x1F) || n == 0x85 || n == 0xA0 ||
    n == 0x1680 || (0x2000 ≤ n && n ≤ 0x200A) || n == 0x2028 || n == 0x2029 || n == 0x202F ||
    n == 0x205F || n == 0x3000

/-- Drop the characters of a class from both ends. -/
def stripWhile (drop : Char → Bool) (cs : List Char) : List Char :=
  ((cs.dropWhile drop).reverse.dropWhile drop).reverse

def strip (text : String) : String := String.ofList (stripWhile isBlank text.toList)

end PlanAssistant.Text
