import PlanAssistant.Text.Printable
import PlanAssistant.Text.Surrogate

/-!
Quoted texts: a text between quotes with backslash escapes, so that it shows on one line.  Single
quotes are used unless the text holds a single quote and no double quote.
-/
namespace PlanAssistant.Text

variable [Interpreter]

/-- `n` in hexadecimal with at least `width` digits. -/
def hex (width n : Nat) : List Char :=
  let digits := Nat.toDigits 16 n
  List.replicate (width - digits.length) '0' ++ digits

/-- One character between `quote` marks. -/
def escapeChar (quote c : Char) : List Char :=
  if c == quote || c == '\\' then ['\\', c]
  else if c == '\t' then ['\\', 't']
  else if c == '\n' then ['\\', 'n']
  else if c == '\r' then ['\\', 'r']
  else if isPrintable c then [c]
  else if codePoint c < 0x100 then '\\' :: 'x' :: hex 2 (codePoint c)
  else if codePoint c < 0x10000 then '\\' :: 'u' :: hex 4 (codePoint c)
  else '\\' :: 'U' :: hex 8 (codePoint c)

def quoteMark (cs : List Char) : Char :=
  if cs.contains '\'' && !cs.contains '"' then '"' else '\''

def quoted (text : String) : String :=
  let cs := text.toList
  let quote := quoteMark cs
  String.ofList (quote :: cs.flatMap (escapeChar quote) ++ [quote])

end PlanAssistant.Text
