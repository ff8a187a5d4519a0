import PlanAssistant.Text.Search

/-!
What a tool gives: an output, or an error and no output.  Long outputs are cut off with a notice that
tells how much is missing.
-/
namespace PlanAssistant

structure ToolResult where
  output : String := ""
  error : Option String := none
deriving DecidableEq, Repr, Inhabited

namespace ToolResult

def ofOutput (output : String) : ToolResult := { output }

def failed (error : String) : ToolResult := { error := some error }

end ToolResult

/-- The most characters an output shows. -/
def outputLimit : Nat := 2000

/-- A text, cut off after the limit with a notice of the missing characters. -/
def truncate (value : String) : String :=
  let length := Text.length value
  if length ≤ outputLimit then value
  else
    Text.take outputLimit value ++ "\n... (truncated " ++ toString (length - outputLimit) ++ " characters)"

end PlanAssistant
