import PlanAssistant.Tools.Result
import PlanAssistant.Workspace
import PlanAssistant.Files.Operations

/-!
Reading a file of the workspace: its text, cut off at the output limit.
-/
namespace PlanAssistant.Tools

open Files

variable [Interpreter]

/-- The content of a real file, or why there is none to show. -/
def fileText (tree : Node) (path : FilePath) : ToolResult :=
  match isDirectoryAt tree path with
  | .ok true => .failed "ReadFile error: target is a directory."
  | .error e => .failed ("ReadFile error: " ++ e.message)
  | .ok false =>
    match readBytes tree path with
    | .ok content => .ofOutput (truncate (contentText content))
    | .error e => .failed ("ReadFile error: " ++ e.message)

def readFile (workspace : Workspace) (tree : Node) (argument : String) : ToolResult :=
  match (if argument.isEmpty then none else workspace.resolve? tree argument) with
  | none => .failed "Unable to resolve path for ReadFile."
  | some path => fileText tree path

end PlanAssistant.Tools
