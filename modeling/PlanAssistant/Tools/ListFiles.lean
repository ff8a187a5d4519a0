import PlanAssistant.Tools.Result
import PlanAssistant.Workspace
import PlanAssistant.Files.Operations

/-!
Listing a directory of the workspace: its entries sorted by name, each below the directory's path from
the root, directories with a slash at the end.
-/
namespace PlanAssistant.Tools

open Files

variable [Interpreter]

def emptyDirectory : String := "(empty directory)"

/-- The lines of entries, up to the first that cannot be looked at. -/
def entryLines (tree : Node) (directory : FilePath) (base : String) :
    List String → Except FileError (List String)
  | [] => .ok []
  | name :: rest => do
    let isDirectory ← isDirectoryAt tree (directory.child name)
    let lines ← entryLines tree directory base rest
    return (base ++ "/" ++ name ++ (if isDirectory then "/" else "")) :: lines

/-- The lines for a real directory, seen from the root. -/
def listingLines (tree : Node) (root directory : FilePath) : Except FileError (List String) := do
  let names ← listNames tree directory
  entryLines tree directory (directory.relativeText root) names

/-- What is said of a directory with these lines. -/
def listing (lines : List String) : String :=
  if lines.isEmpty then emptyDirectory else "\n".intercalate lines

def listFiles (workspace : Workspace) (tree : Node) (argument : String) : ToolResult :=
  match workspace.root with
  | none => .failed "Workspace folder is not available for ListFiles."
  | some root =>
    match workspace.resolve? tree (if argument.isEmpty then "." else argument) with
    | none => .failed "ListFiles error: path is outside the workspace."
    | some directory =>
      match listingLines tree root directory with
      | .ok lines => .ofOutput (listing lines)
      | .error e => .failed ("ListFiles error: " ++ e.message)

end PlanAssistant.Tools
