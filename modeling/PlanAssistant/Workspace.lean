import PlanAssistant.Files.Resolve
import PlanAssistant.Text.Blank

/-!
The workspace: one directory that tool paths are confined to.  A path is resolved to its real path
first, and refused unless that lies under the root by its names.
-/
namespace PlanAssistant

open Files

/-- The real path of the root, if there is a workspace. -/
structure Workspace where
  root : Option FilePath
deriving DecidableEq, Repr, Inhabited

namespace Workspace

variable [Interpreter]

def none : Workspace := ⟨Option.none⟩

/-- The workspace at a root given as text, seen from the directory `here`; an empty text is no root. -/
def «open» (tree : Node) (here : FilePath) (root : String) : Except ResolveError Workspace :=
  if root.isEmpty then .ok none
  else (resolve tree (here.join (.ofText root))).map fun real => ⟨some real⟩

/-- Whether a path is the root or lies under it, going by its names. -/
def contains (workspace : Workspace) (path : FilePath) : Bool :=
  workspace.root.any path.isWithin

/-- The real path that a requested path has inside the workspace. -/
def resolve? (workspace : Workspace) (tree : Node) (requested : String) : Option FilePath := do
  let root ← workspace.root
  let stripped := Text.strip requested
  let candidate := root.join (.ofText (if stripped.isEmpty then "." else stripped))
  let real ← (resolve tree candidate).toOption
  if workspace.contains real then some real else Option.none

end Workspace
end PlanAssistant
