import PlanAssistant.Session.Basic
import PlanAssistant.Files.Operations
import PlanAssistant.Workspace

/-!
Keeping plan documents.  A document goes into the plans directory of the workspace, into a file named
for the time and the id of its session; the directories on the way are made.  Without a workspace
nothing is kept.  The path is put together from its names and is not confined to the workspace.
-/
namespace PlanAssistant.Document

open Files

/-- Why a document could not be kept. -/
inductive WriteError where
  | file (error : FileError)
  /-- The system does not take the path. -/
  | refused (refusal : Refusal)
  | tooDeep
  /-- The text holds a surrogate. -/
  | unencodable
deriving DecidableEq, Repr

namespace WriteError

def message [Interpreter] : WriteError → String
  | file error => error.message
  | refused refusal => refusal.reason
  | tooDeep => "maximum recursion depth exceeded"
  | unencodable => Refusal.unencodable.reason

def ofMake : MakeError → WriteError
  | .file error => file error
  | .tooDeep => tooDeep

end WriteError

/-- The file of a session's document. -/
def path? (workspace : Workspace) (plansDir : String) (s : Session) : Option FilePath :=
  workspace.root.map fun root =>
    let name := "plan-" ++ s.createdAt.fileStamp ++ "-" ++ s.shortId ++ ".md"
    (root.join (.ofText plansDir)).join (.ofText name)

/-- The tree after an attempt to write, and the path that was written or why none was. -/
abbrev Written := Node × Except WriteError (Option String)

/-- Somewhere to keep the documents of sessions. -/
abbrev Sink := Node → Session → String → Written

variable [Interpreter]

/-- Write a text to a file.  The file is emptied first, and stays empty if the text cannot be encoded. -/
def writeText (tree : Node) (path : FilePath) (text : String) : Written :=
  match writeBytes tree path ((Text.encode? text).getD .empty) with
  | .error error => (tree, .error (.file error))
  | .ok tree => (tree, if (Text.encode? text).isSome then .ok (some path.text) else .error .unencodable)

/-- Write a text to a file, making its directories first. -/
def writeAt (tree : Node) (path : FilePath) (text : String) : Written :=
  match path.parent.refusal? with
  | some refusal => (tree, .error (.refused refusal))
  | none =>
    match makeDirectories tree path.parent with
    | (tree, some error) => (tree, .error (.ofMake error))
    | (tree, none) =>
      match path.refusal? with
      | some refusal => (tree, .error (.refused refusal))
      | none => writeText tree path text

/-- Keep the document of a session, if there is a workspace. -/
def keep (workspace : Workspace) (plansDir : String) : Sink := fun tree s text =>
  match path? workspace plansDir s with
  | none => (tree, .ok none)
  | some path => writeAt tree path text

end PlanAssistant.Document
