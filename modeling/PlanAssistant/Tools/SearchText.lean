import PlanAssistant.Tools.Result
import PlanAssistant.Workspace
import PlanAssistant.Files.Operations
import PlanAssistant.Pattern.Reading
import PlanAssistant.Pattern.Matching

/-!
Searching the workspace for a pattern, breadth first.  A search visits every real path once, passes over
some directories by name and over large files, and ends when nothing is left, when enough files were
read, or when enough lines were found.  A text that is no pattern is searched for as it stands, without
regard to case.
-/
namespace PlanAssistant.Tools

open Files

/-- The most files a search reads. -/
def fileBudget : Nat := 120

/-- The most lines a search reports. -/
def lineBudget : Nat := 40

/-- Files with more bytes than this are passed over unread. -/
def largestFile : Nat := 200000

/-- Directories that no search enters. -/
def skippedNames : List String := [".git", "node_modules", ".turbo", ".next", "dist", "build"]

def noResults : String := "No results from SearchText."

/-- What lines are searched for. -/
inductive Query where
  | pattern (node : Pattern.Node)
  | fragment (small : String)

namespace Query

variable [Interpreter]

/-- The query that a text writes; a text that is no pattern is a fragment. -/
def ofText (text : String) : Except Pattern.Fault Query :=
  match Pattern.read text with
  | .ok node => .ok (pattern node)
  | .error .malformed => .ok (fragment (Text.lower text))
  | .error fault => .error fault

def accepts (line : String) : Query → Bool
  | pattern node => Pattern.occurs node line
  | fragment small => Text.contains (Text.lower line) small

end Query

/-- A line that a search found, with its file and its number there. -/
structure Match where
  file : FilePath
  number : Nat
  line : String
deriving DecidableEq, Repr, Inhabited

/-- How a match is reported, with its file named from the root. -/
def Match.text (root : FilePath) (found : Match) : String :=
  found.file.relativeText root ++ ":" ++ toString found.number ++ ": " ++ Text.strip found.line

/-- A search on its way: paths still to visit, paths visited, files read, and the matches so far. -/
structure Search where
  queue : List FilePath
  visited : List FilePath := []
  opened : List FilePath := []
  found : List Match := []

namespace Search

/-- What a search goes by. -/
structure Setting where
  workspace : Workspace
  tree : Node
  query : Query

def start (path : FilePath) : Search := { queue := [path] }

def isOver (search : Search) : Bool :=
  search.queue.isEmpty || fileBudget ≤ search.opened.length || lineBudget ≤ search.found.length

variable [Interpreter]

/-- The real paths of a directory's entries, in order of their names: none for the names passed over,
for links that cannot be resolved, and for what lies outside the workspace. -/
def children (setting : Setting) (directory : FilePath) (names : List String) : List FilePath :=
  names.filterMap fun name =>
    if skippedNames.contains name then none
    else match resolve setting.tree (directory.child name) with
      | .ok real => if setting.workspace.contains real then some real else none
      | .error _ => none

/-- At most `room` of the matches among the lines of a file from `number` on. -/
def takeMatches (query : Query) (file : FilePath) (number : Nat) : Nat → List String → List Match
  | 0, _ => []
  | _, [] => []
  | room + 1, line :: rest =>
    if query.accepts line then ⟨file, number, line⟩ :: takeMatches query file (number + 1) room rest
    else takeMatches query file (number + 1) (room + 1) rest

/-- Visit a path not visited before. -/
def visit (setting : Setting) (path : FilePath) (search : Search) : Search :=
  match status setting.tree path with
  | .ok (.directory _) =>
    match listNames setting.tree path with
    | .ok names => { search with queue := search.queue ++ children setting path names }
    | .error _ => search
  | .ok (.file content) =>
    if largestFile < content.size then search
    else
      let lines := Text.splitNewlines (contentText content)
      let room := lineBudget - search.found.length
      { search with
        opened := search.opened ++ [path]
        found := search.found ++ takeMatches setting.query path 1 room lines }
  | _ => search

/-- Take the next path off the queue; nothing is left to do once the search is over. -/
def step (setting : Setting) (search : Search) : Option Search :=
  if search.isOver then none
  else match search.queue with
    | [] => none
    | path :: queue =>
      let rest := { search with queue }
      if search.visited.contains path then some rest
      else some (visit setting path { rest with visited := path :: search.visited })

/-- So many steps, or fewer if the search is over before. -/
def advance (setting : Setting) : Nat → Search → Search
  | 0, search => search
  | steps + 1, search =>
    match step setting search with
    | none => search
    | some next => advance setting steps next

/-- More steps than a search of the tree can take: the directories it enters have different paths, and
each holds fewer entries than the tree has nodes. -/
def stepBound (tree : Node) : Nat := pathBound * tree.size + 2

/-- A search from a path on, carried to its end. -/
def run (setting : Setting) (path : FilePath) : Search :=
  advance setting (stepBound setting.tree) (start path)

end Search

/-- The pattern and the path of an argument, which a bar divides. -/
def splitArgument (argument : String) : String × String :=
  let (pattern, path) := Text.cut '|' argument
  (Text.strip pattern, Text.strip path)

def searchText [Interpreter] (workspace : Workspace) (tree : Node) (argument : String) :
    Except Pattern.Fault ToolResult :=
  let (pattern, path) := splitArgument argument
  if pattern.isEmpty then .ok (.failed "SearchText requires a pattern argument.")
  else match workspace.resolve? tree (if path.isEmpty then "." else path) with
    | none => .ok (.failed "Unable to resolve search path inside the workspace.")
    | some start =>
      match Query.ofText pattern with
      | .error fault => .error fault
      | .ok query =>
        let root := workspace.root.getD start
        let lines := (Search.run ⟨workspace, tree, query⟩ start).found.map (·.text root)
        .ok (.ofOutput (if lines.isEmpty then noResults else truncate ("\n".intercalate lines)))

end PlanAssistant.Tools
