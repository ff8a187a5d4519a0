import PlanAssistant.Files.Path
import PlanAssistant.Text.Quoted

/-!
A file system as a value: a tree of directories, files and symbolic links.  `walk` is how the system
follows a path: names are looked up one after the other, links on the way are replaced by their
targets, at most forty of them, and names and paths have a greatest length.  `Node.at?` and `Node.put`
look at and change the tree at a place given by real names, without following any link.
-/
namespace PlanAssistant.Files

inductive Node where
  | file (content : ByteArray)
  | link (target : String)
  | directory (entries : List (String × Node))
deriving Inhabited

abbrev Entries := List (String × Node)

/-- Why a path leads nowhere, or why nothing can be done where it leads. -/
inductive Fault where
  | noEntry
  | entryExists
  | notDirectory
  | isDirectory
  | nameTooLong
  | tooManyLinks
deriving DecidableEq, Repr

namespace Fault

def number : Fault → Nat
  | noEntry => 2
  | entryExists => 17
  | notDirectory => 20
  | isDirectory => 21
  | nameTooLong => 36
  | tooManyLinks => 40

def text : Fault → String
  | noEntry => "No such file or directory"
  | entryExists => "File exists"
  | notDirectory => "Not a directory"
  | isDirectory => "Is a directory"
  | nameTooLong => "File name too long"
  | tooManyLinks => "Too many levels of symbolic links"

end Fault

/-- A fault and the path it was met at. -/
structure FileError where
  fault : Fault
  path : String
deriving DecidableEq, Repr

def FileError.message [Interpreter] (error : FileError) : String :=
  "[Errno " ++ toString error.fault.number ++ "] " ++ error.fault.text ++ ": " ++ Text.quoted error.path

/-! ### The tree -/

def lookup (name : String) (entries : Entries) : Option Node :=
  (entries.find? (·.1 == name)).map (·.2)

/-- The entries with one set; a new one comes last. -/
def insert (name : String) (node : Node) (entries : Entries) : Entries :=
  if (lookup name entries).isSome then
    entries.map fun entry => if entry.1 == name then (name, node) else entry
  else entries ++ [(name, node)]

namespace Node

def empty : Node := directory []

def isDirectory : Node → Bool
  | directory _ => true
  | _ => false

def isFile : Node → Bool
  | file _ => true
  | _ => false

def child? (name : String) : Node → Option Node
  | directory entries => lookup name entries
  | _ => none

/-- The node at a real place. -/
def at? (node : Node) : List String → Option Node
  | [] => some node
  | name :: rest => (node.child? name).bind (·.at? rest)

/-- The tree with a node set at a real place, if its parent is a directory. -/
def put (root : Node) (place : List String) (new : Node) : Node :=
  match place, root with
  | [], _ => new
  | [name], directory entries => directory (insert name new entries)
  | name :: rest, directory entries =>
    match lookup name entries with
    | some inner => directory (insert name (put inner rest new) entries)
    | none => directory entries
  | _, other => other

end Node

mutual

/-- How many links a tree holds. -/
def Node.linkCount : Node → Nat
  | .file _ => 0
  | .link _ => 1
  | .directory entries => linkCounts entries

def linkCounts : List (String × Node) → Nat
  | [] => 0
  | (_, node) :: rest => node.linkCount + linkCounts rest

end

mutual

/-- How many nodes a tree has. -/
def Node.size : Node → Nat
  | .file _ => 1
  | .link _ => 1
  | .directory entries => entriesSize entries + 1

def entriesSize : List (String × Node) → Nat
  | [] => 0
  | (_, node) :: rest => node.size + entriesSize rest

end

/-! ### Following a path -/

variable [Interpreter]

/-- The most bytes in a name. -/
def nameLimit : Nat := 255

/-- Paths have fewer bytes than this. -/
def pathLimit : Nat := 4096

/-- There are fewer paths within the limit than this. -/
def pathBound : Nat := Nat.pow 0x110002 (pathLimit + 1)

/-- How many links a walk follows. -/
def linkLimit : Nat := 40

/-- Where a walk ends: at a node, or at a name its directory does not hold, perhaps with a slash after
it.  Places are real: no link is left in them. -/
inductive Place where
  | found (place : List String) (node : Node)
  | absent (directory : List String) (name : String) (slash : Bool)

/-- Follow the names `pending` from the real directory `here`.  A link on the way, and the last one too
if `followLast`, is handed to `onLink` with the place to go on from and the names still to follow. -/
def walkAlong (root : Node) (followLast : Bool)
    (onLink : List String → List String → Except Fault Place) (here : List String) :
    List String → Except Fault Place
  | [] =>
    match root.at? here with
    | some node => .ok (.found here node)
    | none => .error .noEntry
  | name :: rest =>
    match root.at? here with
    | some (.directory entries) =>
      if !isPlainName name then walkAlong root followLast onLink here rest
      else if name == ".." then walkAlong root followLast onLink here.dropLast rest
      else if nameLimit < Text.byteSize name then .error .nameTooLong
      else match lookup name entries with
        | none => if rest.all (· == "") then .ok (.absent here name !rest.isEmpty) else .error .noEntry
        | some (.link target) =>
          if rest.isEmpty && !followLast then .ok (.found (here ++ [name]) (.link target))
          else onLink (if Text.startsWith target "/" then [] else here) (pieces target ++ rest)
        | some _ => walkAlong root followLast onLink (here ++ [name]) rest
    | some _ => .error .notDirectory
    | none => .error .noEntry

/-- Follow names through at most so many links. -/
def walkThrough (root : Node) (followLast : Bool) : Nat → List String → List String → Except Fault Place
  | 0 => walkAlong root followLast fun _ _ => .error .tooManyLinks
  | links + 1 => walkAlong root followLast (walkThrough root followLast links)

/-- Where the system ends up following an absolute path. -/
def walk (root : Node) (followLast : Bool) (path : FilePath) : Except Fault Place :=
  if pathLimit ≤ Text.byteSize path.text then .error .nameTooLong
  else walkThrough root followLast linkLimit [] path.names

/-- The node a path leads to, the last link not followed. -/
def linkStatus (root : Node) (path : FilePath) : Except Fault Node :=
  match walk root false path with
  | .ok (.found _ node) => .ok node
  | .ok (.absent ..) => .error .noEntry
  | .error fault => .error fault

/-- The node a path leads to, links followed to the end. -/
def status (root : Node) (path : FilePath) : Except Fault Node :=
  match walk root true path with
  | .ok (.found _ node) => .ok node
  | .ok (.absent ..) => .error .noEntry
  | .error fault => .error fault

end PlanAssistant.Files
