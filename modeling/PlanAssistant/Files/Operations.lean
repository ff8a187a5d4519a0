import PlanAssistant.Files.Tree
import PlanAssistant.Text.Utf8
import PlanAssistant.Text.Lines

/-!
What is done with files: listing directories, reading, and writing with the directories on the way.
Changing operations give the changed tree back; one that fails half-way gives the tree it left.
-/
namespace PlanAssistant.Files

variable [Interpreter]

/-- The faults that only say that nothing usable is there. -/
def Fault.isAbsence : Fault → Bool
  | noEntry => true
  | notDirectory => true
  | tooManyLinks => true
  | _ => false

/-- Whether a path leads to a node of a kind; nothing there is no error. -/
def leadsTo (kind : Node → Bool) (root : Node) (path : FilePath) : Except FileError Bool :=
  match status root path with
  | .ok node => .ok (kind node)
  | .error fault => if fault.isAbsence then .ok false else .error ⟨fault, path.text⟩

def isDirectoryAt (root : Node) (path : FilePath) : Except FileError Bool :=
  leadsTo Node.isDirectory root path

/-- The names in a directory, sorted. -/
def listNames (root : Node) (path : FilePath) : Except FileError (List String) :=
  match status root path with
  | .ok (.directory entries) => .ok ((entries.map (·.1)).mergeSort fun a b => !Text.precedes b a)
  | .ok _ => .error ⟨.notDirectory, path.text⟩
  | .error fault => .error ⟨fault, path.text⟩

def readBytes (root : Node) (path : FilePath) : Except FileError ByteArray :=
  match status root path with
  | .ok (.file content) => .ok content
  | .ok _ => .error ⟨.isDirectory, path.text⟩
  | .error fault => .error ⟨fault, path.text⟩

/-- The text of a file's content: broken pieces replaced, all line ends read as line feeds. -/
def contentText (content : ByteArray) : String :=
  String.ofList (Text.normalizeNewlines (Text.decodeLossy content))

/-! ### Writing -/

/-- Make one directory whose parent is there. -/
def makeDirectory (root : Node) (path : FilePath) : Except Fault Node :=
  match walk root false path with
  | .ok (.found _ _) => .error .entryExists
  | .ok (.absent directory name _) => .ok (root.put (directory ++ [name]) .empty)
  | .error fault => .error fault

/-- Why directories could not be made. -/
inductive MakeError where
  | file (error : FileError)
  /-- More of them are missing, one below the other, than can be made at once. -/
  | tooDeep
deriving DecidableEq, Repr

/-- A directory that could not be made is no error if it is there. -/
def toleratePresent (root : Node) (path : FilePath) (fault : Fault) : Node × Option MakeError :=
  match isDirectoryAt root path with
  | .ok true => (root, none)
  | .ok false => (root, some (.file ⟨fault, path.text⟩))
  | .error e => (root, some (.file e))

/-- Make the last directory of a path, its parents being there by now. -/
def makeLast (root : Node) (path : FilePath) : Node × Option MakeError :=
  match makeDirectory root path with
  | .ok root => (root, none)
  | .error .noEntry => (root, some (.file ⟨.noEntry, path.text⟩))
  | .error fault => toleratePresent root path fault

/-- Make a directory and its parents, with room for so many that are missing; `names` are those of the
path, the last one first. -/
def makeDirectoriesFrom (anchor : Anchor) (root : Node) : Nat → List String → Node × Option MakeError
  | 0, _ => (root, some .tooDeep)
  | _ + 1, [] => makeLast root ⟨anchor, []⟩
  | room + 1, name :: above =>
    let path : FilePath := ⟨anchor, (name :: above).reverse⟩
    match makeDirectory root path with
    | .ok root => (root, none)
    | .error .noEntry =>
      match makeDirectoriesFrom anchor root room above with
      | (root, none) => makeLast root path
      | failed => failed
    | .error fault => toleratePresent root path fault

/-- Make sure that a directory is there, with all its parents. -/
def makeDirectories (root : Node) (path : FilePath) : Node × Option MakeError :=
  makeDirectoriesFrom path.anchor root Interpreter.directoryDepth path.names.reverse

/-- Give a file its content, making it if need be. -/
def writeBytes (root : Node) (path : FilePath) (content : ByteArray) : Except FileError Node :=
  match walk root true path with
  | .ok (.found place (.file _)) => .ok (root.put place (.file content))
  | .ok (.found _ _) => .error ⟨.isDirectory, path.text⟩
  | .ok (.absent directory name false) => .ok (root.put (directory ++ [name]) (.file content))
  | .ok (.absent _ _ true) => .error ⟨.isDirectory, path.text⟩
  | .error fault => .error ⟨fault, path.text⟩

end PlanAssistant.Files
