import PlanAssistant.Text.Search
import PlanAssistant.Text.Surrogate

/-!
Paths as written: where they start, and the names after that.  Repeated slashes and names that are a
single dot are dropped when a path is read; two dots stay, since what they mean hangs on the links on
the way.
-/
namespace PlanAssistant.Files

/-- Where a path starts: at the directory at hand, at the root, or at the root written with two
slashes, which is kept apart. -/
inductive Anchor where
  | here
  | root
  | doubleRoot
deriving DecidableEq, Repr, Inhabited

def Anchor.text : Anchor → String
  | here => ""
  | root => "/"
  | doubleRoot => "//"

structure FilePath where
  anchor : Anchor
  names : List String
deriving DecidableEq, Repr, Inhabited

/-- The pieces of a text between slashes, empty ones included. -/
def pieces (text : String) : List String := (Text.splitOn '/' text.toList).map String.ofList

def isPlainName (name : String) : Bool := name != "" && name != "."

/-- Why the system takes no path from a text. -/
inductive Refusal where
  /-- Some surrogate in it is no byte of a name. -/
  | unencodable
  | nulCharacter
deriving DecidableEq, Repr

/-- The reason that is given for a refusal. -/
def Refusal.reason : Refusal → String
  | unencodable => "surrogates not allowed"
  | nulCharacter => "embedded null byte"

/-- Why these characters are taken for no path; the first reason outweighs the second. -/
def refusal? [Interpreter] (cs : List Char) : Option Refusal :=
  if !cs.all Text.isNameCharacter then some .unencodable
  else if cs.contains '\x00' then some .nulCharacter
  else none

namespace FilePath

def anchorOf : List Char → Anchor
  | '/' :: '/' :: '/' :: _ => .root
  | '/' :: '/' :: _ => .doubleRoot
  | '/' :: _ => .root
  | _ => .here

def ofText (text : String) : FilePath := ⟨anchorOf text.toList, (pieces text).filter isPlainName⟩

def text (path : FilePath) : String :=
  if path.anchor == .here && path.names.isEmpty then "."
  else path.anchor.text ++ "/".intercalate path.names

def isAbsolute (path : FilePath) : Bool := path.anchor != .here

/-- The path that names start at `base`, unless it is absolute. -/
def join (base path : FilePath) : FilePath :=
  if path.isAbsolute then path else ⟨base.anchor, base.names ++ path.names⟩

def child (path : FilePath) (name : String) : FilePath := ⟨path.anchor, path.names ++ [name]⟩

def parent (path : FilePath) : FilePath := ⟨path.anchor, path.names.dropLast⟩

/-- The last name, empty when there is none. -/
def name (path : FilePath) : String := path.names.getLastD ""

/-- Whether a path is `base` or lies under it, going by the names alone. -/
def isWithin (path base : FilePath) : Bool :=
  path.anchor == base.anchor && base.names.isPrefixOf path.names

/-- The path as seen from `base`, or its last name alone when it does not lie under it. -/
def relativeText (path base : FilePath) : String :=
  if path.isWithin base then text ⟨.here, path.names.drop base.names.length⟩ else path.name

/-- Why the system does not take the path. -/
def refusal? [Interpreter] (path : FilePath) : Option Refusal :=
  Files.refusal? (path.names.flatMap String.toList)

end FilePath
end PlanAssistant.Files
