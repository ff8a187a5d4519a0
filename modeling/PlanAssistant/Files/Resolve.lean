import PlanAssistant.Files.Tree

/-!
The real path of a path: every link replaced by its target, two dots by the parent of the real
directory they follow.  Names that do not exist are kept.  A link met again while it is being resolved
stops the work: the rest of the path then stays as written, apart from two dots, which take back the
name before them, and from slashes where the rest of a target begins, which lead back to the root.  A
real path that still cannot be followed for its links is refused.
-/
namespace PlanAssistant.Files

/-- Work still to do: a name to resolve, or a link whose target has been resolved by then. -/
inductive Task where
  | name (name : String)
  | settled (link : List String)
deriving DecidableEq, Repr

/-- Links met so far, with their real path once it is known. -/
abbrev Seen := List (List String × Option (List String))

def Seen.get? (seen : Seen) (link : List String) : Option (Option (List String)) :=
  (seen.find? (·.1 == link)).map (·.2)

/-- Append a name to a path by its spelling alone. -/
def FilePath.push (path : FilePath) (name : String) : FilePath :=
  if !isPlainName name then path
  else if name == ".." then path.parent
  else path.child name

/-- The slashes in front of the first name still to come, in the rest of a target. -/
def slashes : List Task → Nat
  | .name "" :: .name name :: rest => slashes (.name name :: rest) + 1
  | _ => 0

/-- Where the rest of a target starts: with no slash in front of it where the work is, with two at the
root that is kept apart. -/
def restAnchor (tasks : List Task) : Anchor :=
  match slashes tasks with
  | 0 => .here
  | 2 => .doubleRoot
  | _ => .root

/-- The path that tasks spell out after `path`, no link looked at.  Where the rest of a target begins,
which is so when `fresh`, slashes lead back to the root. -/
def spellOut (fresh : Bool) (path : FilePath) : List Task → FilePath
  | [] => path
  | .settled _ :: rest => spellOut true path rest
  | .name name :: rest =>
    let anchor := restAnchor (.name name :: rest)
    if fresh && anchor != .here then spellOut false ⟨anchor, []⟩ rest
    else spellOut false (path.push name) rest

variable [Interpreter]

/-- The target of a link at a path, if there is one. -/
def linkTarget? (root : Node) (path : List String) : Option String :=
  match linkStatus root ⟨.root, path⟩ with
  | .ok (.link target) => some target
  | _ => none

/-- Why a path has no real path. -/
inductive ResolveError where
  | refused (refusal : Refusal)
  | linkLoop (path : String)
deriving DecidableEq, Repr

def ResolveError.message : ResolveError → String
  | refused refusal => refusal.reason
  | linkLoop path => "Symlink loop from " ++ Text.quoted path

/-- How the work ends: with which path, and whether every link on the way was resolved. -/
structure Resolution where
  path : FilePath
  settled : Bool
deriving DecidableEq, Repr

/-- Resolve tasks from the real path `here`; a link met for the first time is handed to `onLink`. -/
def resolveAlong (root : Node) (onLink : Seen → List String → List Task → Except ResolveError Resolution)
    (seen : Seen) (here : List String) : List Task → Except ResolveError Resolution
  | [] => .ok ⟨⟨.root, here⟩, true⟩
  | .settled link :: rest => resolveAlong root onLink ((link, some here) :: seen) here rest
  | .name name :: rest =>
    if !isPlainName name then resolveAlong root onLink seen here rest
    else if name == ".." then resolveAlong root onLink seen here.dropLast rest
    else match refusal? name.toList with
    | some refusal => .error (.refused refusal)
    | none =>
      let next := here ++ [name]
      match linkTarget? root next with
      | none => resolveAlong root onLink seen next rest
      | some target =>
        match seen.get? next with
        | some (some real) => resolveAlong root onLink seen real rest
        | some none => .ok ⟨spellOut true ⟨.root, next⟩ rest, false⟩
        | none =>
          onLink ((next, none) :: seen) (if Text.startsWith target "/" then [] else here)
            ((pieces target).map .name ++ .settled next :: rest)

/-- Resolve tasks that lead through at most so many different links. -/
def resolveThrough (root : Node) : Nat → Seen → List String → List Task →
    Except ResolveError Resolution
  | 0 => resolveAlong root fun _ here _ => .ok ⟨⟨.root, here⟩, true⟩
  | links + 1 => resolveAlong root (resolveThrough root links)

/-- How the work on the names of an absolute path ends. -/
def resolution (root : Node) (path : FilePath) : Except ResolveError Resolution :=
  resolveThrough root root.linkCount [] [] (path.names.map .name)

/-- The real path of an absolute path. -/
def resolve (root : Node) (path : FilePath) : Except ResolveError FilePath :=
  match resolution root path with
  | .error e => .error e
  | .ok ⟨real, _⟩ =>
    match real.refusal? with
    | some refusal => .error (.refused refusal)
    | none =>
      match status root real with
      | .error .tooManyLinks => .error (.linkLoop real.text)
      | _ => .ok real

end PlanAssistant.Files
