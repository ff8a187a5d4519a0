import PlanAssistant.Console.Program
import Std.Time.DateTime

/-!
The command line.  The directory at hand is read into a tree, the program is run on it, and what it did
is shown and written back.  The program opens no connection of its own: the model's replies are recorded
ones, a JSON text on each line of the file that `PLAN_REPLIES` names.  The file that `PLAN_NAMES` names
lists characters that patterns may name besides the common ones.
-/
open PlanAssistant

namespace PlanAssistant.CommandLine

/-- How deep the tree of a directory is read. -/
def depthLimit : Nat := 32

/-- What a file holds, if it can be read. -/
def contentAt? (path : String) : IO (Option ByteArray) := do
  try return some (← IO.FS.readBinFile path) catch _ => return none

/-- The tree below a directory, without what cannot be read.  A link counts as one to its real path, and
is left out if it has none. -/
def readTree (path : String) : Nat → IO Files.Node
  | 0 => return .empty
  | depth + 1 => do
    let mut entries : Files.Entries := []
    for entry in (← (← IO.FS.realPath path).readDir) do
      let inner := path ++ "/" ++ entry.fileName
      let node? : Option Files.Node ← try
          match (← entry.path.symlinkMetadata).type with
          | .dir => pure (some (← readTree inner depth))
          | .symlink => pure (some (.link (← IO.FS.realPath inner).toString))
          | _ => pure (some (.file (← IO.FS.readBinFile inner)))
        catch _ => pure none
      entries := entries ++ node?.toList.map fun node => (entry.fileName, node)
    return .directory entries

/-- The tree with the directory at hand in its place. -/
def readWorld (here : Files.FilePath) : IO Files.Node := do
  let node ← readTree here.text depthLimit
  return here.names.foldr (fun name inner => .directory [(name, inner)]) node

/-- The variables that matter: those the models and the key files name. -/
def readEnvironment (files : List (Option ByteArray)) : IO Environment := do
  let entries := (files.filterMap fun file => file.bind KeyFile.lines?).flatten.filterMap KeyFile.entry?
  let names := Registry.packaged.map (·.2.keyVariable) ++ entries.map (·.1)
  let mut env : Environment := []
  for name in names do
    if let some value ← IO.getEnv name then env := env.set name value
  return env

/-- The names of characters in a file: each on a line of its own, with its code in hexadecimal digits
after a semicolon. -/
def readNames (path : Option String) : IO (List (String × Nat)) := do
  let some path := path | return []
  let content ← contentAt? path
  let lines := (content.bind KeyFile.lines?).getD []
  return lines.map fun line =>
    let (name, code) := Text.cut ';' line
    (name, Text.valueIn 16 code.toList)

/-- The replies recorded in a file. -/
def readReplies [Interpreter] (path : Option String) : IO (List Reply) := do
  let some path := path | return []
  let content ← contentAt? path
  let lines := (content.bind KeyFile.lines?).getD []
  return lines.filterMap fun line =>
    match Json.parse line with
    | .ok (.text text) => some (.ofText text)
    | _ => none

/-- A random number as hexadecimal digits. -/
def randomHex (width : Nat) : IO String := do
  return String.ofList (Text.hex width (← IO.rand 0 (Nat.pow 16 width - 1)))

/-- The first session takes a random id; those after it count the first digits on.  All are dated to the
start of the program. -/
def readBirths : IO Births := do
  let first ← IO.rand 0 0xFFFFFFFF
  let rest := "-" ++ (← randomHex 4) ++ "-4" ++ (← randomHex 3) ++ "-8" ++ (← randomHex 3) ++ "-" ++
    (← randomHex 6) ++ (← randomHex 6)
  let seconds := (← Std.Time.Timestamp.now).toSecondsSinceUnixEpoch.val
  let time := (Instant.ofUnix? seconds 0).getD default
  return fun k => (String.ofList (Text.hex 8 ((first + k) % 0x100000000)) ++ rest, time)

def showAction : Action → IO Unit
  | .print markup => IO.println markup
  | .markdown source => IO.println source
  | .panel title text => IO.println (title ++ "\n" ++ text)
  | .table table => do
    IO.println table.title
    for row in table.columns :: table.rows do IO.println ("  ".intercalate row)
  | .label _ => return
  | .startSpinner => return
  | .stopSpinner => return
  | .ask _ => return

/-- Write the plan document to the disk. -/
def writePlan [Interpreter] (outcome : ProgramOutcome) : IO Unit := do
  let some path := outcome.planPath | return
  let place := Files.FilePath.ofText path
  match Files.readBytes outcome.files place with
  | .error _ => return
  | .ok content =>
    IO.FS.createDirAll place.parent.text
    IO.FS.writeBinFile path content

/-- Run the program, asking for a further line of input as long as it wants one. -/
partial def converse [Interpreter] (around : Surroundings) (args : List String) (shown : Nat) :
    IO UInt32 := do
  let outcome := Program.start around args
  for action in outcome.actions.drop shown do showAction action
  if outcome.wantsAnswer then
    IO.print "Answer: "
    (← IO.getStdout).flush
    let line ← (← IO.getStdin).getLine
    if line.isEmpty then return 1
    converse { around with input := around.input ++ line } args outcome.actions.length
  else
    writePlan outcome
    match outcome.ended with
    | .ok code => return code.toUInt32
    | .error _ => return 1

end PlanAssistant.CommandLine

open PlanAssistant.CommandLine in
def main (args : List String) : IO UInt32 := do
  let names ← readNames (← IO.getEnv "PLAN_NAMES")
  let _ : Interpreter := { Interpreter.usual with characterNames := Text.commonNames ++ names }
  let here := Files.FilePath.ofText (← IO.currentDir).toString
  let home := (← IO.getEnv "HOME").getD "/"
  let homeKeys ← contentAt? (home ++ "/.planmode/keys.env")
  let projectKeys ← contentAt? (here.text ++ "/.env")
  let around : Surroundings :=
    { environment := ← readEnvironment [homeKeys, projectKeys]
      homeKeys, projectKeys
      registry := .packaged Registry.packaged
      settings := .packaged PlanSettings.packaged
      files := ← readWorld here
      here
      replies := ← readReplies (← IO.getEnv "PLAN_REPLIES")
      input := ""
      births := ← readBirths }
  converse around args 0
