import PlanAssistant.Datum
import PlanAssistant.Files.Tree
import PlanAssistant.Text.Blank

/-!
The prompts that tell the model its part in each stage.  A prompt is a template: literal text, values
of variables, and parts that stand only when a variable is set.  Prompts are kept as files in one
directory and asked for by a path from there, without the ending `.md`.
-/
namespace PlanAssistant

/-- One part of a template. -/
inductive TemplatePart where
  | literal (text : String)
  | value (key : String)
  | whenSet (key : String) (parts : List TemplatePart)

abbrev Variables := List (String × Datum)

namespace TemplatePart

/-- Whether a variable has a value that counts as true. -/
def isSet (vars : Variables) (key : String) : Bool :=
  ((Datum.lookup key vars).map Datum.truthy).getD false

variable [Interpreter]

mutual

/-- The text of a part; a variable without a value is empty. -/
def fill (vars : Variables) : TemplatePart → String
  | literal text => text
  | value key => ((Datum.lookup key vars).map Datum.display).getD ""
  | whenSet key parts => if isSet vars key then fillAll vars parts else ""

def fillAll (vars : Variables) : List TemplatePart → String
  | [] => ""
  | part :: rest => fill vars part ++ fillAll vars rest

end

end TemplatePart

/-- The prompts there are. -/
inductive Prompt where
  | orchestrator
  | planner
  | solver
  | tools
deriving DecidableEq, Repr

namespace Prompt

def all : List Prompt := [orchestrator, planner, solver, tools]

def name : Prompt → String
  | orchestrator => "orchestrator"
  | planner => "planner"
  | solver => "solver"
  | tools => "tools"

def fileName (prompt : Prompt) : String := prompt.name ++ ".md"

/-! ### Texts -/

/-- The text that users put in front of every stage's own. -/
def houseRules : TemplatePart := .whenSet "system_prompt" [.value "system_prompt", .literal "\n\n"]

def orchestratorText : String :=
  "\n".intercalate
    [ "You are the Orchestrator within a ReWOO agent. Your job is to decide whether more details " ++
        "are needed before planning.",
      "Respond **only** in JSON using one of the following structures:",
      "\x7b\"action\":\"clarify\",\"question\":\"<single clarifying question>\"," ++
        "\"reasoning\":\"<why the question is needed>\"\x7d",
      "\x7b\"action\":\"proceed\",\"summary\":\"<one sentence summary of the task>\"," ++
        "\"reasoning\":\"<why planning can proceed>\"\x7d",
      "Ask at most one question per turn and wait for the user response before planning." ]

def plannerText : String :=
  "\n".intercalate
    [ "You are the Planner module within a ReWOO agent. Produce an actionable implementation plan " ++
        "using the exact alternating format:",
      "Plan: <short reasoning sentence>",
      "#E1 = <ToolName>[<arguments>]",
      "Plan: <reasoning that references #E1 results when useful>",
      "#E2 = <ToolName>[<arguments possibly containing #E1, #E2, ... substitutions>]",
      "...",
      "Only use the tools listed in the context. Do not execute tools or provide the final answer. " ++
        "Focus on concrete engineering steps that an agent can follow. Generate at least three " ++
        "Plan/#E pairs when possible." ]

def solverText : String :=
  "You are the Solver module within a ReWOO agent. Using the task, clarified requirements, " ++
    "generated plan, and tool observations, synthesize a clear answer that prepares the developer " ++
    "to implement the solution. Provide markdown with sections: ## Summary, ## Next Steps, " ++
    "## Validation. Do not restate the raw plan lines verbatim; highlight the intention behind them."

def toolsText : String :=
  "\n".intercalate
    [ "Available read-only tools:",
      "- ListFiles[path] -> lists files and directories within the workspace path",
      "- ReadFile[path] -> returns the contents of a file from the workspace",
      "- SearchText[pattern | path] -> finds up to " ]

def template : Prompt → List TemplatePart
  | orchestrator => [houseRules, .literal orchestratorText]
  | planner => [houseRules, .literal plannerText]
  | solver => [houseRules, .literal solverText]
  | tools =>
    [ .literal toolsText, .value "max_results",
      .literal " matches for pattern within the path (defaults to workspace root)" ]

variable [Interpreter]

/-- The prompt with its variables filled in, without blanks at its ends. -/
def render (prompt : Prompt) (vars : Variables) : String :=
  Text.strip (TemplatePart.fillAll vars prompt.template)

/-! ### Finding a prompt by its path -/

open Files

/-- Why a prompt could not be found. -/
inductive FindError where
  | notFound (path : String)
  | file (error : FileError)

def FindError.message : FindError → String
  | notFound path => "Prompt template not found: " ++ path
  | file error => error.message

/-- The directories beside the one with the prompts. -/
def neighbours : List String := ["config", "output", "providers", "schemas", "tools"]

/-- The tree around the prompts: their own directory, and its neighbours, which hold none. -/
def tree (home : FilePath) : Node :=
  let files : Entries := all.map fun prompt => (prompt.fileName, .file .empty)
  let inHome : Node :=
    .directory (("prompts", .directory files) :: neighbours.map fun name => (name, .empty))
  home.names.foldr (fun name inner => .directory [(name, inner)]) inHome

/-- The prompt whose file a path from the directory `prompts` in `home` leads to. -/
def find (home : FilePath) (name : String) : Except FindError Prompt :=
  let path := (home.child "prompts").join (.ofText (name ++ ".md"))
  match walk (tree home) true path with
  | .ok (.found place (.file _)) =>
    match all.find? (·.fileName == place.getLastD "") with
    | some prompt => .ok prompt
    | none => .error (.notFound path.text)
  | .error .nameTooLong => .error (.file ⟨.nameTooLong, path.text⟩)
  | _ => .error (.notFound path.text)

end Prompt
end PlanAssistant
