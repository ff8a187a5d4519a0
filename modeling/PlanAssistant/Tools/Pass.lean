import PlanAssistant.Tools.ListFiles
import PlanAssistant.Tools.ReadFile
import PlanAssistant.Tools.SearchText
import PlanAssistant.Plan.Step
import PlanAssistant.Plan.Reference
import PlanAssistant.Session.Basic

/-!
Running the steps of a plan, one after the other.  Each step's argument is resolved against the outputs
of the steps that succeeded before it; a step that fails leaves a record with its error and stops
nothing.  After every step the records so far are reported.
-/
namespace PlanAssistant.Tools

open Files

inductive Tool where
  | listFiles
  | readFile
  | searchText
deriving DecidableEq, Repr

namespace Tool

/-- The tool of a name, without regard to case. -/
def ofName? (name : String) : Option Tool :=
  match Text.lower name with
  | "listfiles" => some listFiles
  | "readfile" => some readFile
  | "searchtext" => some searchText
  | _ => none

end Tool

/-- What a tool breaks off with: the name of the kind of fault, and a text that may be empty. -/
structure Breakdown where
  kind : String
  text : String
  kind_ne_empty : kind ≠ ""
deriving DecidableEq, Repr

namespace Breakdown

/-- A fault in words: its text, or else the name of its kind. -/
def message (breakdown : Breakdown) : String :=
  if breakdown.text.isEmpty then breakdown.kind else breakdown.text

def ofPattern (fault : Pattern.Fault) : Breakdown := ⟨"pattern fault", fault.message, by decide⟩

end Breakdown

/-- How a tool is run on an argument; `ε` is what it may break off with. -/
abbrev Performer (ε : Type) := Tool → String → Except ε ToolResult

namespace Performer

/-- The tools as they work on a workspace. -/
def ofWorkspace [Interpreter] (workspace : Workspace) (tree : Node) : Performer Pattern.Fault
  | .listFiles, argument => .ok (Tools.listFiles workspace tree argument)
  | .readFile, argument => .ok (Tools.readFile workspace tree argument)
  | .searchText, argument => Tools.searchText workspace tree argument

/-- The same tools, with what they break off with put in another form. -/
def reporting {ε φ : Type} (form : ε → φ) (perform : Performer ε) : Performer φ :=
  fun tool argument => (perform tool argument).mapError form

/-- What a step of a plan gives; a tool that breaks off counts as one that failed. -/
def result (perform : Performer Breakdown) (tool argument : String) : ToolResult :=
  match Tool.ofName? tool with
  | none => .failed ("Unsupported tool: " ++ tool)
  | some known =>
    match perform known argument with
    | .ok result => result
    | .error breakdown => .failed breakdown.message

end Performer

/-- The record of a step that was run on an argument. -/
def recordOf (step : Step) (argument : String) (result : ToolResult) : StepRecord :=
  match result.error with
  | some error => { id := step.id, tool := step.tool, argument, error := some error }
  | none => { id := step.id, tool := step.tool, argument, output := result.output }

/-- A pass on its way: the records so far, the outputs that arguments may refer to, and the records
as they were reported after each step. -/
structure Pass where
  records : List StepRecord := []
  outputs : Outputs := []
  reports : List (List StepRecord) := []
deriving DecidableEq, Repr, Inhabited

namespace Pass

/-- Run one more step. -/
def take (perform : Performer Breakdown) (pass : Pass) (step : Step) : Pass :=
  let argument := Text.strip (pass.outputs.resolve step.argument)
  let result := perform.result step.tool argument
  let records := pass.records ++ [recordOf step argument result]
  { records
    outputs := match result.error with
      | some _ => pass.outputs
      | none => (step.number, result.output) :: pass.outputs
    reports := pass.reports ++ [records] }

/-- Run steps in order. -/
def run (perform : Performer Breakdown) (steps : List Step) : Pass := steps.foldl (take perform) {}

end Pass

/-- Run all steps of a plan in a workspace. -/
def runPlan [Interpreter] (workspace : Workspace) (tree : Node) (plan : String) : Pass :=
  Pass.run (.reporting .ofPattern (.ofWorkspace workspace tree)) (planSteps plan)

end PlanAssistant.Tools
