import PlanAssistant.Session.Basic
import PlanAssistant.Document
import PlanAssistant.Prompt
import PlanAssistant.Tools.SearchText

/-!
What the stages after the first are told: the task with everything the user added, and, for the last
stage, the plan and what its steps observed.  Sections without content are left out.
-/
namespace PlanAssistant.Briefing

/-- The later inputs, each with its number. -/
def additions (s : Session) : String :=
  "\n".intercalate
    (Document.numbered (fun n input => "Update " ++ toString n ++ ": " ++ input) s.additionalInputs)

def answers (s : Session) : String :=
  "\n".intercalate (Document.numbered (fun n (c : Clarification) =>
    toString n ++ ". " ++ c.question ++ "\nAnswer: " ++ c.answer) s.clarifications)

def observations (s : Session) : String :=
  "\n\n".intercalate (s.records.map fun record =>
    Document.call record ++ " => " ++
      match record.failure? with
      | some error => "ERROR: " ++ error
      | none => record.output)

/-- A section under a heading, or another text in place of one without content. -/
def sectionOr (heading content otherwise : String) : String :=
  if content.isEmpty then otherwise else heading ++ "\n" ++ content

/-- One message from the sections that have content. -/
def message (sections : List String) : List Message :=
  [⟨.user, "\n\n".intercalate (sections.filter (!·.isEmpty))⟩]

/-- The tools and their limits, as the planner is told. -/
def toolNotes [Interpreter] : String := Prompt.tools.render [("max_results", .int Tools.lineBudget)]

/-- What the planner is told. -/
def planner [Interpreter] (s : Session) : List Message :=
  message
    [ "Primary task:\n" ++ s.task,
      sectionOr "Additional user input:" (additions s) "",
      sectionOr "Clarifications answered:" (answers s) "",
      toolNotes,
      "Follow the required Plan/#E alternating format and keep tools strictly read-only." ]

/-- What the solver is told. -/
def solver (s : Session) : List Message :=
  message
    [ "Primary task:\n" ++ s.task,
      sectionOr "Additional user input:" (additions s) "",
      sectionOr "Clarifications:" (answers s) "Clarifications: none provided.",
      sectionOr "Plan:" (s.plan.getD "") "Plan: not available.",
      sectionOr "Tool observations:" (observations s) "Tool observations: none executed." ]

end PlanAssistant.Briefing
