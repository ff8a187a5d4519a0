import PlanAssistant.Session.Basic
import PlanAssistant.Tools.Result

/-!
What a session reads as: the plan document that is kept in a file, the answer given when a session
completes, and the question put when it pauses.  All three are functions of the session, so a session
that has not changed reads the same again.
-/
namespace PlanAssistant.Document

/-- One piece for each item, made from its number, which starts at one. -/
def numbered {α β : Type} (piece : Nat → α → β) (items : List α) : List β :=
  items.mapIdx fun i item => piece (i + 1) item

/-- A text, or another one in place of an empty or absent text. -/
def orElse (text : Option String) (otherwise : String) : String :=
  (text.filter (!·.isEmpty)).getD otherwise

/-- A block for a text that is there and not empty. -/
def block (text : Option String) (piece : String → String) : String :=
  match text.filter (!·.isEmpty) with
  | some t => piece t
  | none => ""

/-- A step as it was run: its token, its tool and its argument. -/
def call (record : StepRecord) : String :=
  record.id ++ " " ++ record.tool ++ "[" ++ record.argument ++ "]"

/-! ### The plan document -/

def clarificationLines (clarifications : List Clarification) : List String :=
  if clarifications.isEmpty then ["- None provided"]
  else (numbered (fun n (c : Clarification) =>
    [toString n ++ ". " ++ c.question, "   - " ++ c.answer]) clarifications).flatten

def recordLines (records : List StepRecord) : List String :=
  if records.isEmpty then ["- No tools executed"]
  else records.flatMap fun record =>
    [ "- " ++ call record,
      match record.failure? with
      | some error => "  - ERROR: " ++ error
      | none => "  - " ++ record.output ]

/-- The lines of the document under its time stamp. -/
def lines (s : Session) (timestamp : String) : List String :=
  [ "# Plan for " ++ s.task, "", "Generated: " ++ timestamp, "", "## Clarifications" ] ++
    clarificationLines s.clarifications ++
    [ "", "## Plan", "```text", orElse s.plan "(planner did not return a plan)", "```", "",
      "## Tool Observations" ] ++
    recordLines s.records ++
    [ "", "## Final Summary", orElse s.summary "Summary pending" ]

/-- The plan document; a session created outside the calendar has none. -/
def render (s : Session) : Except Instant.RangeError String :=
  s.createdAt.timestamp.map fun timestamp => "\n".intercalate (lines s timestamp)

/-! ### Answers to the user -/

/-- What the user is told when a turn fails. -/
def failureNotice : String := "Plan Mode failed to generate a plan. Check logs for additional details."

def clarificationHistory (clarifications : List Clarification) : String :=
  "\n".intercalate (numbered (fun n (c : Clarification) =>
    toString n ++ ". **" ++ c.question ++ "**\n   - " ++ c.answer) clarifications)

/-- The answer that puts a question, after the questions answered so far. -/
def clarifying (question : String) (clarifications : List Clarification) : String :=
  "### Clarifying Question\n" ++ question ++
    block (some (clarificationHistory clarifications)) ("\n\nCurrent clarifications:\n" ++ ·) ++
    "\n\nPlease reply with the requested details so the planner can continue."

/-- What a step found, as the user sees it. -/
def observation (record : StepRecord) : String :=
  match record.failure? with
  | some error => "ERROR: " ++ error
  | none => truncate record.output

def observations (records : List StepRecord) : String :=
  if records.isEmpty then "No tools were executed."
  else "\n".intercalate (records.map fun record => "- " ++ call record ++ "\n  " ++ observation record)

/-- Where the plan document is, or why there is none. -/
def storageLine (planPath : Option String) (saveFailed : Bool) : String :=
  match planPath.filter (!·.isEmpty) with
  | some path => "Plan saved to `" ++ path ++ "`."
  | none =>
    if saveFailed then "Plan saved in memory (could not write the plan file to the workspace)."
    else "Plan saved in memory (workspace folder not detected)."

/-- The answer of a session that has completed. -/
def completion (s : Session) (saveFailed : Bool) : String :=
  "## Plan ready\n" ++ storageLine s.planPath saveFailed ++ "\n\n### Clarifications\n" ++
    orElse (some (clarificationHistory s.clarifications)) "(none)" ++
    block s.plan (fun plan => "\n\n### Planner Draft\n\n```text\n" ++ plan ++ "\n```") ++
    "\n\n### Tool Observations\n" ++ observations s.records ++
    block s.summary ("\n\n### Solver Summary\n" ++ ·)

end PlanAssistant.Document
