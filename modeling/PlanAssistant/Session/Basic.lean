import PlanAssistant.Validation

/-!
Plan sessions: one task on its way from the first question to the finished plan.  A session keeps every
task input, every answered question, the transcript of the clarifying talk, and the plan with the
observations its tool steps made.
-/
namespace PlanAssistant

/-- Where a session stands. -/
inductive Status where
  | orchestrating
  | awaitingClarification
  | planning
  | executingTools
  | solving
  | completed
deriving DecidableEq, Repr, Inhabited

namespace Status

def all : List Status :=
  [orchestrating, awaitingClarification, planning, executingTools, solving, completed]

def name : Status → String
  | orchestrating => "orchestrating"
  | awaitingClarification => "awaiting_clarifications"
  | planning => "planning"
  | executingTools => "executing_tools"
  | solving => "solving"
  | completed => "completed"

def named : List (String × Status) := all.map fun s => (s.name, s)

def ofName? (name : String) : Option Status := (named.find? (·.1 == name)).map (·.2)

/-- What is said of a name that no status has. -/
def unknownMessage [Interpreter] (name : String) : String := Text.quoted name ++ " is not a valid PlanStatus"

end Status

/-- Who wrote a message. -/
inductive Role where
  | user
  | assistant
  | system
deriving DecidableEq, Repr, Inhabited

def Role.name : Role → String
  | user => "user"
  | assistant => "assistant"
  | system => "system"

def Role.named : List (String × Role) := [user, assistant, system].map fun r => (r.name, r)

structure Message where
  role : Role
  content : String
deriving DecidableEq, Repr, Inhabited

/-- An answered question. -/
structure Clarification where
  question : String
  answer : String
deriving DecidableEq, Repr, Inhabited

/-- What running one step of a plan gave: an output, or an error and no output. -/
structure StepRecord where
  id : String
  tool : String
  argument : String
  output : String := ""
  error : Option String := none
deriving DecidableEq, Repr, Inhabited

/-- The error of a step that failed; an empty error text counts as none. -/
def StepRecord.failure? (record : StepRecord) : Option String := record.error.filter (!·.isEmpty)

structure Session where
  id : String
  createdAt : Instant
  task : String
  taskHistory : List String := []
  status : Status := .orchestrating
  clarifications : List Clarification := []
  pending : Option String := none
  plan : Option String := none
  records : List StepRecord := []
  summary : Option String := none
  planPath : Option String := none
  transcript : List Message := []
deriving DecidableEq, Repr, Inhabited

namespace Session

/-- The inputs after the first one. -/
def additionalInputs (s : Session) : List String := s.taskHistory.drop 1

/-- The first eight characters of the id. -/
def shortId (s : Session) : String := Text.take 8 s.id

/-- A question is pending exactly while an answer is awaited. -/
def Consistent (s : Session) : Prop := s.status = .awaitingClarification ↔ s.pending.isSome = true

instance (s : Session) : Decidable s.Consistent := by unfold Consistent; infer_instance

end Session
end PlanAssistant
