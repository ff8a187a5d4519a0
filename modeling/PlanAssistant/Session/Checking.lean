import PlanAssistant.Session.Basic

/-!
Sessions and their parts as read from data.  A session also has to be consistent: it holds a pending
question exactly while it awaits an answer.
-/
namespace PlanAssistant

open Validation

def Message.check (fields : Fields) : Checked Message :=
  Message.mk <$> required "role" (oneOf Role.named) fields <*> required "content" text fields

def Clarification.check (fields : Fields) : Checked Clarification :=
  Clarification.mk <$> required "question" text fields <*> required "answer" text fields

def StepRecord.check (fields : Fields) : Checked StepRecord :=
  StepRecord.mk <$> required "id" text fields <*> required "tool" text fields
    <*> required "argument" text fields <*> optional "output" text "" fields
    <*> optional "error" (orNull text) none fields

/-- A session whose id and time of creation are the given ones unless the data has its own. -/
def Session.check (id : String) (createdAt : Instant) (fields : Fields) : Checked Session :=
  (Session.mk <$> optional "id" text id fields
    <*> optional "created_at" moment createdAt fields
    <*> required "task" text fields
    <*> optional "task_history" (list text) [] fields
    <*> optional "status" (oneOf Status.named) .orchestrating fields
    <*> optional "clarifications" (list (record Clarification.check)) [] fields
    <*> optional "pending_clarification" (orNull text) none fields
    <*> optional "plan_markdown" (orNull text) none fields
    <*> optional "tool_executions" (list (record StepRecord.check)) [] fields
    <*> optional "solver_summary" (orNull text) none fields
    <*> optional "plan_file_path" (orNull text) none fields
    <*> optional "orchestrator_messages" (list (record Message.check)) [] fields).ensure
    (fun s => decide s.Consistent) .inconsistent

end PlanAssistant
