import PlanAssistant.Session.Basic

/-!
How a session changes.  The legal moves between statuses are one table; every change of status goes
through `moveTo`, which refuses any other move.  A change works on the session in place, so what a
refused change leaves behind can be looked at as well.  A task input answers the pending question,
refines the session, or starts a new one.
-/
namespace PlanAssistant

/-- A move that the table does not have. -/
structure IllegalMove where
  source : Status
  target : Status
deriving DecidableEq, Repr

def IllegalMove.message (move : IllegalMove) : String :=
  "Illegal plan session transition: " ++ move.source.name ++ " -> " ++ move.target.name

/-- The statuses that may follow a status. -/
def Status.next : Status → List Status
  | orchestrating => [awaitingClarification, planning]
  | awaitingClarification => [orchestrating]
  | planning => [executingTools]
  | executingTools => [solving]
  | solving => [completed]
  | completed => []

def Status.canMoveTo (source target : Status) : Bool := source.next.contains target

/-- Whether a task input given in this status belongs to the session at hand. -/
def Status.takesInput : Status → Bool
  | orchestrating => true
  | awaitingClarification => true
  | _ => false

/-- A change of a session that may be refused. -/
abbrev SessionM := ExceptT IllegalMove (StateM Session)

namespace Session

/-- A new session for a task. -/
def start (id : String) (createdAt : Instant) (task : String) : Session :=
  { id, createdAt, task, taskHistory := [task] }

/-- Write a task input into the transcript. -/
def hear (task : String) (s : Session) : Session :=
  { s with transcript := s.transcript ++ [⟨.user, task⟩] }

/-- Whether a change of a session was refused, and the session it left. -/
def perform (change : SessionM Unit) (s : Session) : Except IllegalMove Unit × Session := change.run.run s

def moveTo (target : Status) : SessionM Unit := do
  let s ← get
  if s.status.canMoveTo target then set { s with status := target }
  else throw ⟨s.status, target⟩

/-- Pause on a question until it is answered. -/
def ask (question : String) : SessionM Unit := do
  moveTo .awaitingClarification
  modify fun s =>
    { s with
      pending := some question
      transcript := s.transcript ++ [⟨.assistant, question⟩] }

/-- Record the answer to the pending question and take up orchestration again. -/
def answer (answer : String) : SessionM Unit := do
  let s ← get
  match s.pending with
  | none => throw ⟨s.status, .orchestrating⟩
  | some question =>
    moveTo .orchestrating
    modify fun s =>
      { s with
        clarifications := s.clarifications ++ [⟨question, answer⟩]
        pending := none }

/-- Take in a task input: the answer to the pending question, or else a refinement of the task. -/
def takeIn (task : String) : SessionM Unit := do
  match (← get).pending with
  | some _ => answer task
  | none => modify fun s => { s with taskHistory := s.taskHistory ++ [task] }
  modify (hear task)

/-- The session a task input belongs to, unless it starts one of its own. -/
def goingOn? (current : Option Session) : Option Session := current.filter (·.status.takesInput)

/-- Take a task input into the session it belongs to; `fresh` is the new one that is started where none
goes on. -/
def accept (current : Option Session) (fresh : Session) (task : String) :
    Except IllegalMove Unit × Session :=
  match goingOn? current with
  | none => (.ok (), fresh.hear task)
  | some s => s.perform (takeIn task)

/-! ### What the changes do -/

theorem perform_moveTo (s : Session) (target : Status) :
    s.perform (moveTo target) =
      if s.status.canMoveTo target then (.ok (), { s with status := target })
      else (.error ⟨s.status, target⟩, s) := by
  change (if s.status.canMoveTo target then set { s with status := target }
    else throw ⟨s.status, target⟩ : SessionM Unit).run.run s = _
  split <;> rfl

end Session
end PlanAssistant
