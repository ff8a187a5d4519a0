import PlanAssistant.Updates.Basic
import PlanAssistant.Engine.Briefing
import PlanAssistant.Decision
import PlanAssistant.Document.Writer
import PlanAssistant.Model.Completion
import PlanAssistant.Session.Transition
import PlanAssistant.Tools.Pass

/-!
One turn: a user input is taken through the stages as far as it goes.  The orchestrator either puts a
question, which ends the turn, or lets the session go on to the planner, the tool steps and the solver.
Every change of the session is published.  A turn that stops half-way leaves the session where it was.
-/
namespace PlanAssistant

inductive Stage where
  | orchestrator
  | planner
  | solver
deriving DecidableEq, Repr

namespace Stage

def number : Stage → Nat
  | orchestrator => 1
  | planner => 2
  | solver => 3

/-- The least step budget a stage gets. -/
def floor : Stage → Int
  | orchestrator => 4
  | planner => 8
  | solver => 6

def prompt : Stage → Prompt
  | orchestrator => .orchestrator
  | planner => .planner
  | solver => .solver

end Stage

/-- What can be observed of a turn, apart from its result. -/
inductive Event (κ : Type) where
  | published (update : Update)
  | began (stage : Stage) (budget : Int)
  | attempted (attempt : Attempt κ)
  | streamed (stage : Stage) (progress : Progress)
  | answered (stage : Stage) (output : StageOutput)
  | reasoned (stage : Stage) (text : String)

inductive Outcome where
  | clarification
  | completed
  | failed
  | cancelled
deriving DecidableEq, Repr

def Outcome.name : Outcome → String
  | clarification => "clarification"
  | completed => "completed"
  | failed => "failed"
  | cancelled => "cancelled"

structure TurnResult where
  outcome : Outcome
  sessionId : String
  response : String
  cost : Float

/-- How a turn ends without a result. -/
inductive Escape where
  /-- The call was interrupted from outside. -/
  | interrupted
  /-- A call is waited for that nothing will ever end. -/
  | endless
  | illegalMove (move : IllegalMove)

/-- Why a turn stops before its end. -/
inductive Stop where
  | cancelled
  | failed
  | escaped (escape : Escape)

def Stop.ofCallError : CallError → Stop
  | .cancelled => cancelled
  | .abandoned _ => cancelled
  | .endless => escaped .endless
  | .raised failure => if failure.kind == .interrupted then escaped .interrupted else failed
  | _ => failed

/-- What an engine is set up with. -/
structure Engine (ρ κ : Type) where
  provider : Provider ρ κ
  workspace : Workspace
  settings : PlanSettings
  /-- Whether anybody looks at the streams. -/
  watched : Bool
  /-- Whether anybody looks at the reasoning. -/
  showsReasoning : Bool
  /-- Where the plan documents go, if not into the workspace. -/
  sink? : Option Document.Sink := none

/-- A turn on its way. -/
structure Turn (ρ κ : Type) where
  session : Session
  history : List Update
  chat : List Message
  lastResponse : String
  files : Files.Node
  replies : ρ
  token : Token
  /-- The report at which the user interrupts, counted through the whole turn. -/
  interruptAt : Option Nat
  cost : Float
  events : List (Event κ)

abbrev TurnM (ρ κ : Type) := ExceptT Stop (StateM (Turn ρ κ))

namespace Turn

variable {ρ κ : Type}

/-- Publish the session as it is. -/
def publish (turn : Turn ρ κ) : Turn ρ κ :=
  let update := Update.after turn.history turn.session
  { turn with history := turn.history ++ [update], events := turn.events ++ [.published update] }

/-- Give the user an answer. -/
def respond (response : String) (turn : Turn ρ κ) : Turn ρ κ :=
  { turn with lastResponse := response, chat := turn.chat ++ [⟨.assistant, response⟩] }

/-- Change the session and publish it. -/
def publishWith (change : Session → Session) (turn : Turn ρ κ) : Turn ρ κ :=
  publish { turn with session := change turn.session }

/-- Publish the session with the records of its tool steps. -/
def publishRecords (turn : Turn ρ κ) (records : List StepRecord) : Turn ρ κ :=
  turn.publishWith fun s => { s with records }

/-- The reports made so far. -/
def reportCount (turn : Turn ρ κ) : Nat :=
  turn.events.countP fun
    | .streamed _ _ => true
    | _ => false

/-- The report of the next stage at which the user interrupts. -/
def nextInterrupt (turn : Turn ρ κ) : Option Nat :=
  turn.interruptAt.bind fun n => if turn.reportCount < n then some (n - turn.reportCount) else none

/-- Take over what a query left behind. -/
def note (stage : Stage) (completion : Completion ρ κ) (turn : Turn ρ κ) : Turn ρ κ :=
  { turn with
    replies := completion.rest
    token := completion.token
    events := turn.events ++ completion.attempts.map .attempted ++
      completion.reports.map (.streamed stage) }

/-- Enter a stage's output into the books. -/
def account (showsReasoning : Bool) (stage : Stage) (output : StageOutput) (turn : Turn ρ κ) :
    Turn ρ κ :=
  { turn with
    cost := match output.usage with
      | some usage => turn.cost + usage.cost
      | none => turn.cost
    events := turn.events ++ .answered stage output ::
      if showsReasoning && !output.reasoning.isEmpty then [.reasoned stage output.reasoning] else [] }

end Turn

namespace Engine

variable [Interpreter] {ρ κ : Type}

/-- Where the plan documents go. -/
def sink (engine : Engine ρ κ) : Document.Sink :=
  engine.sink?.getD (Document.keep engine.workspace engine.settings.plansDir)

/-- What a stage asks of the model. -/
def query (engine : Engine ρ κ) (stage : Stage) (messages : List Message) : Query where
  system := stage.prompt.render [("system_prompt", .text engine.settings.systemPrompt)]
  messages := messages
  timeout := engine.settings.timeout

/-- Run a stage to its output. -/
def runStage (engine : Engine ρ κ) (stage : Stage) (messages : List Message) : TurnM ρ κ StageOutput := do
  let turn ← get
  let completion := engine.provider.run (engine.query stage messages)
    ⟨engine.watched, turn.nextInterrupt⟩ turn.token turn.replies
  let budget := engine.settings.stepBudget stage.floor
  set (Turn.note stage completion { turn with events := turn.events ++ [.began stage budget] })
  match completion.outcome with
  | .error error => throw (.ofCallError error)
  | .ok output =>
    modify (Turn.account engine.showsReasoning stage output)
    return output

/-- Change the session; a refused change fails the turn. -/
def change (change : SessionM Unit) : TurnM ρ κ Unit := do
  let turn ← get
  let (done, s) := turn.session.perform change
  set { turn with session := s }
  match done with
  | .ok () => return
  | .error _ => throw .failed

/-- Move the session on and publish it, changed a little more. -/
def moveOn (target : Status) (more : Session → Session) : TurnM ρ κ Unit := do
  change (Session.moveTo target)
  modify (Turn.publishWith more)

/-- What the orchestrator decides. -/
def orchestrate (engine : Engine ρ κ) : TurnM ρ κ Decision := do
  let output ← engine.runStage .orchestrator (← get).session.transcript
  match Decision.parse output.text with
  | .ok decision => return decision
  | .error _ => throw .failed

/-- End the turn with a question. -/
def pause (question : String) : TurnM ρ κ String := do
  change (Session.ask question)
  modify Turn.publish
  let response := Document.clarifying question (← get).session.clarifications
  modify (Turn.respond response)
  return response

/-- Get the plan. -/
def plan (engine : Engine ρ κ) : TurnM ρ κ Unit := do
  moveOn .planning id
  let output ← engine.runStage .planner (Briefing.planner (← get).session)
  modify (Turn.publishWith fun s => { s with plan := some output.text })

/-- Run the steps of the plan, publishing the session after each, and once more when all are done. -/
def runTools (engine : Engine ρ κ) : TurnM ρ κ Unit := do
  moveOn .executingTools fun s => { s with records := [] }
  modify fun turn =>
    let pass := Tools.runPlan engine.workspace turn.files (turn.session.plan.getD "")
    (pass.reports.foldl Turn.publishRecords turn).publishRecords pass.records

/-- Get the final summary. -/
def solve (engine : Engine ρ κ) : TurnM ρ κ Unit := do
  moveOn .solving id
  let output ← engine.runStage .solver (Briefing.solver (← get).session)
  modify fun turn => { turn with session := { turn.session with summary := some output.text } }

/-- Keep the plan document; tells whether that failed. -/
def store (engine : Engine ρ κ) : TurnM ρ κ Bool := do
  let turn ← get
  match Document.render turn.session with
  | .error _ => throw .failed
  | .ok document =>
    let (files, kept) := engine.sink turn.files turn.session document
    set { turn with files }
    match kept with
    | .ok path =>
      modify fun turn => { turn with session := { turn.session with planPath := path } }
      return false
    | .error (.file _) => return true
    | .error _ => throw .failed

/-- Complete the session. -/
def finish (engine : Engine ρ κ) : TurnM ρ κ String := do
  let saveFailed ← engine.store
  moveOn .completed id
  let response := Document.completion (← get).session saveFailed
  modify (Turn.respond response)
  return response

/-- Take the session as far as it goes. -/
def advance (engine : Engine ρ κ) : TurnM ρ κ (Outcome × String) := do
  match (← engine.orchestrate).question? with
  | some question => return (.clarification, ← pause question)
  | none =>
    engine.plan
    engine.runTools
    engine.solve
    return (.completed, ← engine.finish)

end Engine
end PlanAssistant
