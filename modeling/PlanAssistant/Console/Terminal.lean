import PlanAssistant.Console.Action
import PlanAssistant.Engine.Turn
import PlanAssistant.Updates.Emitter

/-!
Following a turn on the terminal.  The progress of the session is printed from delivered updates: a line
for every change of status, and one for every tool step.  While a stage streams, a spinner shows how
many tokens have come.
-/
namespace PlanAssistant

def Status.label : Status → String
  | orchestrating => "Orchestrating"
  | awaitingClarification => "Awaiting clarification"
  | planning => "Planning"
  | executingTools => "Executing tools"
  | solving => "Solving"
  | completed => "Completed"

/-- What has been printed of a session: its id and status, and how many of its tool steps. -/
structure Printer where
  last : Option (String × Status) := none
  stepsSeen : Nat := 0
deriving DecidableEq, Repr

namespace Printer

def statusLine (status : Status) : Action := .print ("[bold blue]▸[/bold blue] " ++ status.label)

def stepLine (record : StepRecord) : Action :=
  let mark := if record.failure?.isSome then "[red]✗[/red]" else "[green]✓[/green]"
  .print ("  " ++ mark ++ " " ++
    Markup.escape (record.id ++ " " ++ record.tool ++ "[" ++ record.argument ++ "]"))

/-- Print a change of status. -/
def showStatus (printer : Printer) (s : Session) : Printer × List Action :=
  if printer.last == some (s.id, s.status) then (printer, [])
  else
    let known := match printer.last with
      | some (id, _) => id == s.id
      | none => false
    ({ last := some (s.id, s.status), stepsSeen := if known then printer.stepsSeen else 0 },
      [statusLine s.status])

/-- Print the tool steps not printed yet. -/
def showSteps (printer : Printer) (s : Session) : Printer × List Action :=
  if s.status == .executingTools then
    ({ printer with stepsSeen := s.records.length },
      (s.records.drop printer.stepsSeen).map stepLine)
  else (printer, [])

/-- Print what an update brings. -/
def follow (printer : Printer) (update : Update) : Printer × List Action :=
  let (printer, statusActions) := printer.showStatus update.session
  let (printer, stepActions) := printer.showSteps update.session
  (printer, statusActions ++ stepActions)

end Printer

/-- A terminal with its one listener, the printer. -/
structure Terminal where
  emitter : Emitter Unit := {}
  printer : Printer := {}
  /-- Whether the spinner is live. -/
  spinning : Bool := false
  actions : List Action := []

namespace Terminal

/-- A terminal whose printer listens. -/
def listening : Terminal := { emitter := Emitter.listen () {} }

def act (terminal : Terminal) (actions : List Action) : Terminal :=
  { terminal with actions := terminal.actions ++ actions }

/-- The printer reacts to nothing. -/
def passive : Emitter.Behaviour Unit := fun _ _ => []

def printDelivery (terminal : Terminal) (delivery : Delivery Unit) : Terminal :=
  let (printer, actions) := terminal.printer.follow delivery.update
  { terminal with printer, actions := terminal.actions ++ actions }

/-- Print the updates delivered since there were `before` deliveries. -/
def printSince (before : Nat) (terminal : Terminal) : Terminal :=
  (terminal.emitter.delivered.drop before).foldl printDelivery terminal

/-- Deliver and print all updates that wait. -/
def drain (terminal : Terminal) : Terminal :=
  let emitter := terminal.emitter.drain passive terminal.emitter.backlog
  printSince terminal.emitter.delivered.length { terminal with emitter }

/-- Deliver and print all updates that wait, and stop the dispatcher. -/
def close (terminal : Terminal) : Terminal :=
  let emitter := terminal.emitter.close passive terminal.emitter.backlog
  printSince terminal.emitter.delivered.length { terminal with emitter }

/-! ### The spinner -/

def stopSpinner (terminal : Terminal) : Terminal :=
  if terminal.spinning then { terminal.act [.stopSpinner] with spinning := false } else terminal

def spinnerLabel (stage : Stage) (progress : Progress) : String :=
  "[dim]Stage " ++ toString stage.number ++ " streaming · " ++ toString progress.count ++
    " tokens[/dim]"

/-- Show the progress of a stream. -/
def tick (stage : Stage) (progress : Progress) (terminal : Terminal) : Terminal :=
  if progress.isComplete then terminal.stopSpinner
  else
    let label : Action := .label (spinnerLabel stage progress)
    if terminal.spinning then terminal.act [label]
    else { terminal.act [label, .startSpinner] with spinning := true }

/-! ### Events -/

def reasoningPanel (stage : Stage) (text : String) : Action :=
  .panel ("[dim]Reasoning (stage " ++ toString stage.number ++ ")[/dim]") text

/-- Follow one event.  The dispatcher runs whenever a stage begins. -/
def follow {κ : Type} (terminal : Terminal) : Event κ → Terminal
  | .published update => { terminal with emitter := terminal.emitter.publish update.session }
  | .began _ _ => terminal.drain
  | .attempted _ => terminal
  | .answered _ _ => terminal
  | .streamed stage progress => terminal.tick stage progress
  | .reasoned stage text => terminal.act [reasoningPanel stage text]

/-- Follow the events of a turn in order. -/
def followAll {κ : Type} (terminal : Terminal) (events : List (Event κ)) : Terminal :=
  events.foldl follow terminal

end Terminal
end PlanAssistant
