import PlanAssistant.Console.Terminal
import PlanAssistant.Engine.Basic

/-!
The dialogue of one task: the task and then one answer for every question are submitted, until a turn
ends otherwise than with a question.  Each turn is followed on the terminal.
-/
namespace PlanAssistant

/-- How a dialogue ends. -/
inductive Ending where
  | exit (code : Nat)
  | escaped (escape : Escape)
  /-- The user gave no answer. -/
  | aborted

/-- Whether a dialogue goes on after a turn. -/
inductive Verdict where
  | asks
  | ends (ending : Ending)

/-- A dialogue between turns. -/
structure Dialogue (ρ : Type) where
  memory : Memory ρ
  terminal : Terminal := .listening
  cost : Float := 0
  /-- The calls made so far. -/
  calls : Nat := 0

namespace Dialogue

variable {ρ κ : Type}

def costLine (cost : Float) : Action :=
  .print ("[dim]Model cost: $" ++ Decimal.fixed 4 cost ++ "[/dim]")

def question : Action := .ask "Answer"

/-- What is shown of a result, and whether the dialogue goes on; `cost` is that of all turns. -/
def conclude (cost : Float) (result : TurnResult) : List Action × Verdict :=
  match result.outcome with
  | .cancelled => ([.print "[dim]Stage cancelled.[/dim]"], .ends (.exit 130))
  | .failed => ([.print ("[red]Error:[/red] " ++ result.response)], .ends (.exit 1))
  | .completed => ([.markdown result.response, costLine cost], .ends (.exit 0))
  | .clarification => ([.markdown result.response, question], .asks)

def isCall : Event κ → Bool
  | .attempted _ => true
  | _ => false

variable [Interpreter]

/-- Submit an input and follow the turn to its end. -/
def turn (engine : Engine ρ κ) (births : Births) (dialogue : Dialogue ρ) (text : String) :
    Dialogue ρ × Verdict :=
  let report := engine.submit births dialogue.memory { text, token := .live }
  let terminal := (dialogue.terminal.followAll report.events).stopSpinner
  let calls := dialogue.calls + report.events.countP isCall
  match report.result with
  | .error escape => (⟨report.memory, terminal.close, dialogue.cost, calls⟩, .ends (.escaped escape))
  | .ok result =>
    let cost := dialogue.cost + result.cost
    let (actions, verdict) := conclude cost result
    let terminal := terminal.drain.act actions
    match verdict with
    | .asks => (⟨report.memory, terminal, cost, calls⟩, .asks)
    | .ends ending => (⟨report.memory, terminal.close, cost, calls⟩, .ends ending)

/-- The dialogue after the user has given no answer. -/
def abort (dialogue : Dialogue ρ) : Dialogue ρ := { dialogue with terminal := dialogue.terminal.close }

/-- Carry a dialogue on from an input; empty answers are asked for again. -/
def carryOn (engine : Engine ρ κ) (births : Births) (dialogue : Dialogue ρ) (text : String)
    (answers : List String) : Dialogue ρ × Ending :=
  match dialogue.turn engine births text with
  | (dialogue, .ends ending) => (dialogue, ending)
  | (dialogue, .asks) =>
    match _h : answers.dropWhile (·.isEmpty) with
    | [] => (dialogue.abort, .aborted)
    | answer :: rest => dialogue.carryOn engine births answer rest
termination_by answers.length
decreasing_by
  have := (answers.dropWhile_sublist (·.isEmpty)).length_le
  rw [_h] at this
  simp only [List.length_cons] at this
  omega

end Dialogue
end PlanAssistant
