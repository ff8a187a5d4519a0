import PlanAssistant.Engine.Turn
import PlanAssistant.Model.Endpoint
import PlanAssistant.Config.Registry

/-!
The engine between turns.  It holds one session, everything published so far, and the talk with the
user; each input starts a turn, and every turn that ends has a result: a question, the finished plan, a
failure or a cancellation.
-/
namespace PlanAssistant

/-- The id and the time of creation of each session to come, by its number. -/
abbrev Births := Nat → String × Instant

/-- What an engine remembers, with the files and the replies it works on. -/
structure Memory (ρ : Type) where
  session : Option Session := none
  history : List Update := []
  chat : List Message := []
  lastResponse : String := ""
  /-- How many sessions were started. -/
  born : Nat := 0
  files : Files.Node
  replies : ρ

/-- A user input, and how the user interrupts the turn it starts. -/
structure TurnInput where
  text : String
  token : Token := .absent
  interruptAt : Option Nat := none
deriving DecidableEq, Repr

/-- What came of a turn. -/
structure TurnReport (ρ κ : Type) where
  result : Except Escape TurnResult
  memory : Memory ρ
  events : List (Event κ)

namespace Engine

variable {ρ κ : Type}

/-- A turn for a session, before anything has happened but the input. -/
def openTurn (memory : Memory ρ) (input : TurnInput) (s : Session) : Turn ρ κ where
  session := s
  history := memory.history
  chat := memory.chat ++ [⟨.user, Text.strip input.text⟩]
  lastResponse := memory.lastResponse
  files := memory.files
  replies := memory.replies
  token := input.token
  interruptAt := input.interruptAt
  cost := 0
  events := []

/-- What the engine remembers of a turn. -/
def closeTurn (born : Nat) (turn : Turn ρ κ) : Memory ρ where
  session := some turn.session
  history := turn.history
  chat := turn.chat
  lastResponse := turn.lastResponse
  born := born
  files := turn.files
  replies := turn.replies

/-- The result of a turn that ended one way or the other. -/
def result (turn : Turn ρ κ) : Except Stop (Outcome × String) → Except Escape TurnResult
  | .ok (outcome, response) => .ok ⟨outcome, turn.session.id, response, turn.cost⟩
  | .error .cancelled => .ok ⟨.cancelled, turn.session.id, "", turn.cost⟩
  | .error .failed => .ok ⟨.failed, turn.session.id, Document.failureNotice, turn.cost⟩
  | .error (.escaped escape) => .error escape

/-- How many sessions have been started once an input is accepted. -/
def bornAfter (memory : Memory ρ) : Nat :=
  if (Session.goingOn? memory.session).isSome then memory.born else memory.born + 1

/-- Take an input into the session it belongs to. -/
def accept (births : Births) (memory : Memory ρ) (text : String) : Except IllegalMove Unit × Session :=
  let (id, createdAt) := births (memory.born + 1)
  Session.accept memory.session (.start id createdAt text) text

/-- Apply a user input and take the session as far as it goes. -/
def submit [Interpreter] (engine : Engine ρ κ) (births : Births) (memory : Memory ρ) (input : TurnInput) :
    TurnReport ρ κ :=
  let text := Text.strip input.text
  match accept births memory text with
  | (.error move, s) =>
    let chat := memory.chat ++ [⟨.user, text⟩]
    ⟨.error (.illegalMove move), { memory with chat, session := some s }, []⟩
  | (.ok (), s) =>
    let (ended, turn) := engine.advance.run.run (Turn.publish (openTurn memory input s))
    ⟨result turn ended, closeTurn (bornAfter memory) turn, turn.events⟩

/-- An engine on a model of the registry. -/
def ofModel (profile : ModelProfile) (settings : PlanSettings) (env : Environment)
    (workspace : Workspace) (watched showsReasoning : Bool) : Engine (List Reply) Request where
  provider := (Endpoint.open profile settings env).provider
  workspace := workspace
  settings := settings
  watched := watched
  showsReasoning := showsReasoning

end Engine
end PlanAssistant
