import PlanAssistant.Model.Failure

/-!
What comes back from a model call: nothing at all, a failure, or a stream of chunks.  A stream may
break off with a failure at any place, and the user may interrupt just before any part of it.
-/
namespace PlanAssistant

/-- Token counts as the service reports them. -/
structure ReportedUsage where
  prompt : Option Int
  completion : Option Int
deriving DecidableEq, Repr

/-- What a chunk adds to the answer and to the reasoning. -/
structure Delta where
  content : Option String := none
  reasoning : Option String := none
deriving DecidableEq, Repr

/-- A chunk; one without choices has no delta. -/
structure Chunk where
  delta : Option Delta := none
  usage : Option ReportedUsage := none
deriving DecidableEq, Repr

namespace Chunk

def content (chunk : Chunk) : String := (chunk.delta.bind (·.content)).getD ""

def reasoning (chunk : Chunk) : String := (chunk.delta.bind (·.reasoning)).getD ""

/-- Whether a chunk adds nothing. -/
def isSilent (chunk : Chunk) : Bool := chunk.content.isEmpty && chunk.reasoning.isEmpty

end Chunk

/-- One part of a stream, and whether the user interrupts before it arrives. -/
structure StreamPart where
  interrupts : Bool := false
  arrives : Except ModelFailure Chunk

inductive Reply where
  | stream (parts : List StreamPart)
  | failure (failure : ModelFailure)
  /-- No reply ever; the user interrupts the wait. -/
  | silence

/-- The reply that gives a whole text in one chunk. -/
def Reply.ofText (text : String) : Reply :=
  .stream [⟨false, .ok ⟨some ⟨some text, none⟩, none⟩⟩]

end PlanAssistant
