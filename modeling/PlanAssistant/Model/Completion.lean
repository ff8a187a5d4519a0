import PlanAssistant.Model.Failure
import PlanAssistant.Model.Output
import PlanAssistant.Model.Query

/-!
What becomes of a query: an output or the reason why there is none, the attempts that were made, and the
progress that was reported on the way.  A token tells whether the user can interrupt, and whether that
has happened.
-/
namespace PlanAssistant

/-- A call without a token cannot be interrupted. -/
inductive Token where
  | absent
  | live
  | cancelled
deriving DecidableEq, Repr, Inhabited

/-- The token after the user interrupts. -/
def Token.cancel : Token → Token
  | absent => absent
  | live => cancelled
  | cancelled => cancelled

/-- Why a query has no output. -/
inductive CallError where
  /-- The user had interrupted. -/
  | cancelled
  /-- The user interrupted while no reply came. -/
  | abandoned (displayName : String)
  /-- No reply comes, and nobody can interrupt. -/
  | endless
  | raised (failure : ModelFailure)
  | unauthorized (model keyVariable : String)
  | refused (model : String) (failure : ModelFailure)
  | timedOut (seconds : Float) (attempt limit : Nat)
  | exhausted (model : String) (limit : Nat) (failure : ModelFailure)
  | timeoutTooLarge
  | costTooLarge
  | invalid (failures : List Failure)

def CallError.message [Interpreter] : CallError → String
  | cancelled => "Stage cancelled"
  | abandoned displayName => "Stage on " ++ displayName ++ " cancelled"
  | endless => "No reply"
  | raised failure => failure.text
  | unauthorized model keyVariable =>
    "Authentication failed for " ++ model ++ ". Check that " ++ keyVariable ++ " is set correctly."
  | refused model failure => "Bad request to " ++ model ++ ": " ++ failure.text
  | timedOut seconds attempt limit =>
    "Streaming call timed out after " ++ Decimal.text seconds ++ "s (attempt " ++ toString attempt ++
      "/" ++ toString limit ++ ")"
  | exhausted model limit failure =>
    "Streaming call to " ++ model ++ " failed after " ++ toString limit ++ " retries: " ++ failure.text
  | timeoutTooLarge => "int too large to convert to float"
  | costTooLarge => "integer division result too large for a float"
  | invalid failures => "; ".intercalate (failures.map Failure.text)

/-- A report on a stream: what is new, the answer so far, the number of chunks so far, and whether the
stream has ended. -/
structure Progress where
  content : String
  reasoning : String
  answer : String
  count : Nat
  isComplete : Bool
deriving DecidableEq, Repr

open Validation in
/-- A report as read from data. -/
def Progress.check (fields : Fields) : Checked Progress :=
  Progress.mk <$> optional "delta" text "" fields
    <*> optional "reasoning_delta" text "" fields
    <*> required "accumulated" text fields
    <*> (Int.toNat <$> required "token_count" (atLeast 0 whole) fields)
    <*> optional "is_complete" truth false fields

/-- Who looks at the progress: whether anybody does, and at which report, counted from one, the user
interrupts. -/
structure Watch where
  watched : Bool
  interruptAt : Option Nat
deriving DecidableEq, Repr

/-- A call that was made, and the seconds waited after it before the next. -/
structure Attempt (κ : Type) where
  call : κ
  wait : Option Nat := none

/-- What became of a query; `ρ` is the type of the replies still to come, `κ` that of the calls. -/
structure Completion (ρ κ : Type) where
  outcome : Except CallError StageOutput
  attempts : List (Attempt κ)
  reports : List Progress
  token : Token
  rest : ρ

/-- Anything that answers queries. -/
structure Provider (ρ κ : Type) where
  displayName : String
  complete : Query → Watch → Token → ρ → Completion ρ κ

/-- Answer a query, unless the user has interrupted before. -/
def Provider.run {ρ κ : Type} (provider : Provider ρ κ) (query : Query) (watch : Watch) (token : Token)
    (replies : ρ) : Completion ρ κ :=
  match token with
  | .cancelled => ⟨.error .cancelled, [], [], .cancelled, replies⟩
  | token => provider.complete query watch token replies

/-- What an unanswered call comes to. -/
def CallError.ofSilence (displayName : String) : Token → CallError
  | .absent => .endless
  | _ => .abandoned displayName

end PlanAssistant
