import PlanAssistant.Json
import PlanAssistant.Text.Blank
import PlanAssistant.Validation

/-!
What the orchestrator decides: to ask the user a question, or to go on.  The decision is a JSON object,
perhaps between code fences.  Text that holds no well-formed decision counts as a decision to go on,
with the text as its summary; only the limits of the JSON reader stop the reading.
-/
namespace PlanAssistant

inductive Decision where
  | clarify (question : String) (reasoning : Option String)
  | proceed (summary : Option String) (reasoning : Option String)
deriving DecidableEq, Repr

namespace Decision

/-- Whether `c` is a spelling of the small ASCII letter `letter`; the long s is one of the letter s. -/
def spells (letter c : Char) : Bool := c.toLower == letter || (letter == 's' && c == 'ſ')

/-- Remove every code fence that names JSON. -/
def dropNamedFences : List Char → List Char
  | '`' :: '`' :: '`' :: j :: s :: o :: n :: rest =>
    if spells 'j' j && spells 's' s && spells 'o' o && spells 'n' n then dropNamedFences rest
    else '`' :: dropNamedFences ('`' :: '`' :: j :: s :: o :: n :: rest)
  | c :: rest => c :: dropNamedFences rest
  | [] => []

/-- Remove every plain code fence. -/
def dropFences : List Char → List Char
  | '`' :: '`' :: '`' :: rest => dropFences rest
  | c :: rest => c :: dropFences rest
  | [] => []

/-- The text without code fences and without blanks at its ends. -/
def sanitize (text : String) : String :=
  String.ofList (Text.stripWhile Text.isBlank (dropFences (dropNamedFences text.toList)))

/-- The decision of a record, if it holds a well-formed one. -/
def ofFields? (fields : List (String × Datum)) : Option Decision :=
  let reasoning := (Datum.lookup "reasoning" fields).bind Datum.asText?
  match (Datum.lookup "action" fields).bind Datum.asText? with
  | some "clarify" =>
    ((Datum.lookup "question" fields).bind Datum.asText?).map fun question =>
      clarify (Text.strip question) reasoning
  | some "proceed" =>
    let summary := (Datum.lookup "summary" fields).bind Datum.asText?
    some (proceed (summary.map Text.strip) reasoning)
  | _ => none

def ofDatum? : Datum → Option Decision
  | .record fields => ofFields? fields
  | _ => none

/-- A limit of the JSON reader that a text goes beyond. -/
inductive Limit where
  | tooManyDigits (count : Nat)
  | nestedTooDeep
deriving DecidableEq, Repr

/-- The question to put, when there is one to put: an empty question is none. -/
def question? : Decision → Option String
  | clarify question _ => if question.isEmpty then none else some question
  | proceed _ _ => none

/-- The decision in the orchestrator's answer. -/
def parse [Interpreter] (raw : String) : Except Limit Decision :=
  let cleaned := sanitize raw
  match Json.parse cleaned with
  | .ok value => .ok ((ofDatum? value).getD (proceed (some cleaned) none))
  | .error .malformed => .ok (proceed (some cleaned) none)
  | .error (.tooManyDigits count) => .error (.tooManyDigits count)
  | .error .nestedTooDeep => .error .nestedTooDeep

end Decision

/-! ### The form of a decision -/

inductive DecisionForm.Action where
  | clarify
  | proceed
deriving DecidableEq, Repr

/-- The fields a decision is written with, whatever its action. -/
structure DecisionForm where
  action : DecisionForm.Action
  question : Option String
  summary : Option String
  reasoning : Option String
deriving DecidableEq, Repr

namespace DecisionForm

def Action.name : Action → String
  | clarify => "clarify"
  | proceed => "proceed"

def Action.named : List (String × Action) := [Action.clarify, Action.proceed].map fun a => (a.name, a)

open Validation in
def check (fields : Fields) : Checked DecisionForm :=
  DecisionForm.mk <$> required "action" (oneOf Action.named) fields
    <*> optional "question" (orNull text) none fields
    <*> optional "summary" (orNull text) none fields
    <*> optional "reasoning" (orNull text) none fields

end DecisionForm
end PlanAssistant
