import PlanAssistant.Text.Casing
import PlanAssistant.Text.Quoted
import PlanAssistant.Text.Search

/-!
How a model call fails: on this side, or with an error the service reports.  The kind decides whether
the call is worth another attempt; the text is what the user or the log reads.
-/
namespace PlanAssistant

/-- The first eight kinds arise on this side; all others are errors the service reports. -/
inductive FailureKind where
  | other
  | badValue
  | runtime
  | timeLimit
  | system
  | connection
  | missingKey
  | interrupted
  | rateLimit
  | unavailable
  | serverError
  | unreachable
  | unauthorized
  | badRequest
  | notFound
  | serviceTimeout
  | badGateway
  | contextTooLong
  | contentRefused
deriving DecidableEq, Repr

namespace FailureKind

/-- The names a reported error goes by, the outermost first; none for a failure on this side. -/
def names : FailureKind → List String
  | rateLimit => ["RateLimitError"]
  | unavailable => ["ServiceUnavailableError"]
  | serverError => ["InternalServerError"]
  | unreachable => ["APIConnectionError"]
  | unauthorized => ["AuthenticationError"]
  | badRequest => ["BadRequestError"]
  | notFound => ["NotFoundError"]
  | serviceTimeout => ["Timeout"]
  | badGateway => ["BadGatewayError"]
  | contextTooLong => ["ContextWindowExceededError", "BadRequestError"]
  | contentRefused => ["BadRequestError", "ContentPolicyViolationError"]
  | _ => []

/-- Whether the request itself is refused, for whatever reason. -/
def refusesRequest : FailureKind → Bool
  | badRequest => true
  | contextTooLong => true
  | contentRefused => true
  | _ => false

/-- Whether another attempt may go better. -/
def isTransient : FailureKind → Bool
  | timeLimit => true
  | rateLimit => true
  | unavailable => true
  | serverError => true
  | unreachable => true
  | _ => false

end FailureKind

structure ModelFailure where
  kind : FailureKind
  message : String
deriving DecidableEq, Repr

namespace ModelFailure

variable [Interpreter]

/-- The failure in words. -/
def text (failure : ModelFailure) : String :=
  match failure.kind with
  | .missingKey => Text.quoted failure.message
  | kind => "".intercalate (kind.names.map fun name => "litellm." ++ name ++ ": ") ++ failure.message

/-- The most characters of a failure that a reason repeats. -/
def reasonLimit : Nat := 80

/-- Reasons and the words that tell them, in the order they are looked for. -/
def beforeTimeout : List (String × List String) :=
  [("rate limit", ["rate", "429"]), ("overloaded", ["overloaded", "529"])]

def afterTimeout : List (String × List String) :=
  [ ("service unavailable", ["503", "unavailable"]), ("server error", ["500", "internal"]),
    ("connection error", ["connection"]) ]

/-- The first reason of which a word occurs. -/
def reasonIn? (text : String) (reasons : List (String × List String)) : Option String :=
  (reasons.find? fun reason => reason.2.any (Text.contains text)).map (·.1)

/-- A short reason for the user. -/
def reason (failure : ModelFailure) : String :=
  let small := Text.lower failure.text
  match reasonIn? small beforeTimeout with
  | some reason => reason
  | none =>
    if Text.contains small "timeout" || failure.kind == .timeLimit then "timeout"
    else (reasonIn? small afterTimeout).getD (Text.take reasonLimit failure.text)

end ModelFailure
end PlanAssistant
