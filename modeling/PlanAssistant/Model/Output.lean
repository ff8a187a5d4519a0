import PlanAssistant.Validation
import PlanAssistant.Config.Profile

/-!
What a stage gives back: the model's answer and reasoning, the tokens it took, and what they cost.
Costs are worked out in binary floating point, each step rounded to the nearest value.
-/
namespace PlanAssistant

open Validation

structure TokenUsage where
  prompt : Int
  completion : Int
  cost : Float
deriving Inhabited

structure StageOutput where
  text : String
  reasoning : String := ""
  usage : Option TokenUsage := none
  model : String := ""
deriving Inhabited

namespace TokenUsage

def check (fields : Fields) : Checked TokenUsage :=
  TokenUsage.mk <$> required "prompt_tokens" (atLeast 0 whole) fields
    <*> required "completion_tokens" (atLeast 0 whole) fields
    <*> required "cost" (floatAtLeast 0 float) fields

/-- Prices are given for this many tokens. -/
def pricedTokens : Nat := 1000000

/-- Tokens in millions, unless there are too many for a floating-point number. -/
def millions? (tokens : Int) : Option Float :=
  let x := Decimal.nearest (tokens < 0) tokens.natAbs pricedTokens
  if x.isInf then none else some x

/-- The cost of a call's tokens, if it can be worked out. -/
def cost? (profile : ModelProfile) (prompt completion : Int) : Option Float := do
  let promptMillions ← millions? prompt
  let completionMillions ← millions? completion
  return promptMillions * profile.costInput + completionMillions * profile.costOutput

/-- The usage with its cost, checked like any other. -/
def ofCounts (prompt completion : Int) (cost : Float) : Checked TokenUsage :=
  check [("prompt_tokens", .int prompt), ("completion_tokens", .int completion), ("cost", .float cost)]

end TokenUsage

def StageOutput.check (fields : Fields) : Checked StageOutput :=
  StageOutput.mk <$> required "text" Validation.text fields
    <*> optional "reasoning_text" Validation.text "" fields
    <*> optional "token_usage" (orNull (record TokenUsage.check)) none fields
    <*> optional "model" Validation.text "" fields

end PlanAssistant
