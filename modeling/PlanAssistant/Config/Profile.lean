import PlanAssistant.Validation
import PlanAssistant.Text.Casing

/-!
What is configured: profiles of models, and the settings of plan mode.  Costs are in US dollars for a
million tokens.
-/
namespace PlanAssistant

open Validation

/-- A model that plan mode can run on. -/
structure ModelProfile where
  provider : String
  model : String
  displayName : String
  /-- The environment variable that holds the key of the provider's interface. -/
  keyVariable : String
  /-- The address of the provider's interface; empty for the usual one. -/
  apiBase : String
  contextWindow : Int
  supportsReasoning : Bool
  costInput : Float
  costOutput : Float
deriving Inhabited

namespace ModelProfile

/-- Parts of model names that tell a model which takes a reasoning effort. -/
def effortMarkers : List String := ["o1", "o3", "o4", "gpt-5"]

/-- Whether the model takes a reasoning effort instead of a temperature. -/
def takesEffort (profile : ModelProfile) : Bool :=
  let name := Text.lower profile.model
  effortMarkers.any (Text.contains name ·)

def check (fields : Fields) : Checked ModelProfile :=
  ModelProfile.mk <$> required "provider" text fields
    <*> required "model" text fields
    <*> required "display_name" text fields
    <*> required "api_key_env" text fields
    <*> optional "api_base" text "" fields
    <*> required "context_window" (above 0 whole) fields
    <*> optional "supports_reasoning" truth false fields
    <*> required "cost_input" (floatAtLeast 0 float) fields
    <*> required "cost_output" (floatAtLeast 0 float) fields

end ModelProfile

/-- The settings of plan mode. -/
structure PlanSettings where
  /-- The key of the model to run on; empty to choose one. -/
  model : String := ""
  systemPrompt : String := ""
  /-- The step budget of each stage; zero for the stage's own. -/
  maxSteps : Int := 0
  temperature : Float := 0.2
  /-- The most tokens of an answer; zero for the provider's own limit. -/
  maxTokens : Int := 0
  reasoningEffort : String := "medium"
  /-- Seconds a model call may take. -/
  timeout : Int := 120
  /-- Where plan documents go, from the workspace root. -/
  plansDir : String := ".planmode/plans"
deriving Inhabited

namespace PlanSettings

/-- The step budget of a stage that needs at least `floor` steps. -/
def stepBudget (settings : PlanSettings) (floor : Int) : Int :=
  max floor (if settings.maxSteps == 0 then floor else settings.maxSteps)

def check (fields : Fields) : Checked PlanSettings :=
  PlanSettings.mk <$> optional "model" text "" fields
    <*> optional "system_prompt" text "" fields
    <*> optional "max_steps" (atLeast 0 whole) 0 fields
    <*> optional "temperature" (floatAtLeast 0 (floatAtMost 2 float)) 0.2 fields
    <*> optional "max_tokens" (atLeast 0 whole) 0 fields
    <*> optional "reasoning_effort" text "medium" fields
    <*> optional "timeout" (above 0 whole) 120 fields
    <*> optional "plans_dir" text ".planmode/plans" fields

end PlanSettings
end PlanAssistant
