import PlanAssistant.Session.Basic
import PlanAssistant.Config.Profile
import PlanAssistant.Config.Keys

/-!
What a model is asked, and the request a query becomes: models that take a reasoning effort get one,
all others a temperature.
-/
namespace PlanAssistant

/-- What a stage asks of the model. -/
structure Query where
  system : String
  messages : List Message
  /-- Seconds the call may take. -/
  timeout : Int
deriving DecidableEq, Repr, Inhabited

/-- All messages of a query, the system's first. -/
def Query.transcript (query : Query) : List Message := ⟨.system, query.system⟩ :: query.messages

/-- How the model is to answer. -/
inductive Sampling where
  | temperature (value : Float)
  | effort (level : String)

structure Request where
  model : String
  messages : List Message
  timeout : Float
  key : Option String
  base : Option String
  sampling : Sampling
  /-- The most tokens of the answer. -/
  limit : Option Int

/-- A model that is ready to be called: its profile, the settings and the key of its interface. -/
structure Endpoint where
  profile : ModelProfile
  settings : PlanSettings
  key : String

namespace Endpoint

def «open» (profile : ModelProfile) (settings : PlanSettings) (env : Environment) : Endpoint :=
  ⟨profile, settings, env.value profile.keyVariable⟩

def sampling (endpoint : Endpoint) : Sampling :=
  if endpoint.profile.takesEffort then .effort endpoint.settings.reasoningEffort
  else .temperature endpoint.settings.temperature

/-- The request of a query whose timeout is a floating-point number by now. -/
def request (endpoint : Endpoint) (query : Query) (timeout : Float) : Request where
  model := endpoint.profile.model
  messages := query.transcript
  timeout := timeout
  key := if endpoint.key.isEmpty then none else some endpoint.key
  base := if endpoint.profile.apiBase.isEmpty then none else some endpoint.profile.apiBase
  sampling := endpoint.sampling
  limit := if 0 < endpoint.settings.maxTokens then some endpoint.settings.maxTokens else none

end Endpoint
end PlanAssistant
