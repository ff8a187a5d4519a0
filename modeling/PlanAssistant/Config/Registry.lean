import PlanAssistant.Config.Profile
import PlanAssistant.Toml

/-!
The registry of models and the settings file.  A registry keeps its models in the order of its file.
The model to run on is the one asked for, else the one configured, else the first that streams its
reasoning, else the first.
-/
namespace PlanAssistant

open Validation

/-- Why a configuration could not be loaded. -/
inductive ConfigError where
  | noRegistry (path : String)
  | noSettings (path : String)
  | noModels (path : String)
  | unreadable (error : Toml.Error)
  | invalid (failures : List Failure)
  | notTable

namespace ConfigError

def message : ConfigError → String
  | noRegistry path => "Model registry not found: " ++ path
  | noSettings path => "Plan config not found: " ++ path
  | noModels path => "No [models] section found in " ++ path
  | unreadable .notUtf8 => "The file is not UTF-8 text"
  | unreadable .malformed => "The file is not a TOML document"
  | unreadable (.tooManyDigits n) => Json.tooManyDigitsMessage n
  | unreadable .nestedTooDeep => "The file nests its values too deep"
  | invalid failures => "; ".intercalate (failures.map Failure.text)
  | notTable => "The settings are not a table"

/-- Whether the user is told of the error; the others end the program. -/
def isReported : ConfigError → Bool
  | unreadable .nestedTooDeep => false
  | notTable => false
  | _ => true

end ConfigError

def ofChecked {α : Type} : Checked α → Except ConfigError α
  | .passed value => .ok value
  | .failed failures => .error (.invalid failures)

/-- A configuration file: where it is, and what it holds if it is there. -/
structure ConfigFile where
  path : String
  content : Option ByteArray

def readDocument [Interpreter] (bytes : ByteArray) : Except ConfigError Fields :=
  match Toml.parse bytes with
  | .ok fields => .ok fields
  | .error e => .error (.unreadable e)

abbrev Registry := List (String × ModelProfile)

namespace Registry

def get? (registry : Registry) (key : String) : Option ModelProfile :=
  (registry.find? (·.1 == key)).map (·.2)

/-- The registry with one more model; a key already there keeps its place. -/
def insert (registry : Registry) (key : String) (profile : ModelProfile) : Registry :=
  if (registry.get? key).isSome then
    registry.map fun entry => if entry.1 == key then (key, profile) else entry
  else registry ++ [(key, profile)]

/-- The models of a section, tables alone. -/
def ofSection : Fields → Except ConfigError Registry
  | [] => .ok []
  | (key, .record fields) :: rest => do
    let profile ← ofChecked (ModelProfile.check fields)
    let others ← ofSection rest
    return (key, profile) :: others
  | _ :: rest => ofSection rest

def load [Interpreter] (file : ConfigFile) : Except ConfigError Registry := do
  let some bytes := file.content | throw (.noRegistry file.path)
  let fields ← readDocument bytes
  match Datum.lookup "models" fields with
  | some (.record (first :: rest)) => ofSection (first :: rest)
  | _ => throw (.noModels file.path)

/-- The models that come with the program. -/
def packaged : Registry :=
  [ ("claude-sonnet",
      ⟨"anthropic", "anthropic/claude-sonnet-4-5-20250929", "Claude Sonnet 4.5", "ANTHROPIC_API_KEY",
        "", 200000, true, 3.0, 15.0⟩),
    ("claude-haiku",
      ⟨"anthropic", "anthropic/claude-haiku-4-5", "Claude Haiku 4.5", "ANTHROPIC_API_KEY",
        "", 200000, false, 1.0, 5.0⟩),
    ("gpt-4o", ⟨"openai", "gpt-4o", "GPT-4o", "OPENAI_API_KEY", "", 128000, false, 2.5, 10.0⟩),
    ("o3-mini", ⟨"openai", "o3-mini", "o3-mini", "OPENAI_API_KEY", "", 200000, true, 1.1, 4.4⟩),
    ("gemini-flash",
      ⟨"google", "gemini/gemini-2.5-flash", "Gemini 2.5 Flash", "GEMINI_API_KEY",
        "", 1000000, false, 0.15, 0.6⟩),
    ("grok-3",
      ⟨"xai", "xai/grok-3", "Grok 3", "XAI_API_KEY", "https://api.x.ai/v1",
        131072, false, 3.0, 15.0⟩) ]

/-- Why no model could be chosen. -/
inductive SelectError where
  | noModels
  | unknown (key : String) (available : List String)

def SelectError.message : SelectError → String
  | noModels => "No models available in registry"
  | unknown key available =>
    "Model '" ++ key ++ "' not found in registry. Available: " ++ ", ".intercalate available

def sortedKeys (registry : Registry) : List String :=
  (registry.map (·.1)).mergeSort fun a b => decide (a ≤ b)

/-- The model asked for: by the caller, else by the settings. -/
def requested? (settings : PlanSettings) (override : Option String) : Option String :=
  match override.filter (!·.isEmpty) with
  | some key => some key
  | none => if settings.model.isEmpty then none else some settings.model

/-- The key and the profile of the model to run on. -/
def select (registry : Registry) (settings : PlanSettings) (override : Option String) :
    Except SelectError (String × ModelProfile) :=
  match registry with
  | [] => .error .noModels
  | first :: _ =>
    match requested? settings override with
    | some key =>
      match registry.get? key with
      | some profile => .ok (key, profile)
      | none => .error (.unknown key registry.sortedKeys)
    | none => .ok ((registry.find? (·.2.supportsReasoning)).getD first)

end Registry

namespace PlanSettings

def load [Interpreter] (file : ConfigFile) : Except ConfigError PlanSettings := do
  let some bytes := file.content | throw (.noSettings file.path)
  let fields ← readDocument bytes
  match Datum.lookup "plan" fields with
  | none => ofChecked (check [])
  | some (.record fields) => ofChecked (check fields)
  | some _ => throw .notTable

/-- The settings that come with the program. -/
def packaged : PlanSettings := { model := "claude-sonnet" }

end PlanSettings
end PlanAssistant
