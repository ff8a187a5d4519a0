import PlanAssistant.Console.Command
import PlanAssistant.Console.Dialogue

/-!
The program as a whole: arguments are read, keys loaded, and the command carried out on the files, the
configuration and the replies it finds.  The outcome tells what the terminal did, how the program ended,
and what it left behind.
-/
namespace PlanAssistant

def programVersion : String := "planmode 0.1.0"

/-- A configuration that comes with the program, or a file to load it from. -/
inductive ConfigSource (α : Type) where
  | packaged (value : α)
  | file (file : ConfigFile)

/-- What the program finds when it starts. -/
structure Surroundings where
  environment : Environment
  /-- The keys file of the user and that of the project, where they are there. -/
  homeKeys : Option ByteArray
  projectKeys : Option ByteArray
  registry : ConfigSource Registry
  settings : ConfigSource PlanSettings
  files : Files.Node
  /-- The directory the program is started in. -/
  here : Files.FilePath
  replies : List Reply
  /-- What the user will enter. -/
  input : String
  births : Births

/-- What ends the program other than an exit. -/
inductive Crash where
  | keys (fault : KeyFile.Fault)
  | config (error : ConfigError)
  | path (error : Files.ResolveError)
  | turn (escape : Escape)

/-- What became of the program. -/
structure ProgramOutcome where
  ended : Except Crash Nat
  actions : List Action
  calls : Nat := 0
  files : Files.Node
  /-- The path of the plan document, if one was written. -/
  planPath : Option String := none
  /-- Whether the program ended because the input did. -/
  wantsAnswer : Bool := false

namespace Program

/-- An outcome that changes no file and calls no model. -/
def plain (around : Surroundings) (code : Nat) (actions : List Action) : ProgramOutcome :=
  { ended := .ok code, actions, files := around.files }

def crashed (around : Surroundings) (crash : Crash) : ProgramOutcome :=
  { ended := .error crash, actions := [], files := around.files }

def errorLine (text : String) : Action := .print ("[red]Error:[/red] " ++ text)

/-! ### Configuration -/

def loaded {α : Type} (load : ConfigFile → Except ConfigError α) :
    ConfigSource α → Except ConfigError α
  | .packaged value => .ok value
  | .file file => load file

/-- The outcome of a configuration that cannot be loaded. -/
def configFailure (around : Surroundings) (what : String) (error : ConfigError) : ProgramOutcome :=
  if error.isReported then
    plain around 1 [.print ("[red]Error loading " ++ what ++ ":[/red] " ++ error.message)]
  else crashed around (.config error)

variable [Interpreter]

def withRegistry (around : Surroundings) (next : Registry → ProgramOutcome) : ProgramOutcome :=
  match loaded Registry.load around.registry with
  | .ok registry => next registry
  | .error error => configFailure around "model registry" error

def withSettings (around : Surroundings) (next : PlanSettings → ProgramOutcome) : ProgramOutcome :=
  match loaded PlanSettings.load around.settings with
  | .ok settings => next settings
  | .error error => configFailure around "plan config" error

/-! ### Tables -/

def price (cost : Float) : String := Decimal.fixed 2 cost

def modelRow (environment : Environment) (entry : String × ModelProfile) : List String :=
  let profile := entry.2
  [ entry.1, profile.displayName, profile.provider, if profile.supportsReasoning then "✓" else "",
    if environment.has profile.keyVariable then "[green]✓[/green]" else "[red]✗[/red]",
    price profile.costInput, price profile.costOutput ]

def modelTable (environment : Environment) (registry : Registry) : Table where
  title := "Model Registry"
  columns := ["Key", "Model", "Provider", "Reasoning", "Key Set", "$/1M in", "$/1M out"]
  rows := registry.map (modelRow environment)

def settingsTable (settings : PlanSettings) : Table where
  title := "Plan Mode Configuration"
  columns := ["Setting", "Value"]
  rows :=
    [ ["model", Text.quoted settings.model], ["system_prompt", Text.quoted settings.systemPrompt],
      ["max_steps", toString settings.maxSteps], ["temperature", Decimal.text settings.temperature],
      ["max_tokens", toString settings.maxTokens],
      ["reasoning_effort", Text.quoted settings.reasoningEffort],
      ["timeout", toString settings.timeout], ["plans_dir", Text.quoted settings.plansDir] ]

/-! ### Running a task -/

/-- The lines of what the user enters; a last line without an end counts unless it is empty. -/
def inputLines (input : String) : List String :=
  let lines := Text.splitNewlines (String.ofList (Text.normalizeNewlines input.toList))
  if lines.getLast? == some "" then lines.dropLast else lines

/-- The workspace a request asks for. -/
def workspaceOf (around : Surroundings) (request : RunRequest) : Except Files.ResolveError Workspace :=
  if request.withoutWorkspace then .ok .none
  else Workspace.open around.files around.here
    (if request.workspace.isEmpty then "." else request.workspace)

/-- What is said of the model before the first turn. -/
def greeting (profile : ModelProfile) (showsReasoning : Bool) : List Action :=
  let name := profile.displayName
  .print ("[dim]Model: " ++ name ++ " (" ++ profile.provider ++ ")[/dim]") ::
    if showsReasoning && !profile.supportsReasoning then
      [.print ("[yellow]Warning:[/yellow] " ++ name ++
        " does not stream reasoning; --reasoning has no effect.")]
    else []

/-- Carry out a dialogue from its first input. -/
def converse {κ : Type} (around : Surroundings) (engine : Engine (List Reply) κ) (greeting : List Action)
    (task : String) : ProgramOutcome :=
  let start : Dialogue (List Reply) := { memory := { files := around.files, replies := around.replies } }
  let (dialogue, ending) := start.carryOn engine around.births task (inputLines around.input)
  { ended := match ending with
      | .exit code => .ok code
      | .aborted => .ok 1
      | .escaped escape => .error (.turn escape)
    actions := greeting ++ dialogue.terminal.actions
    calls := dialogue.calls
    files := dialogue.memory.files
    planPath := dialogue.memory.session.bind (·.planPath)
    wantsAnswer := match ending with
      | .aborted => true
      | _ => false }

/-- Run a task on the model that the configuration chooses. -/
def runWith (around : Surroundings) (environment : Environment) (request : RunRequest) (task : String)
    (registry : Registry) (settings : PlanSettings) : ProgramOutcome :=
  match registry.select settings request.model with
  | .error error => plain around 1 [errorLine error.message]
  | .ok (_, profile) =>
    match workspaceOf around request with
    | .error (.refused refusal) => crashed around (.path (.refused refusal))
    | .error error => plain around 1 [errorLine error.message]
    | .ok workspace =>
      let engine := Engine.ofModel profile settings environment workspace true request.showsReasoning
      converse around engine (greeting profile request.showsReasoning) task

def run (around : Surroundings) (environment : Environment) (request : RunRequest) : ProgramOutcome :=
  let task := Text.strip request.task
  match Files.refusal? request.workspace.toList with
  | some refusal => crashed around (.path (.refused refusal))
  | none =>
    if task.isEmpty then plain around 1 [errorLine "Task cannot be empty."]
    else withRegistry around fun registry =>
      withSettings around fun settings => runWith around environment request task registry settings

/-! ### The whole -/

/-- Carry out a command. -/
def carryOut (around : Surroundings) (environment : Environment) : Command → ProgramOutcome
  | .help => plain around 0 []
  | .models => withRegistry around fun registry =>
      plain around 0 [.table (modelTable environment registry)]
  | .config => withSettings around fun settings => plain around 0 [.table (settingsTable settings)]
  | .run request => run around environment request

/-- The exit code for arguments that cannot be read. -/
def usageCode : Nat := 2

/-- Start the program with arguments. -/
def start (around : Surroundings) (args : List String) : ProgramOutcome :=
  match Entry.read args with
  | .error _ => plain around usageCode []
  | .ok .help => plain around 0 []
  | .ok .version => plain around 0 [.print programVersion]
  | .ok (.command name args) =>
    match KeyFile.applyBoth around.environment around.homeKeys around.projectKeys with
    | (_, some fault) => crashed around (.keys fault)
    | (environment, none) =>
      match Command.read name args with
      | .error _ => plain around usageCode []
      | .ok command => carryOut around environment command

end Program
end PlanAssistant
