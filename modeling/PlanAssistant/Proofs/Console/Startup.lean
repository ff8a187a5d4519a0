import PlanAssistant.Console.Program
import PlanAssistant.Proofs.Config.KeyFiles

/-!
Starting the program.  The key files are loaded for every command, before the command itself is read, so
files that are not harmless stop every command; and nothing later can end the program in this way.
-/
namespace PlanAssistant.Program

variable {around : Surroundings} {environment : Environment} {fault : KeyFile.Fault}

/-- An outcome that the key files have no part in. -/
def NotKeys (outcome : ProgramOutcome) : Prop := ∀ fault, outcome.ended ≠ .error (.keys fault)

theorem notKeys_configFailure (what : String) (error : ConfigError) :
    NotKeys (configFailure around what error) := by
  intro fault
  unfold configFailure
  split <;> exact nofun

variable [Interpreter]

theorem notKeys_withRegistry {next : Registry → ProgramOutcome}
    (h : ∀ registry, NotKeys (next registry)) : NotKeys (withRegistry around next) := by
  unfold withRegistry
  split
  · exact h _
  · exact notKeys_configFailure _ _

theorem notKeys_withSettings {next : PlanSettings → ProgramOutcome}
    (h : ∀ settings, NotKeys (next settings)) : NotKeys (withSettings around next) := by
  unfold withSettings
  split
  · exact h _
  · exact notKeys_configFailure _ _

theorem notKeys_converse {κ : Type} (engine : Engine (List Reply) κ) (greeting : List Action)
    (task : String) : NotKeys (converse around engine greeting task) := by
  intro fault
  unfold converse
  dsimp only
  split <;> exact nofun

theorem notKeys_runWith (request : RunRequest) (task : String) (registry : Registry)
    (settings : PlanSettings) :
    NotKeys (runWith around environment request task registry settings) := by
  unfold runWith
  split
  · exact nofun
  split
  · exact nofun
  · exact nofun
  · exact notKeys_converse _ _ _

theorem notKeys_carryOut (command : Command) : NotKeys (carryOut around environment command) := by
  cases command with
  | help => exact nofun
  | models => exact notKeys_withRegistry fun registry => nofun
  | config => exact notKeys_withSettings fun settings => nofun
  | run request =>
    change NotKeys (run around environment request)
    unfold run
    dsimp only
    split
    · exact nofun
    split
    · exact nofun
    · exact notKeys_withRegistry fun registry => notKeys_withSettings fun settings =>
        notKeys_runWith request _ registry settings

/-- The program ends with a fault of the key files exactly when loading them for a command breaks off with
it. -/
theorem ended_start_eq_keys_iff {args : List String} :
    (start around args).ended = .error (.keys fault) ↔
      (∃ name rest, Entry.read args = .ok (.command name rest)) ∧
        (KeyFile.applyBoth around.environment around.homeKeys around.projectKeys).2 = some fault := by
  unfold start
  cases Entry.read args with
  | error => simp [plain]
  | ok entry =>
    cases entry with
    | help => simp [plain]
    | version => simp [plain]
    | command name rest =>
      dsimp only
      obtain ⟨environment, _ | other⟩ :=
        KeyFile.applyBoth around.environment around.homeKeys around.projectKeys
      · refine iff_of_false ?_ fun h => nomatch h.2
        dsimp only
        split
        · exact nofun
        · exact notKeys_carryOut _ fault
      · simp [crashed]

/-- Key files stop a command exactly when they are not harmless. -/
theorem stopped_by_keys_iff {args : List String} :
    (∃ fault, (start around args).ended = .error (.keys fault)) ↔
      (∃ name rest, Entry.read args = .ok (.command name rest)) ∧
        ¬ KeyFile.Harmless around.environment around.homeKeys around.projectKeys := by
  simp only [ended_start_eq_keys_iff, exists_and_left, KeyFile.harmless_iff_returns,
    ← Option.isSome_iff_exists, Option.isSome_iff_ne_none]

end PlanAssistant.Program
