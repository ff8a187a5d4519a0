import PlanAssistant.Engine.Basic
import PlanAssistant.Proofs.Session.Changes

/-!
The courses a turn can take.  A turn is a chain of steps on the state of the turn, and it ends in one
of a few ways: the orchestrator, the planner or the solver gives no output, the orchestrator puts a
question, the document cannot be made or kept, or the session completes.  `Course` lists them with the
state each leaves, and `course_advance` says that there are no others; what holds of every turn is
proved by cases on it.
-/
namespace PlanAssistant

namespace Engine

variable {ρ κ : Type}

/-! ### Changes of the session -/

theorem run_change (change : SessionM Unit) (turn : Turn ρ κ) :
    (Engine.change change : TurnM ρ κ Unit).run.run turn =
      match turn.session.perform change with
      | (.ok (), s) => (.ok (), { turn with session := s })
      | (.error _, s) => (.error .failed, { turn with session := s }) := by
  unfold Engine.change
  rw [run_bind, run_get]
  dsimp only
  cases turn.session.perform change with
  | mk done s =>
    rw [run_bind, run_set]
    cases done <;> rfl

theorem run_moveOn {turn : Turn ρ κ} {source target : Status} (h : turn.session.status = source)
    (hm : source.canMoveTo target = true) (more : Session → Session) :
    (moveOn target more : TurnM ρ κ Unit).run.run turn =
      (.ok (), turn.publishWith fun s => more { s with status := target }) := by
  unfold moveOn
  rw [run_bind, run_change, Session.perform_moveTo, h, if_pos hm]
  dsimp only
  rw [run_modify]
  rfl

theorem run_pause {turn : Turn ρ κ} (h : turn.session.status = .orchestrating) (question : String) :
    (pause question : TurnM ρ κ String).run.run turn =
      (.ok (Document.clarifying question turn.session.clarifications),
        (turn.publishWith (Session.paused question)).respond
          (Document.clarifying question turn.session.clarifications)) := by
  unfold pause
  rw [run_bind, run_change, Session.perform_ask h]
  dsimp only
  rw [run_bind, run_modify]
  dsimp only
  rw [run_bind, run_get]
  dsimp only
  rw [run_bind, run_modify]
  rfl

theorem session_foldl_publishRecords (reports : List (List StepRecord)) (records : List StepRecord)
    (turn : Turn ρ κ) :
    { (reports.foldl Turn.publishRecords turn).session with records } =
      { turn.session with records } := by
  induction reports generalizing turn with
  | nil => rfl
  | cons report reports ih => rw [List.foldl_cons, ih]; rfl

end Engine

variable [Interpreter]

/-- What a stage is told of a session. -/
def Stage.messages : Stage → Session → List Message
  | orchestrator, s => s.transcript
  | planner, s => Briefing.planner s
  | solver, s => Briefing.solver s

namespace Engine

variable {ρ κ : Type}

/-! ### Parts of a turn -/

section Parts

variable (engine : Engine ρ κ)

/-- What becomes of the query of a stage. -/
def asked (stage : Stage) (turn : Turn ρ κ) : Completion ρ κ :=
  engine.provider.run (engine.query stage (stage.messages turn.session))
    ⟨engine.watched, turn.nextInterrupt⟩ turn.token turn.replies

/-- The turn once the query of a stage has ended, with an output or without. -/
def waited (stage : Stage) (turn : Turn ρ κ) : Turn ρ κ :=
  Turn.note stage (engine.asked stage turn)
    { turn with
      events := turn.events ++ [.began stage (engine.settings.stepBudget stage.floor)] }

/-- The turn once a stage has given its output. -/
def served (stage : Stage) (output : StageOutput) (turn : Turn ρ κ) : Turn ρ κ :=
  Turn.account engine.showsReasoning stage output (engine.waited stage turn)

/-- The turn at the start of the planner stage, after the orchestrator's output. -/
def atPlanner (output : StageOutput) (turn : Turn ρ κ) : Turn ρ κ :=
  (engine.served .orchestrator output turn).publishWith ({ · with status := .planning })

/-- The turn once the planner has given its output. -/
def planned (output : StageOutput) (turn : Turn ρ κ) : Turn ρ κ :=
  (engine.served .planner output turn).publishWith ({ · with plan := some output.text })

/-- The turn after the steps of the plan. -/
def tooled (turn : Turn ρ κ) : Turn ρ κ :=
  let begun := turn.publishWith fun s => { s with status := .executingTools, records := [] }
  let pass := Tools.runPlan engine.workspace begun.files (begun.session.plan.getD "")
  (pass.reports.foldl Turn.publishRecords begun).publishRecords pass.records

/-- The turn at the start of the solver stage, after the planner's output. -/
def atSolver (output : StageOutput) (turn : Turn ρ κ) : Turn ρ κ :=
  (engine.tooled (engine.planned output turn)).publishWith ({ · with status := .solving })

/-- The turn once the solver has given its output. -/
def solved (output : StageOutput) (turn : Turn ρ κ) : Turn ρ κ :=
  let turn := engine.served .solver output turn
  { turn with session := { turn.session with summary := some output.text } }

end Parts

/-- The turn once the document has been kept, or could not be. -/
def stored (files : Files.Node) (planPath : Option String) (turn : Turn ρ κ) : Turn ρ κ :=
  { turn with files, session := { turn.session with planPath } }

/-- The turn once its session is completed and the user told so. -/
def completed (saveFailed : Bool) (turn : Turn ρ κ) : Turn ρ κ :=
  let turn := turn.publishWith ({ · with status := .completed })
  turn.respond (Document.completion turn.session saveFailed)

/-! ### Running the parts -/

theorem run_runStage (engine : Engine ρ κ) (stage : Stage) (turn : Turn ρ κ) :
    (engine.runStage stage (stage.messages turn.session)).run.run turn =
      match (engine.asked stage turn).outcome with
      | .error error => (.error (.ofCallError error), engine.waited stage turn)
      | .ok output => (.ok output, engine.served stage output turn) := by
  unfold runStage served waited
  rw [run_bind, run_get]
  dsimp only
  rw [run_bind, run_set, ← asked]
  dsimp only
  cases (engine.asked stage turn).outcome with
  | error error => rw [run_throw]
  | ok output =>
    rw [run_bind, run_modify]
    dsimp only
    rw [run_pure]

theorem run_orchestrate (engine : Engine ρ κ) (turn : Turn ρ κ) :
    engine.orchestrate.run.run turn =
      match (engine.asked .orchestrator turn).outcome with
      | .error error => (.error (.ofCallError error), engine.waited .orchestrator turn)
      | .ok output =>
        (match Decision.parse output.text with
          | .ok decision => .ok decision
          | .error _ => .error .failed, engine.served .orchestrator output turn) := by
  have hs := engine.run_runStage .orchestrator turn
  unfold orchestrate
  rw [run_bind, run_get]
  dsimp only
  rw [run_bind]
  simp only [Stage.messages] at hs
  rw [hs]
  cases (engine.asked .orchestrator turn).outcome with
  | error error => rfl
  | ok output =>
    dsimp only
    cases Decision.parse output.text <;> rfl

theorem run_plan (engine : Engine ρ κ) {turn : Turn ρ κ} (h : turn.session.status = .orchestrating) :
    engine.plan.run.run turn =
      let begun := turn.publishWith ({ · with status := .planning })
      match (engine.asked .planner begun).outcome with
      | .error error => (.error (.ofCallError error), engine.waited .planner begun)
      | .ok output => (.ok (), engine.planned output begun) := by
  have hs := engine.run_runStage .planner (turn.publishWith ({ · with status := .planning }))
  unfold plan
  rw [run_bind, run_moveOn h (by decide)]
  dsimp only [id]
  rw [run_bind, run_get]
  dsimp only
  rw [run_bind]
  simp only [Stage.messages] at hs
  rw [hs]
  cases (engine.asked .planner (turn.publishWith ({ · with status := .planning }))).outcome <;> rfl

theorem run_runTools (engine : Engine ρ κ) {turn : Turn ρ κ} (h : turn.session.status = .planning) :
    engine.runTools.run.run turn = (.ok (), engine.tooled turn) := by
  unfold runTools
  rw [run_bind, run_moveOn h (by decide)]
  dsimp only
  rw [run_modify]
  rfl

theorem run_solve (engine : Engine ρ κ) {turn : Turn ρ κ}
    (h : turn.session.status = .executingTools) :
    engine.solve.run.run turn =
      let begun := turn.publishWith ({ · with status := .solving })
      match (engine.asked .solver begun).outcome with
      | .error error => (.error (.ofCallError error), engine.waited .solver begun)
      | .ok output => (.ok (), engine.solved output begun) := by
  have hs := engine.run_runStage .solver (turn.publishWith ({ · with status := .solving }))
  unfold solve
  rw [run_bind, run_moveOn h (by decide)]
  dsimp only [id]
  rw [run_bind, run_get]
  dsimp only
  rw [run_bind]
  simp only [Stage.messages] at hs
  rw [hs]
  cases (engine.asked .solver (turn.publishWith ({ · with status := .solving }))).outcome <;> rfl

theorem session_tooled (engine : Engine ρ κ) (turn : Turn ρ κ) :
    (engine.tooled turn).session =
      { turn.session with
        status := .executingTools
        records := (Tools.runPlan engine.workspace turn.files (turn.session.plan.getD "")).records } :=
  session_foldl_publishRecords _ _ _

theorem status_tooled (engine : Engine ρ κ) (turn : Turn ρ κ) :
    (engine.tooled turn).session.status = .executingTools := by
  rw [session_tooled]

/-- What keeping the document of a session comes to: the files, the path it has in the end, and
whether it failed to be written; nothing when it cannot be made or the writer breaks down. -/
def keeping? (engine : Engine ρ κ) (files : Files.Node) (s : Session) :
    Option (Files.Node × Option String × Bool) :=
  match Document.render s with
  | .error _ => none
  | .ok document =>
    match engine.sink files s document with
    | (files, .ok path) => some (files, path, false)
    | (files, .error (.file _)) => some (files, s.planPath, true)
    | (_, .error _) => none

/-- The files after an attempt to keep the document of a session. -/
def filesAfter (engine : Engine ρ κ) (files : Files.Node) (s : Session) : Files.Node :=
  match Document.render s with
  | .error _ => files
  | .ok document => (engine.sink files s document).1

theorem run_store (engine : Engine ρ κ) (turn : Turn ρ κ) :
    engine.store.run.run turn =
      match engine.keeping? turn.files turn.session with
      | some (files, planPath, saveFailed) => (.ok saveFailed, stored files planPath turn)
      | none =>
        (.error .failed, { turn with files := engine.filesAfter turn.files turn.session }) := by
  unfold store keeping? filesAfter
  rw [run_bind, run_get]
  dsimp only
  cases Document.render turn.session with
  | error e => rfl
  | ok document =>
    cases hk : engine.sink turn.files turn.session document with
    | mk files kept =>
      simp only [hk]
      rw [run_bind, run_set]
      cases kept with
      | ok path => rfl
      | error e => cases e <;> rfl

theorem run_finish (engine : Engine ρ κ) {turn : Turn ρ κ} (h : turn.session.status = .solving) :
    engine.finish.run.run turn =
      match engine.keeping? turn.files turn.session with
      | some (files, planPath, saveFailed) =>
        (.ok (Document.completion { turn.session with status := .completed, planPath } saveFailed),
          completed saveFailed (stored files planPath turn))
      | none =>
        (.error .failed, { turn with files := engine.filesAfter turn.files turn.session }) := by
  unfold finish
  rw [run_bind, run_store]
  cases engine.keeping? turn.files turn.session with
  | none => rfl
  | some kept =>
    obtain ⟨files, planPath, saveFailed⟩ := kept
    have hs : (stored files planPath turn).session.status = .solving := h
    dsimp only
    rw [run_bind, run_moveOn hs (by decide)]
    dsimp only [id]
    rw [run_bind, run_get]
    dsimp only
    rw [run_bind, run_modify]
    rfl

/-! ### Courses -/

/-- How a turn on an orchestrating session can end, and the turn it leaves. -/
inductive Course (engine : Engine ρ κ) (turn : Turn ρ κ) :
    Except Stop (Outcome × String) → Turn ρ κ → Prop
  /-- The orchestrator gives no output. -/
  | undecided {error : CallError} (asked : (engine.asked .orchestrator turn).outcome = .error error) :
    Course engine turn (.error (.ofCallError error)) (engine.waited .orchestrator turn)
  /-- The orchestrator's output is beyond the limits of the reader. -/
  | unreadable {output : StageOutput} {limit : Decision.Limit}
      (asked : (engine.asked .orchestrator turn).outcome = .ok output)
      (parsed : Decision.parse output.text = .error limit) :
    Course engine turn (.error .failed) (engine.served .orchestrator output turn)
  /-- The orchestrator puts a question. -/
  | questioned {output : StageOutput} {decision : Decision} {question : String}
      (asked : (engine.asked .orchestrator turn).outcome = .ok output)
      (parsed : Decision.parse output.text = .ok decision)
      (decided : decision.question? = some question) :
    Course engine turn
      (.ok (.clarification, Document.clarifying question turn.session.clarifications))
      (((engine.served .orchestrator output turn).publishWith (Session.paused question)).respond
        (Document.clarifying question turn.session.clarifications))
  /-- The planner gives no output. -/
  | unplanned {output : StageOutput} {decision : Decision} {error : CallError}
      (asked : (engine.asked .orchestrator turn).outcome = .ok output)
      (parsed : Decision.parse output.text = .ok decision)
      (decided : decision.question? = none)
      (planned : (engine.asked .planner (engine.atPlanner output turn)).outcome = .error error) :
    Course engine turn (.error (.ofCallError error))
      (engine.waited .planner (engine.atPlanner output turn))
  /-- The solver gives no output. -/
  | unsolved {output plan : StageOutput} {decision : Decision} {error : CallError}
      (asked : (engine.asked .orchestrator turn).outcome = .ok output)
      (parsed : Decision.parse output.text = .ok decision)
      (decided : decision.question? = none)
      (planned : (engine.asked .planner (engine.atPlanner output turn)).outcome = .ok plan)
      (solved : (engine.asked .solver (engine.atSolver plan (engine.atPlanner output turn))).outcome =
        .error error) :
    Course engine turn (.error (.ofCallError error))
      (engine.waited .solver (engine.atSolver plan (engine.atPlanner output turn)))
  /-- The document cannot be made, or the writer breaks down. -/
  | unkept {output plan summary : StageOutput} {decision : Decision} {last : Turn ρ κ}
      (asked : (engine.asked .orchestrator turn).outcome = .ok output)
      (parsed : Decision.parse output.text = .ok decision)
      (decided : decision.question? = none)
      (planned : (engine.asked .planner (engine.atPlanner output turn)).outcome = .ok plan)
      (solved : (engine.asked .solver (engine.atSolver plan (engine.atPlanner output turn))).outcome =
        .ok summary)
      (reached : last = engine.solved summary (engine.atSolver plan (engine.atPlanner output turn)))
      (kept : engine.keeping? last.files last.session = none) :
    Course engine turn (.error .failed)
      { last with files := engine.filesAfter last.files last.session }
  /-- The session completes. -/
  | finished {output plan summary : StageOutput} {decision : Decision} {last : Turn ρ κ}
      {files : Files.Node} {planPath : Option String} {saveFailed : Bool}
      (asked : (engine.asked .orchestrator turn).outcome = .ok output)
      (parsed : Decision.parse output.text = .ok decision)
      (decided : decision.question? = none)
      (planned : (engine.asked .planner (engine.atPlanner output turn)).outcome = .ok plan)
      (solved : (engine.asked .solver (engine.atSolver plan (engine.atPlanner output turn))).outcome =
        .ok summary)
      (reached : last = engine.solved summary (engine.atSolver plan (engine.atPlanner output turn)))
      (kept : engine.keeping? last.files last.session = some (files, planPath, saveFailed)) :
    Course engine turn
      (.ok (.completed,
        Document.completion { last.session with status := .completed, planPath } saveFailed))
      (completed saveFailed (stored files planPath last))

/-- A turn on an orchestrating session takes one of the courses. -/
theorem course_advance (engine : Engine ρ κ) {turn : Turn ρ κ}
    (h : turn.session.status = .orchestrating) :
    Course engine turn (engine.advance.run.run turn).1 (engine.advance.run.run turn).2 := by
  unfold advance
  rw [run_bind, run_orchestrate]
  cases ha : (engine.asked .orchestrator turn).outcome with
  | error error => exact .undecided ha
  | ok output =>
    dsimp only
    cases hd : Decision.parse output.text with
    | error limit => exact .unreadable ha hd
    | ok decision =>
      have hs : (engine.served .orchestrator output turn).session.status = .orchestrating := h
      dsimp only
      cases hq : decision.question? with
      | some question =>
        dsimp only
        rw [run_bind, run_pause hs]
        exact .questioned ha hd hq
      | none =>
        dsimp only
        rw [run_bind, run_plan engine hs]
        dsimp only
        cases hp : (engine.asked .planner (engine.atPlanner output turn)).outcome with
        | error error =>
          rw [← atPlanner, hp]
          exact .unplanned ha hd hq hp
        | ok plan =>
          rw [← atPlanner, hp]
          dsimp only
          have ht : (engine.planned plan (engine.atPlanner output turn)).session.status = .planning :=
            rfl
          rw [run_bind, run_runTools engine ht]
          dsimp only
          rw [run_bind, run_solve engine (status_tooled engine _)]
          dsimp only
          cases hv : (engine.asked .solver (engine.atSolver plan (engine.atPlanner output turn))).outcome with
          | error error =>
            rw [← atSolver, hv]
            exact .unsolved ha hd hq hp hv
          | ok summary =>
            rw [← atSolver, hv]
            dsimp only
            have hv' : (engine.solved summary
                (engine.atSolver plan (engine.atPlanner output turn))).session.status = .solving := rfl
            rw [run_bind, run_finish engine hv']
            cases hk : engine.keeping? _ _ with
            | none => exact .unkept ha hd hq hp hv rfl hk
            | some kept => exact .finished ha hd hq hp hv rfl hk

end Engine
end PlanAssistant
