import Mathlib.Data.List.Chain
import PlanAssistant.Proofs.Engine.Course

/-!
The snapshots a turn publishes.  What the query of a stage leaves behind changes neither the session
nor what was published; between the planner's output and the solver's start the session is published
with its plan, then once for every beginning of its records, and once more when all steps are done.
-/
namespace PlanAssistant

namespace Update

/-- A history with more snapshots published, one after the other. -/
def extend (history : List Update) (sessions : List Session) : List Update :=
  sessions.foldl (fun history s => history ++ [.after history s]) history

theorem extend_cons (history : List Update) (s : Session) (sessions : List Session) :
    extend history (s :: sessions) = extend (history ++ [.after history s]) sessions := rfl

theorem extend_append (history : List Update) (a b : List Session) :
    extend history (a ++ b) = extend (extend history a) b := List.foldl_append

theorem map_session_extend (history : List Update) (sessions : List Session) :
    (extend history sessions).map (·.session) = history.map (·.session) ++ sessions := by
  induction sessions generalizing history with
  | nil => simp [extend]
  | cons s sessions ih =>
    rw [extend_cons, ih]
    simp [after]

/-- What was published stays. -/
theorem prefix_extend (history : List Update) (sessions : List Session) :
    history <+: extend history sessions := by
  induction sessions generalizing history with
  | nil => exact List.prefix_rfl
  | cons s sessions ih => exact (List.prefix_append _ _).trans (ih _)

/-- Publishing keeps the numbers without gaps. -/
theorem numbered_extend {history : List Update}
    (h : history.map (·.sequence) = List.range history.length) (sessions : List Session) :
    (extend history sessions).map (·.sequence) = List.range (extend history sessions).length := by
  induction sessions generalizing history with
  | nil => exact h
  | cons s sessions ih =>
    rw [extend_cons]
    refine ih ?_
    rw [List.map_append, h, List.length_append, List.length_singleton, List.range_succ]
    rfl

/-- The snapshots that came later are those published since. -/
theorem drop_extend (history : List Update) (sessions : List Session) :
    ((extend history sessions).drop history.length).map (·.session) = sessions := by
  rw [List.map_drop, map_session_extend, ← List.length_map (·.session), List.drop_left]

end Update

namespace Turn

variable {ρ κ : Type}

@[simp] theorem history_publishWith (change : Session → Session) (turn : Turn ρ κ) :
    (turn.publishWith change).history = Update.extend turn.history [change turn.session] := rfl

@[simp] theorem history_publishRecords (records : List StepRecord) (turn : Turn ρ κ) :
    (turn.publishRecords records).history =
      Update.extend turn.history [{ turn.session with records }] := rfl

theorem history_foldl_publishRecords (reports : List (List StepRecord)) (turn : Turn ρ κ) :
    (reports.foldl publishRecords turn).history =
      Update.extend turn.history (reports.map fun records => { turn.session with records }) := by
  induction reports generalizing turn with
  | nil => rfl
  | cons records reports ih =>
    rw [List.foldl_cons, ih, List.map_cons]
    rfl

end Turn

namespace Engine

variable {ρ κ : Type} (engine : Engine ρ κ)

/-! ### Storing and completing -/

@[simp] theorem session_stored (files : Files.Node) (planPath : Option String) (turn : Turn ρ κ) :
    (stored files planPath turn).session = { turn.session with planPath } := rfl

@[simp] theorem history_stored (files : Files.Node) (planPath : Option String) (turn : Turn ρ κ) :
    (stored files planPath turn).history = turn.history := rfl

@[simp] theorem session_completed (saveFailed : Bool) (turn : Turn ρ κ) :
    (completed saveFailed turn).session = { turn.session with status := .completed } := rfl

@[simp] theorem history_completed (saveFailed : Bool) (turn : Turn ρ κ) :
    (completed saveFailed turn).history =
      Update.extend turn.history [{ turn.session with status := .completed }] := rfl

/-! ### The plan of a turn -/

/-- The plan, where the event is the planner's answer. -/
def planIn? : Event κ → Option String
  | .answered .planner output => some output.text
  | _ => none

/-- The plan that the planner gave among some events. -/
def givenPlan? (events : List (Event κ)) : Option String := events.findSome? planIn?

theorem givenPlan?_map {α : Type} {form : α → Event κ} (h : ∀ a, planIn? (form a) = none)
    (as : List α) : givenPlan? (as.map form) = none := by
  unfold givenPlan?
  rw [List.findSome?_map, List.findSome?_eq_none_iff]
  exact fun a _ => h a

theorem givenPlan?_append (a b : List (Event κ)) :
    givenPlan? (a ++ b) = (givenPlan? a).or (givenPlan? b) := List.findSome?_append

@[simp] theorem givenPlan?_publishWith (change : Session → Session) (turn : Turn ρ κ) :
    givenPlan? (turn.publishWith change).events = givenPlan? turn.events := by
  unfold Turn.publishWith Turn.publish
  dsimp only
  rw [givenPlan?_append]
  exact Option.or_none

theorem givenPlan?_publishRecords (records : List StepRecord) (turn : Turn ρ κ) :
    givenPlan? (turn.publishRecords records).events = givenPlan? turn.events :=
  givenPlan?_publishWith _ turn

theorem givenPlan?_foldl_publishRecords (reports : List (List StepRecord)) (turn : Turn ρ κ) :
    givenPlan? (reports.foldl Turn.publishRecords turn).events = givenPlan? turn.events := by
  induction reports generalizing turn with
  | nil => rfl
  | cons records reports ih => rw [List.foldl_cons, ih, givenPlan?_publishRecords]

@[simp] theorem givenPlan?_stored (files : Files.Node) (planPath : Option String) (turn : Turn ρ κ) :
    givenPlan? (stored files planPath turn).events = givenPlan? turn.events := rfl

@[simp] theorem givenPlan?_completed (saveFailed : Bool) (turn : Turn ρ κ) :
    givenPlan? (completed saveFailed turn).events = givenPlan? turn.events := by
  unfold completed Turn.respond
  dsimp only
  rw [givenPlan?_publishWith]

/-! ### What a query leaves alone -/

variable [Interpreter]

@[simp] theorem session_waited (stage : Stage) (turn : Turn ρ κ) :
    (engine.waited stage turn).session = turn.session := rfl

@[simp] theorem history_waited (stage : Stage) (turn : Turn ρ κ) :
    (engine.waited stage turn).history = turn.history := rfl

@[simp] theorem session_served (stage : Stage) (output : StageOutput) (turn : Turn ρ κ) :
    (engine.served stage output turn).session = turn.session := rfl

@[simp] theorem history_served (stage : Stage) (output : StageOutput) (turn : Turn ρ κ) :
    (engine.served stage output turn).history = turn.history := rfl

/-! ### The parts of a turn -/

@[simp] theorem session_atPlanner (output : StageOutput) (turn : Turn ρ κ) :
    (engine.atPlanner output turn).session = { turn.session with status := .planning } := rfl

@[simp] theorem history_atPlanner (output : StageOutput) (turn : Turn ρ κ) :
    (engine.atPlanner output turn).history =
      Update.extend turn.history [{ turn.session with status := .planning }] := rfl

/-- The sessions published for the records of a pass. -/
def showing (s : Session) (passed : List (List StepRecord)) : List Session :=
  passed.map fun records => { s with status := .executingTools, records }

theorem history_tooled (turn : Turn ρ κ) :
    let pass := Tools.runPlan engine.workspace turn.files (turn.session.plan.getD "")
    (engine.tooled turn).history =
      Update.extend turn.history (showing turn.session ([] :: pass.reports ++ [pass.records])) := by
  intro pass
  unfold tooled
  dsimp only
  rw [Turn.history_publishRecords, Turn.history_foldl_publishRecords, session_foldl_publishRecords,
    Turn.history_publishWith, ← Update.extend_append, ← Update.extend_append, showing, List.map_append]
  rfl

/-- The sessions published from the planner's output to the solver's start. -/
def work (files : Files.Node) (plan : String) (s : Session) : List Session :=
  let pass := Tools.runPlan engine.workspace files plan
  { s with plan := some plan } ::
    (showing { s with plan := some plan } ([] :: pass.reports ++ [pass.records]) ++
      [{ s with status := .solving, plan := some plan, records := pass.records }])

@[simp] theorem session_atSolver (output : StageOutput) (turn : Turn ρ κ) :
    (engine.atSolver output turn).session =
      { turn.session with
        status := .solving
        plan := some output.text
        records := (Tools.runPlan engine.workspace turn.files output.text).records } := by
  change { (engine.tooled (engine.planned output turn)).session with status := .solving } = _
  rw [session_tooled]
  rfl

@[simp] theorem history_atSolver (output : StageOutput) (turn : Turn ρ κ) :
    (engine.atSolver output turn).history =
      Update.extend turn.history (engine.work turn.files output.text turn.session) := by
  have hp : (engine.planned output turn).history =
      Update.extend turn.history [{ turn.session with plan := some output.text }] := by
    unfold planned
    rw [Turn.history_publishWith, history_served, session_served]
  unfold atSolver
  rw [Turn.history_publishWith, history_tooled, session_tooled, hp, ← Update.extend_append,
    ← Update.extend_append]
  rfl

@[simp] theorem session_solved (output : StageOutput) (turn : Turn ρ κ) :
    (engine.solved output turn).session = { turn.session with summary := some output.text } := rfl

@[simp] theorem history_solved (output : StageOutput) (turn : Turn ρ κ) :
    (engine.solved output turn).history = turn.history := rfl

/-- What was published on the way to the solver. -/
theorem history_reached (output plan : StageOutput) (turn : Turn ρ κ) :
    (engine.atSolver plan (engine.atPlanner output turn)).history =
      Update.extend turn.history
        ({ turn.session with status := .planning } ::
          engine.work turn.files plan.text { turn.session with status := .planning }) := by
  rw [history_atSolver, history_atPlanner, ← Update.extend_append]
  rfl

/-! ### The plan and the parts -/

@[simp] theorem givenPlan?_waited (stage : Stage) (turn : Turn ρ κ) :
    givenPlan? (engine.waited stage turn).events = givenPlan? turn.events := by
  unfold waited Turn.note
  dsimp only
  rw [givenPlan?_append, givenPlan?_append, givenPlan?_map fun _ => rfl, givenPlan?_map fun _ => rfl,
    Option.or_none, Option.or_none, givenPlan?_append]
  exact Option.or_none

theorem givenPlan?_served (stage : Stage) (output : StageOutput) (turn : Turn ρ κ) :
    givenPlan? (engine.served stage output turn).events =
      (givenPlan? turn.events).or (if stage = .planner then some output.text else none) := by
  rw [← givenPlan?_waited engine stage turn]
  unfold served Turn.account
  dsimp only
  rw [givenPlan?_append]
  congr 1
  cases stage <;> split <;> rfl

@[simp] theorem givenPlan?_tooled (turn : Turn ρ κ) :
    givenPlan? (engine.tooled turn).events = givenPlan? turn.events := by
  unfold tooled
  dsimp only
  rw [givenPlan?_publishRecords, givenPlan?_foldl_publishRecords, givenPlan?_publishWith]

theorem givenPlan?_atPlanner (output : StageOutput) (turn : Turn ρ κ) :
    givenPlan? (engine.atPlanner output turn).events = givenPlan? turn.events := by
  unfold atPlanner
  rw [givenPlan?_publishWith, givenPlan?_served, if_neg (by decide), Option.or_none]

theorem givenPlan?_atSolver (output : StageOutput) (turn : Turn ρ κ) :
    givenPlan? (engine.atSolver output turn).events =
      (givenPlan? turn.events).or (some output.text) := by
  unfold atSolver planned
  rw [givenPlan?_publishWith, givenPlan?_tooled, givenPlan?_publishWith, givenPlan?_served,
    if_pos rfl]

@[simp] theorem givenPlan?_solved (output : StageOutput) (turn : Turn ρ κ) :
    givenPlan? (engine.solved output turn).events = givenPlan? turn.events := by
  change givenPlan? (engine.served .solver output turn).events = _
  rw [givenPlan?_served, if_neg (by decide), Option.or_none]

/-! ### Trails -/

/-- What a turn on a session publishes, and the session it is left with; the plan is the one the
planner gave, if the turn came so far. -/
inductive Trail (files : Files.Node) (s : Session) : Option String → List Session → Session → Prop
  /-- Nothing has changed. -/
  | still : Trail files s none [] s
  | asking (question : String) : Trail files s none [s.paused question] (s.paused question)
  | planning : Trail files s none [{ s with status := .planning }] { s with status := .planning }
  /-- The solver was reached; its summary is not published before the session completes. -/
  | solving {plan : String} {last : Session} (summary : Option String)
      (reached : last = { s with
        status := .solving
        plan := some plan
        records := (Tools.runPlan engine.workspace files plan).records
        summary }) :
    Trail files s (some plan)
      ({ s with status := .planning } :: engine.work files plan { s with status := .planning })
      last
  | completing {plan : String} {last : Session} (summary planPath : Option String)
      (reached : last = { s with
        status := .completed
        plan := some plan
        records := (Tools.runPlan engine.workspace files plan).records
        summary
        planPath }) :
    Trail files s (some plan)
      ({ s with status := .planning } :: engine.work files plan { s with status := .planning } ++ [last])
      last

/-- Every course leaves a trail. -/
theorem trail_course {turn last : Turn ρ κ} {ended : Except Stop (Outcome × String)}
    (h : Course engine turn ended last) (hn : givenPlan? turn.events = none) :
    ∃ sessions, last.history = Update.extend turn.history sessions ∧
      Trail engine turn.files turn.session (givenPlan? last.events) sessions last.session := by
  have hat : ∀ output plan : StageOutput, givenPlan? (engine.atSolver plan
      (engine.atPlanner output turn)).events = some plan.text := by
    intro output plan
    rw [givenPlan?_atSolver, givenPlan?_atPlanner, hn, Option.none_or]
  cases h with
  | undecided =>
    rw [givenPlan?_waited, hn]
    exact ⟨[], rfl, .still⟩
  | unreadable =>
    rw [givenPlan?_served, hn, if_neg (by decide)]
    exact ⟨[], rfl, .still⟩
  | questioned =>
    change ∃ sessions, _ ∧ Trail engine _ _ (givenPlan? (Turn.publishWith _ _).events) _ _
    rw [givenPlan?_publishWith, givenPlan?_served, hn, if_neg (by decide)]
    exact ⟨_, rfl, .asking _⟩
  | unplanned =>
    rw [givenPlan?_waited, givenPlan?_atPlanner, hn]
    exact ⟨_, rfl, .planning⟩
  | @unsolved output plan =>
    rw [givenPlan?_waited, hat]
    refine ⟨_, ?_, .solving turn.session.summary ?_⟩
    rotate_left
    · rw [session_waited, session_atSolver, session_atPlanner]
      rfl
    · rw [history_waited, history_reached]
  | @unkept output plan summary _ _ _ _ _ _ _ reached =>
    subst reached
    dsimp only
    rw [givenPlan?_solved, hat]
    refine ⟨_, ?_, .solving (some summary.text) ?_⟩
    rotate_left
    · rw [session_solved, session_atSolver, session_atPlanner]
      rfl
    · rw [history_solved, history_reached]
  | @finished output plan summary _ _ files planPath saveFailed _ _ _ _ _ reached =>
    subst reached
    rw [givenPlan?_completed, givenPlan?_stored, givenPlan?_solved, hat]
    refine ⟨_, ?_, .completing (some summary.text) planPath ?_⟩
    rotate_left
    · rw [session_completed, session_stored, session_solved, session_atSolver, session_atPlanner]
      rfl
    · rw [history_completed, history_stored, history_solved, history_reached, ← Update.extend_append]
      rfl

/-! ### Trails as chains -/

open Session

omit [Interpreter] in
theorem isChain_showing {a s b : Session} (first : List StepRecord) (more : List (List StepRecord))
    (ha : ∀ records, a.Follows { s with status := .executingTools, records })
    (hb : ∀ records, Follows { s with status := .executingTools, records } b) :
    (a :: (showing s (first :: more) ++ [b])).IsChain Follows := by
  induction more generalizing a first with
  | nil => exact .cons_cons (ha first) (.cons_cons (hb first) (.singleton b))
  | cons second more ih =>
    refine .cons_cons (ha first) (ih second fun records => ?_)
    exact follows_work _ (.inl rfl) _ _ _ _

/-- Every snapshot of the work on a plan follows the one before. -/
theorem isChain_work (files : Files.Node) (plan : String) {s : Session} (h : s.status = .planning) :
    (s :: engine.work files plan s).IsChain Follows := by
  refine .cons_cons (follows_work s (.inl rfl) _ _ _ _) (isChain_showing _ _ ?_ ?_)
  · intro records
    refine follows_work { s with plan := some plan } (.inr ?_) _ _ _ _
    change .executingTools ∈ s.status.next
    rw [h]
    decide
  · intro records
    exact follows_work { s with status := .executingTools, plan := some plan, records }
      (.inr (by decide : Status.solving ∈ Status.executingTools.next)) _ _ _ _

theorem getLast_work (files : Files.Node) (plan : String) (s : Session) :
    (engine.work files plan s).getLast? =
      some { s with
        status := .solving
        plan := some plan
        records := (Tools.runPlan engine.workspace files plan).records } := by
  unfold work
  rw [← List.cons_append, List.getLast?_concat]

theorem mem_work {files : Files.Node} {plan : String} {s t : Session}
    (h : t ∈ engine.work files plan s) (hs : s.status = .planning) :
    ∃ status records, status ≠ .awaitingClarification ∧
      t = { s with status, plan := some plan, records } := by
  unfold work showing at h
  rcases List.mem_cons.mp h with rfl | h
  · exact ⟨s.status, s.records, by rw [hs]; decide, rfl⟩
  · rcases List.mem_append.mp h with h | h
    · obtain ⟨records, -, rfl⟩ := List.mem_map.mp h
      exact ⟨.executingTools, records, by decide, rfl⟩
    · rw [List.mem_singleton.mp h]
      exact ⟨.solving, _, by decide, rfl⟩

namespace Trail

variable {engine} {files : Files.Node} {s last : Session} {plan? : Option String}
  {sessions : List Session}

theorem isChain (h : engine.Trail files s plan? sessions last) (hs : s.status = .orchestrating) :
    (s :: sessions).IsChain Follows := by
  have hp : s.Follows { s with status := .planning } :=
    follows_work s (.inr (by rw [hs]; decide)) _ _ _ _
  cases h with
  | still => exact .singleton s
  | asking question => exact .cons_cons (follows_paused hs question) (.singleton _)
  | planning => exact .cons_cons hp (.singleton _)
  | @solving plan => exact .cons_cons hp (isChain_work engine files plan rfl)
  | @completing plan _ summary planPath reached =>
    refine .cons_cons hp ((isChain_work engine files plan rfl).append (.singleton last) ?_)
    intro x hx y hy
    rw [List.getLast?_cons, getLast_work] at hx
    obtain rfl := Option.mem_some.mp hx
    obtain rfl := Option.mem_some.mp hy
    rw [reached]
    exact follows_work { s with
      status := .solving
      plan := some plan
      records := (Tools.runPlan engine.workspace files plan).records }
      (.inr (by decide : Status.completed ∈ Status.solving.next)) _ _ _ _

theorem consistent (h : engine.Trail files s plan? sessions last) (hs : s.pending = none) :
    ∀ t ∈ sessions, t.Consistent := by
  have hp : Consistent { s with status := .planning } := consistent_work hs (by decide) _ _ _ _
  have hw : ∀ plan, ∀ t ∈ engine.work files plan { s with status := .planning }, t.Consistent := by
    intro plan t ht
    obtain ⟨status, records, hne, rfl⟩ := engine.mem_work ht rfl
    exact consistent_work hs hne _ _ _ _
  cases h with
  | still => exact fun t ht => absurd ht List.not_mem_nil
  | asking question => exact List.forall_mem_singleton.mpr (consistent_paused question s)
  | planning => exact List.forall_mem_singleton.mpr hp
  | solving => exact List.forall_mem_cons.mpr ⟨hp, hw _⟩
  | completing summary planPath reached =>
    refine List.forall_mem_append.mpr ⟨List.forall_mem_cons.mpr ⟨hp, hw _⟩, ?_⟩
    rw [reached]
    exact List.forall_mem_singleton.mpr (consistent_work hs (by decide) _ _ _ _)

/-- The session a turn is left with is the last one published, but perhaps for its summary. -/
theorem getLast (h : engine.Trail files s plan? sessions last) :
    ∃ shown, (s :: sessions).getLast? = some shown ∧ last = { shown with summary := last.summary } := by
  cases h with
  | still | asking | planning => exact ⟨_, rfl, rfl⟩
  | solving summary reached =>
    rw [List.getLast?_cons_cons, List.getLast?_cons, getLast_work, reached]
    exact ⟨_, rfl, rfl⟩
  | completing =>
    rw [← List.cons_append, List.getLast?_concat]
    exact ⟨last, rfl, rfl⟩

theorem birth (h : engine.Trail files s plan? sessions last) : last.birth = s.birth := by
  cases h with
  | still | asking | planning => rfl
  | solving summary reached => rw [reached]; rfl
  | completing summary planPath reached => rw [reached]; rfl

end Trail
end Engine
end PlanAssistant
