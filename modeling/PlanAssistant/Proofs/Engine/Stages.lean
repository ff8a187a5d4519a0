import PlanAssistant.Proofs.Engine.Endings

/-!
The stages of a turn.  `Reaches` tells how a turn comes to a stage, and what it looks like when the
stage begins: the session is the one published last, in the status of the stage, and nothing was
written or said to the user so far.  What a stage asks of the model leaves one span of events, and
every event of a turn that is not the engine's own lies in the span of a stage that was reached.
-/
namespace PlanAssistant

/-- The status a session has while a stage is asked. -/
def Stage.status : Stage → Status
  | orchestrator => .orchestrating
  | planner => .planning
  | solver => .solving

namespace Event

variable {κ : Type}

/-- Whether an event is the engine's own, and none of a query. -/
def isOwn : Event κ → Bool
  | published _ => true
  | answered _ _ => true
  | reasoned _ _ => true
  | _ => false

def shown? : Event κ → Option Session
  | published update => some update.session
  | _ => none

def begun? : Event κ → Option Stage
  | began stage _ => some stage
  | _ => none

/-- The session published last. -/
def lastShown? (events : List (Event κ)) : Option Session := (events.filterMap shown?).getLast?

/-- The stage begun last. -/
def lastBegun? (events : List (Event κ)) : Option Stage := (events.filterMap begun?).getLast?

theorem lastShown?_concat (events : List (Event κ)) (update : Update) :
    lastShown? (events ++ [.published update]) = some update.session := by
  simp [lastShown?, shown?]

/-- Calls publish nothing. -/
theorem lastShown?_asking (events : List (Event κ)) (stage : Stage) (budget : Int)
    (tried : List (Attempt κ)) :
    lastShown? (events ++ .began stage budget :: tried.map .attempted) = lastShown? events := by
  have ht : (tried.map attempted).filterMap shown? = [] := by
    simp [List.filterMap_eq_nil_iff, shown?]
  have hb : shown? (began stage budget : Event κ) = none := rfl
  rw [lastShown?, List.filterMap_append, List.filterMap_cons_none hb, ht, List.append_nil, lastShown?]

/-- A stage stays the last one while calls are made. -/
theorem lastBegun?_asking (events : List (Event κ)) (stage : Stage) (budget : Int)
    (tried : List (Attempt κ)) :
    lastBegun? (events ++ .began stage budget :: tried.map .attempted) = some stage := by
  have ht : (tried.map attempted).filterMap begun? = [] := by
    simp [List.filterMap_eq_nil_iff, begun?]
  have hb : begun? (began stage budget : Event κ) = some stage := rfl
  rw [lastBegun?, List.filterMap_append, List.filterMap_cons_some hb, ht, List.getLast?_concat]

end Event

/-- In between no file was written, and nothing said to the user. -/
structure Turn.Discreet {ρ κ : Type} (earlier later : Turn ρ κ) : Prop where
  files : later.files = earlier.files
  chat : later.chat = earlier.chat
  lastResponse : later.lastResponse = earlier.lastResponse

namespace Memory

variable {ρ : Type} {births : Births} {memory : Memory ρ} {text : String} {s t : Session}

/-- What an engine remembers when a submission comes in. -/
def found (memory : Memory ρ) (submission : Submission ρ) : Memory ρ :=
  { memory with files := submission.files, replies := submission.replies }

/-- An input belongs to one session. -/
theorem Opens.unique (hs : memory.Opens births text s) (ht : memory.Opens births text t) : s = t := by
  cases hs with
  | resumed held takes =>
    cases ht with
    | resumed held' => rw [Option.some.inj (held.symm.trans held')]
    | started left =>
      rw [left _ held] at takes
      contradiction
  | started left =>
    cases ht with
    | resumed held takes =>
      rw [left _ held] at takes
      contradiction
    | started => rfl

end Memory

namespace Engine

variable [Interpreter] {ρ κ : Type}

section Stages

variable (engine : Engine ρ κ)

/-- A turn comes to a stage; the other turn is the one as it is when the stage begins. -/
inductive Reaches (turn : Turn ρ κ) : Stage → Turn ρ κ → Prop
  | orchestrator : Reaches turn .orchestrator turn
  | planner {output : StageOutput} {decision : Decision}
      (asked : (engine.asked .orchestrator turn).outcome = .ok output)
      (parsed : Decision.parse output.text = .ok decision)
      (decided : decision.question? = none) :
    Reaches turn .planner (engine.atPlanner output turn)
  | solver {output plan : StageOutput} {decision : Decision}
      (asked : (engine.asked .orchestrator turn).outcome = .ok output)
      (parsed : Decision.parse output.text = .ok decision)
      (decided : decision.question? = none)
      (planned : (engine.asked .planner (engine.atPlanner output turn)).outcome = .ok plan) :
    Reaches turn .solver (engine.atSolver plan (engine.atPlanner output turn))

/-- The turn on a submission comes to a stage. -/
def Starts (births : Births) (memory : Memory ρ) (submission : Submission ρ) (stage : Stage)
    (before : Turn ρ κ) : Prop :=
  ∃ s, (memory.found submission).Opens births (Text.strip submission.input.text) s ∧
    engine.Reaches (opening (memory.found submission) submission.input s) stage before

/-- The events of what a stage asks of the model, up to its answer. -/
def span (stage : Stage) (turn : Turn ρ κ) : List (Event κ) :=
  .began stage (engine.settings.stepBudget stage.floor) ::
    ((engine.asked stage turn).attempts.map .attempted ++
      (engine.asked stage turn).reports.map (.streamed stage))

theorem events_waited (stage : Stage) (turn : Turn ρ κ) :
    (engine.waited stage turn).events = turn.events ++ engine.span stage turn := by
  simp [waited, Turn.note, span]

/-- A call lies in the span of a stage after the beginning of the stage and the calls before it. -/
theorem attempted_span {stage : Stage} {turn : Turn ρ κ} {earlier later : List (Event κ)}
    {attempt : Attempt κ} (h : engine.span stage turn = earlier ++ .attempted attempt :: later) :
    attempt ∈ (engine.asked stage turn).attempts ∧ ∃ budget tried,
      earlier = .began stage budget :: List.map .attempted tried := by
  cases earlier with
  | nil => simp [span] at h
  | cons first earlier =>
    simp only [span, List.cons_append, List.cons.injEq] at h
    obtain ⟨rfl, h⟩ := h
    have hr : ∀ rest : List (Event κ), .attempted attempt ∈ rest →
        rest ≠ (engine.asked stage turn).reports.map (.streamed stage) := by
      rintro rest hm rfl
      simp at hm
    rcases List.append_eq_append_iff.mp h with ⟨more, rfl, he⟩ | ⟨calls, he, hl⟩
    · exact absurd he.symm (hr _ (by simp))
    · cases calls with
      | nil => exact absurd hl (hr _ (by simp))
      | cons call calls =>
        obtain ⟨rfl, -⟩ := List.cons.inj hl
        obtain ⟨tried, left, ht, rfl, hleft⟩ := List.map_eq_append_iff.mp he
        obtain ⟨a, left, rfl, ha, -⟩ := List.map_eq_cons_iff.mp hleft
        obtain rfl := Event.attempted.inj ha
        exact ⟨by simp [ht], _, tried, rfl⟩

end Stages

/-! ### What a turn looks like when a stage begins -/

section Parts

variable {engine : Engine ρ κ} {turn before : Turn ρ κ} {stage : Stage} {P : Turn ρ κ → Prop}

/-- What publishing keeps is kept while the steps of a plan run. -/
theorem tooled_induct (hpublish : ∀ change t, P t → P (t.publishWith change)) {t : Turn ρ κ} (h : P t) :
    P (engine.tooled t) := by
  have hfold : ∀ (reports : List (List StepRecord)) (t : Turn ρ κ), P t →
      P (reports.foldl Turn.publishRecords t) := by
    intro reports
    induction reports with
    | nil => exact fun _ h => h
    | cons records reports ih => exact fun t h => ih _ (hpublish _ t h)
  unfold tooled
  dsimp only
  exact hpublish _ _ (hfold _ _ (hpublish _ _ h))

/-- What publishing keeps, and the output of a stage that was reached, holds when a stage begins. -/
theorem Reaches.induct (hr : engine.Reaches turn stage before) (h : P turn)
    (hpublish : ∀ change t, P t → P (t.publishWith change))
    (hserved : ∀ stage output t, engine.Reaches turn stage t → P t → P (engine.served stage output t)) :
    P before := by
  have hplanner : ∀ output, P (engine.atPlanner output turn) := fun output =>
    hpublish _ _ (hserved .orchestrator output turn .orchestrator h)
  cases hr with
  | orchestrator => exact h
  | planner => exact hplanner _
  | @solver output plan _ asked parsed decided =>
    have hplanned : P (engine.planned plan (engine.atPlanner output turn)) :=
      hpublish _ _ (hserved .planner plan _ (.planner asked parsed decided) (hplanner output))
    exact hpublish _ _ (tooled_induct hpublish hplanned)

/-- What publishing and the query of every stage that was reached keep, and what does not depend on the
session, the files and what is said to the user, holds at the end of any course. -/
theorem Course.induct {ended : Except Stop (Outcome × String)} {last : Turn ρ κ}
    (hc : Course engine turn ended last) (h : P turn)
    (hpublish : ∀ change t, P t → P (t.publishWith change))
    (hwaited : ∀ stage t, engine.Reaches turn stage t → P t → P (engine.waited stage t))
    (hserved : ∀ stage output t, engine.Reaches turn stage t → P t → P (engine.served stage output t))
    (hother : ∀ t session files chat lastResponse, P t →
      P { t with session, files, chat, lastResponse }) :
    P last := by
  have hreached : ∀ stage before, engine.Reaches turn stage before → P before :=
    fun _ _ hr => hr.induct h hpublish hserved
  have hsolved : ∀ before, engine.Reaches turn .solver before → ∀ summary,
      P (engine.solved summary before) := fun before hr summary =>
    hother _ _ _ _ _ (hserved _ summary _ hr (hreached _ _ hr))
  cases hc with
  | undecided => exact hwaited _ _ .orchestrator h
  | unreadable => exact hserved _ _ _ .orchestrator h
  | questioned => exact hother _ _ _ _ _ (hpublish _ _ (hserved _ _ _ .orchestrator h))
  | unplanned asked parsed decided =>
    have hr := Reaches.planner asked parsed decided
    exact hwaited _ _ hr (hreached _ _ hr)
  | unsolved asked parsed decided planned =>
    have hr := Reaches.solver asked parsed decided planned
    exact hwaited _ _ hr (hreached _ _ hr)
  | @unkept _ _ summary _ solved asked parsed decided planned _ reached =>
    have hs : P solved := by
      rw [reached]
      exact hsolved _ (.solver asked parsed decided planned) summary
    exact hother _ _ _ _ _ hs
  | @finished _ _ summary _ solved files planPath _ asked parsed decided planned _ reached =>
    have hs : P solved := by
      rw [reached]
      exact hsolved _ (.solver asked parsed decided planned) summary
    have hk : P (stored files planPath solved) := hother _ _ _ _ _ hs
    exact hother _ _ _ _ _ (hpublish ({ · with status := .completed }) _ hk)

end Parts

namespace Reaches

variable {engine : Engine ρ κ} {turn before : Turn ρ κ} {stage : Stage}

/-- Only the work on the plan has changed the session. -/
theorem session_eq (h : engine.Reaches turn stage before)
    (hs : turn.session.status = .orchestrating) :
    ∃ plan records, before.session = { turn.session with status := stage.status, plan, records } := by
  cases h with
  | orchestrator => exact ⟨turn.session.plan, turn.session.records, by rw [Stage.status, ← hs]⟩
  | @planner output => exact ⟨turn.session.plan, turn.session.records, engine.session_atPlanner output turn⟩
  | @solver output plan =>
    refine ⟨some plan.text, (Tools.runPlan engine.workspace
      (engine.atPlanner output turn).files plan.text).records, ?_⟩
    rw [session_atSolver, session_atPlanner]
    rfl

/-- The session of the stage was published last. -/
theorem lastShown? (h : engine.Reaches turn stage before)
    (hs : Event.lastShown? turn.events = some turn.session) :
    Event.lastShown? before.events = some before.session := by
  cases h with
  | orchestrator => exact hs
  | planner | solver => exact Event.lastShown?_concat _ _

theorem shown (h : engine.Reaches turn stage before) (hs : turn.Shown) : before.Shown := by
  cases h with
  | orchestrator => exact hs
  | planner => exact shown_atPlanner _ _
  | solver => exact shown_atSolver _ _

theorem discreet (h : engine.Reaches turn stage before) : turn.Discreet before :=
  h.induct ⟨rfl, rfl, rfl⟩ (fun _ _ ht => ⟨ht.files, ht.chat, ht.lastResponse⟩)
    fun _ _ _ _ ht => ⟨ht.files, ht.chat, ht.lastResponse⟩

end Reaches

/-! ### Where the events of a turn lie -/

/-- An event of a turn has its place: it is the engine's own, or it lies in the span of a stage that
was reached, right after what came before. -/
inductive Placed (engine : Engine ρ κ) (turn : Turn ρ κ) (earlier : List (Event κ)) : Event κ → Prop
  | own {event : Event κ} (own : event.isOwn = true) : Placed engine turn earlier event
  | asking {stage : Stage} {before : Turn ρ κ} {event : Event κ} {done left : List (Event κ)}
      (reached : engine.Reaches turn stage before) (before_eq : earlier = before.events ++ done)
      (span_eq : engine.span stage before = done ++ event :: left) : Placed engine turn earlier event

/-- All events have their places. -/
def AllPlaced (engine : Engine ρ κ) (turn : Turn ρ κ) (events : List (Event κ)) : Prop :=
  ∀ earlier event later, events = earlier ++ event :: later → Placed engine turn earlier event

namespace AllPlaced

variable {engine : Engine ρ κ} {turn before : Turn ρ κ} {stage : Stage} {events more : List (Event κ)}

theorem append (h : engine.AllPlaced turn events)
    (hm : ∀ earlier event later, more = earlier ++ event :: later →
      Placed engine turn (events ++ earlier) event) : engine.AllPlaced turn (events ++ more) := by
  intro earlier event later he
  rcases List.append_eq_append_iff.mp he with ⟨done, rfl, hd⟩ | ⟨rest, hr, hl⟩
  · exact hm done event later hd
  · cases rest with
    | nil =>
      have hp := hm [] event later hl.symm
      rw [hr, List.append_assoc] at hp
      simpa using hp
    | cons first rest =>
      obtain ⟨rfl, -⟩ := List.cons.inj hl
      exact h earlier event rest hr

theorem append_own (h : engine.AllPlaced turn events) (hm : ∀ event ∈ more, event.isOwn = true) :
    engine.AllPlaced turn (events ++ more) :=
  h.append fun _ event _ he => .own (hm event (by simp [he]))

theorem publishWith (h : engine.AllPlaced turn before.events) (change : Session → Session) :
    engine.AllPlaced turn (before.publishWith change).events :=
  h.append_own (by simp [Event.isOwn])

theorem waited (h : engine.AllPlaced turn before.events) (hr : engine.Reaches turn stage before) :
    engine.AllPlaced turn (engine.waited stage before).events := by
  rw [events_waited]
  exact h.append fun _ _ _ he => .asking hr rfl he

theorem served (h : engine.AllPlaced turn before.events) (hr : engine.Reaches turn stage before)
    (output : StageOutput) : engine.AllPlaced turn (engine.served stage output before).events := by
  refine (h.waited hr).append_own fun event hm => ?_
  split at hm <;> simp at hm <;> rcases hm with rfl | rfl <;> rfl

/-- Whatever course a turn takes, its events have their places. -/
theorem of_course (h : engine.AllPlaced turn turn.events) {ended : Except Stop (Outcome × String)}
    {last : Turn ρ κ} (hc : Course engine turn ended last) : engine.AllPlaced turn last.events :=
  hc.induct (P := fun t => engine.AllPlaced turn t.events) h (fun change _ ht => ht.publishWith change)
    (fun _ _ hr ht => ht.waited hr) (fun _ output _ hr ht => ht.served hr output)
    fun _ _ _ _ _ ht => ht

end AllPlaced

/-! ### What the result of a turn tells -/

omit [Interpreter] in
theorem ended_of_question {last : Turn ρ κ} {ended : Except Stop (Outcome × String)}
    {result : TurnResult} (h : Engine.result last ended = .ok result)
    (hq : result.outcome = .clarification) : ∃ response, ended = .ok (.clarification, response) := by
  match ended, h with
  | .ok (outcome, response), h =>
    obtain rfl := Except.ok.inj h
    obtain rfl : outcome = .clarification := hq
    exact ⟨response, rfl⟩
  | .error .cancelled, h | .error .failed, h =>
    obtain rfl := Except.ok.inj h
    contradiction

omit [Interpreter] in
theorem result_sessionId {last : Turn ρ κ} {ended : Except Stop (Outcome × String)} {r : TurnResult}
    (h : result last ended = .ok r) : r.sessionId = last.session.id := by
  cases ended with
  | ok pair =>
    obtain rfl := Except.ok.inj h
    rfl
  | error stop =>
    cases stop with
    | cancelled | failed =>
      obtain rfl := Except.ok.inj h
      rfl
    | escaped escape => nomatch h

/-- A turn on a submission takes a course that ends it. -/
theorem take_course (engine : Engine ρ κ) {births : Births} {memory : Memory ρ}
    (hc : ∀ s, memory.session = some s → s.Consistent) (submission : Submission ρ) :
    ∃ s ended turn, (memory.found submission).Opens births (Text.strip submission.input.text) s ∧
      Course engine (opening (memory.found submission) submission.input s) ended turn ∧
      engine.take births memory submission =
        ⟨result turn ended, closeTurn (bornAfter memory) turn, turn.events⟩ :=
  have hf : ∀ s, (memory.found submission).session = some s → s.Consistent := hc
  submit_course engine births hf submission.input

section Starting

variable (engine : Engine ρ κ) {births : Births} {memory : Memory ρ} {submission : Submission ρ}
  {earlier later : List (Event κ)}

/-- An event of a turn that is not the engine's own lies in the span of a stage that the turn came to. -/
theorem starts_of_event (hc : ∀ s, memory.session = some s → s.Consistent) {event : Event κ}
    (hown : event.isOwn = false)
    (h : (engine.take births memory submission).events = earlier ++ event :: later) :
    ∃ stage before done left, engine.Starts births memory submission stage before ∧
      earlier = before.events ++ done ∧ engine.span stage before = done ++ event :: left := by
  obtain ⟨s, ended, turn, ho, hcourse, he⟩ := engine.take_course hc submission
  have hstart : engine.AllPlaced (opening (memory.found submission) submission.input s)
      ([] ++ [.published (Update.after memory.history s)]) :=
    AllPlaced.append_own (fun _ _ _ h => by simp at h) (by simp [Event.isOwn])
  rw [he] at h
  cases AllPlaced.of_course hstart hcourse earlier event later h with
  | own own =>
    rw [own] at hown
    contradiction
  | @asking stage before _ done left reached before_eq span_eq =>
    exact ⟨stage, before, done, left, ⟨s, ho, reached⟩, before_eq, span_eq⟩

/-- Every call of a turn was made in the span of a stage that the turn came to. -/
theorem starts_of_attempted (hc : ∀ s, memory.session = some s → s.Consistent) {attempt : Attempt κ}
    (h : (engine.take births memory submission).events = earlier ++ .attempted attempt :: later) :
    ∃ stage before budget tried, engine.Starts births memory submission stage before ∧
      attempt ∈ (engine.asked stage before).attempts ∧
      earlier = before.events ++ .began stage budget :: List.map .attempted tried := by
  obtain ⟨stage, before, done, left, hs, rfl, hspan⟩ := engine.starts_of_event hc rfl h
  obtain ⟨hm, budget, tried, rfl⟩ := engine.attempted_span hspan
  exact ⟨stage, before, budget, tried, hs, hm, rfl⟩

end Starting
end Engine
end PlanAssistant
