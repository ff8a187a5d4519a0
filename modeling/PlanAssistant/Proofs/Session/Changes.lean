import PlanAssistant.Session.Transition

/-!
What the changes of a session come to.  A consistent session refuses no input, and every change leaves
a state that follows the one before: the status stays or takes one move of the table, and the task,
the answers and the talk only grow.
-/
namespace PlanAssistant

/-! ### Steps that may stop -/

section Run

variable {ε σ α β : Type}

/-- A step and then another: the second is run only where the first did not stop. -/
theorem run_bind (x : ExceptT ε (StateM σ) α) (f : α → ExceptT ε (StateM σ) β) (s : σ) :
    (x >>= f).run.run s =
      match x.run.run s with
      | (.ok a, next) => (f a).run.run next
      | (.error e, next) => (.error e, next) := by
  rw [ExceptT.run_bind, StateT.run_bind]
  change (match x.run.run s with | (a, next) => _) = _
  cases h : x.run.run s with
  | mk ended next => cases ended <;> rfl

theorem run_pure (a : α) (s : σ) : (pure a : ExceptT ε (StateM σ) α).run.run s = (.ok a, s) := rfl

theorem run_throw (e : ε) (s : σ) :
    (throw e : ExceptT ε (StateM σ) α).run.run s = (.error e, s) := rfl

theorem run_get (s : σ) : (get : ExceptT ε (StateM σ) σ).run.run s = (.ok s, s) := rfl

theorem run_set (next s : σ) : (set next : ExceptT ε (StateM σ) PUnit).run.run s = (.ok ⟨⟩, next) := rfl

theorem run_modify (f : σ → σ) (s : σ) :
    (modify f : ExceptT ε (StateM σ) PUnit).run.run s = (.ok ⟨⟩, f s) := rfl

end Run

namespace Session

/-! ### Questions and inputs -/

/-- The session paused on a question. -/
def paused (question : String) (s : Session) : Session :=
  { s with
    status := .awaitingClarification
    pending := some question
    transcript := s.transcript ++ [⟨.assistant, question⟩] }

theorem perform_ask {s : Session} (h : s.status = .orchestrating) (question : String) :
    s.perform (ask question) = (.ok (), s.paused question) := by
  have hm := perform_moveTo s .awaitingClarification
  rw [h, if_pos (by decide)] at hm
  unfold perform ask at *
  rw [run_bind, hm]
  rfl

/-- The session once an input is taken in: as the answer to the pending question, or else as a
refinement of the task. -/
def taken (input : String) (s : Session) : Session :=
  match s.pending with
  | some question =>
    hear input
      { s with
        status := .orchestrating
        clarifications := s.clarifications ++ [⟨question, input⟩]
        pending := none }
  | none => hear input { s with taskHistory := s.taskHistory ++ [input] }

theorem taken_of_none {s : Session} (hp : s.pending = none) (input : String) :
    s.taken input = hear input { s with taskHistory := s.taskHistory ++ [input] } := by
  unfold taken
  split
  · next h => rw [hp] at h; contradiction
  · rfl

theorem taken_of_some {s : Session} {question : String} (hp : s.pending = some question)
    (input : String) :
    s.taken input =
      hear input
        { s with
          status := .orchestrating
          clarifications := s.clarifications ++ [⟨question, input⟩]
          pending := none } := by
  unfold taken
  rw [hp]

theorem perform_answer {s : Session} {question : String} (h : s.status = .awaitingClarification)
    (hp : s.pending = some question) (input : String) :
    s.perform (answer input) =
      (.ok (), { s with
        status := .orchestrating
        clarifications := s.clarifications ++ [⟨question, input⟩]
        pending := none }) := by
  have hm := perform_moveTo s .orchestrating
  rw [h, if_pos (by decide)] at hm
  unfold perform answer at *
  rw [run_bind, run_get]
  dsimp only
  rw [hp]
  dsimp only
  rw [run_bind, hm]
  rfl

/-- A question is pending only while an answer is awaited. -/
theorem Consistent.awaiting {s : Session} (hc : s.Consistent) {question : String}
    (hp : s.pending = some question) : s.status = .awaitingClarification := hc.mpr (by rw [hp]; rfl)

/-- An input is refused only where a question is pending and no answer is awaited. -/
theorem perform_takeIn {s : Session} (ha : s.pending.isSome = true → s.status = .awaitingClarification)
    (input : String) : s.perform (takeIn input) = (.ok (), s.taken input) := by
  unfold perform takeIn
  rw [run_bind, run_get]
  dsimp only
  cases hp : s.pending with
  | none => rw [taken_of_none hp]; rfl
  | some question =>
    have hs := ha (by rw [hp]; rfl)
    have ha := perform_answer hs hp input
    unfold perform at ha
    dsimp only
    rw [run_bind, ha, taken_of_some hp]
    rfl

/-- What a session keeps from its beginning on. -/
def birth (s : Session) : String × Instant := (s.id, s.createdAt)

/-! ### Later states -/

/-- A later state of the same session: at most one move on, and nothing lost that was said. -/
structure Follows (earlier later : Session) : Prop where
  status : later.status = earlier.status ∨ later.status ∈ earlier.status.next
  id : later.id = earlier.id
  createdAt : later.createdAt = earlier.createdAt
  task : later.task = earlier.task
  taskHistory : earlier.taskHistory <+: later.taskHistory
  clarifications : earlier.clarifications <+: later.clarifications
  transcript : earlier.transcript <+: later.transcript

theorem Follows.birth {earlier later : Session} (h : earlier.Follows later) :
    later.birth = earlier.birth := Prod.ext h.id h.createdAt

/-- A session begun where another one was left that takes no input any more. -/
structure Succeeds (earlier later : Session) : Prop where
  status : later.status = .orchestrating
  taskHistory : later.taskHistory.length = 1
  clarifications : later.clarifications = []
  notOrchestrating : earlier.status ≠ .orchestrating
  notAwaiting : earlier.status ≠ .awaitingClarification

/-- Work on a session adds to what it holds, and to what was said nothing. -/
theorem follows_work (s : Session) {status : Status} (h : status = s.status ∨ status ∈ s.status.next)
    (plan : Option String) (records : List StepRecord) (summary planPath : Option String) :
    s.Follows { s with status, plan, records, summary, planPath } :=
  ⟨h, rfl, rfl, rfl, List.prefix_rfl, List.prefix_rfl, List.prefix_rfl⟩

theorem follows_paused {s : Session} (h : s.status = .orchestrating) (question : String) :
    s.Follows (s.paused question) := by
  refine ⟨.inr ?_, rfl, rfl, rfl, List.prefix_rfl, List.prefix_rfl, List.prefix_append _ _⟩
  change .awaitingClarification ∈ s.status.next
  rw [h]
  decide

theorem follows_taken {s : Session} (hc : s.Consistent) (input : String) :
    s.Follows (s.taken input) := by
  cases hp : s.pending with
  | none =>
    rw [taken_of_none hp]
    exact ⟨.inl rfl, rfl, rfl, rfl, List.prefix_append _ _, List.prefix_rfl, List.prefix_append _ _⟩
  | some question =>
    have hs := hc.awaiting hp
    rw [taken_of_some hp]
    refine ⟨.inr ?_, rfl, rfl, rfl, List.prefix_rfl, List.prefix_append _ _, List.prefix_append _ _⟩
    change .orchestrating ∈ s.status.next
    rw [hs]
    decide

/-! ### Consistent sessions -/

theorem consistent_paused (question : String) (s : Session) : (s.paused question).Consistent :=
  ⟨fun _ => rfl, fun _ => rfl⟩

/-- Away from questions a session stays consistent. -/
theorem consistent_work {s : Session} (hp : s.pending = none) {status : Status}
    (h : status ≠ .awaitingClarification) (plan : Option String) (records : List StepRecord)
    (summary planPath : Option String) :
    Consistent { s with status, plan, records, summary, planPath } := by
  refine ⟨fun ha => absurd ha h, fun hs => ?_⟩
  simp only [hp, Option.isSome_none, Bool.false_eq_true] at hs

/-- Whatever was pending, an input leaves an orchestrating session without a question. -/
theorem taken_orchestrating {s : Session} (hc : s.Consistent) (ht : s.status.takesInput = true)
    (input : String) : (s.taken input).status = .orchestrating ∧ (s.taken input).pending = none := by
  cases hp : s.pending with
  | some question =>
    rw [taken_of_some hp]
    exact ⟨rfl, rfl⟩
  | none =>
    rw [taken_of_none hp]
    refine ⟨?_, hp⟩
    change s.status = .orchestrating
    cases hs : s.status with
    | orchestrating => rfl
    | awaitingClarification =>
      have hq := hc.mp hs
      rw [hp] at hq
      contradiction
    | planning | executingTools | solving | completed => rw [hs] at ht; contradiction

end Session
end PlanAssistant
