import PlanAssistant.Proofs.Session.Changes

/-!
Refused changes.  Whatever state a session is in, consistent or not, a change of it is done as a whole or
refused as a whole: a refusal names the status of the session and the status that was aimed at, and leaves
the session as it was.  Changes are built from moves, and a move comes before everything that is written;
so it is enough to look at where the first move is refused.
-/
namespace PlanAssistant.Session

/-- What can be asked of a session; an input comes with the session that is begun where the one at hand
takes no input any more. -/
inductive Operation where
  | moveTo (target : Status)
  | ask (question : String)
  | answer (text : String)
  | accept (fresh : Session) (input : String)

namespace Operation

def apply (s : Session) : Operation → Except IllegalMove Unit × Session
  | moveTo target => s.perform (Session.moveTo target)
  | ask question => s.perform (Session.ask question)
  | answer text => s.perform (Session.answer text)
  | accept fresh input => Session.accept (some s) fresh input

/-- The status that an operation aims at. -/
def target : Operation → Status
  | moveTo target => target
  | ask _ => .awaitingClarification
  | answer _ => .orchestrating
  | accept .. => .orchestrating

/-- The states in which an operation is done: questions need an orchestrating session, answers a question
that is pending and awaited; an input is kept out by a pending question that nobody waits for. -/
def Allowed (s : Session) : Operation → Prop
  | moveTo target => target ∈ s.status.next
  | ask _ => s.status = .orchestrating
  | answer _ => s.status = .awaitingClarification ∧ s.pending.isSome = true
  | accept .. => s.status = .orchestrating → s.pending = none

/-- The session once an operation is done. -/
def result (s : Session) : Operation → Session
  | moveTo target => { s with status := target }
  | ask question => s.paused question
  | answer text =>
    { s with
      status := .orchestrating
      clarifications := s.clarifications ++ (s.pending.map (⟨·, text⟩)).toList
      pending := none }
  | accept fresh input => if s.status.takesInput then s.taken input else fresh.hear input

end Operation

/-! ### Where moves are refused -/

theorem canMoveTo_iff {source target : Status} :
    source.canMoveTo target = true ↔ target ∈ source.next := by
  rw [Status.canMoveTo, List.contains_iff_mem]

theorem canMoveTo_awaiting {status : Status} (h : status.canMoveTo .awaitingClarification = true) :
    status = .orchestrating := by
  revert h
  cases status <;> decide

theorem canMoveTo_orchestrating {status : Status} (h : status.canMoveTo .orchestrating = true) :
    status = .awaitingClarification := by
  revert h
  cases status <;> decide

variable {s : Session}

theorem perform_moveTo_of_refused {target : Status} (h : ¬ s.status.canMoveTo target = true) :
    s.perform (moveTo target) = (.error ⟨s.status, target⟩, s) := by rw [perform_moveTo, if_neg h]

/-- A change whose first part is refused is refused, and leaves what that part left. -/
theorem perform_bind_of_refused {first : SessionM Unit} {later : Unit → SessionM Unit}
    {move : IllegalMove} {left : Session} (h : s.perform first = (.error move, left)) :
    s.perform (first >>= later) = (.error move, left) := by
  unfold perform at h ⊢
  rw [run_bind, h]

theorem perform_ask_of_refused (h : s.status ≠ .orchestrating) (question : String) :
    s.perform (ask question) = (.error ⟨s.status, .awaitingClarification⟩, s) :=
  perform_bind_of_refused (perform_moveTo_of_refused (mt canMoveTo_awaiting h))

/-- Without a pending question there is nothing to answer; with one, the move has to be allowed. -/
theorem perform_answer_of_refused (h : ¬(s.status = .awaitingClarification ∧ s.pending.isSome = true))
    (text : String) : s.perform (answer text) = (.error ⟨s.status, .orchestrating⟩, s) := by
  unfold perform answer
  rw [run_bind, run_get]
  dsimp only
  cases hp : s.pending with
  | none => rfl
  | some question =>
    refine perform_bind_of_refused (perform_moveTo_of_refused fun hm => h ⟨?_, ?_⟩)
    · exact canMoveTo_orchestrating hm
    · rw [hp]; rfl

/-- An input is refused where it would be the answer and that is refused. -/
theorem perform_takeIn_of_refused (hs : s.status ≠ .awaitingClarification)
    (hp : s.pending.isSome = true) (input : String) :
    s.perform (takeIn input) = (.error ⟨s.status, .orchestrating⟩, s) := by
  obtain ⟨question, hp⟩ := Option.isSome_iff_exists.mp hp
  unfold perform takeIn
  rw [run_bind, run_get]
  dsimp only
  rw [hp]
  exact perform_bind_of_refused (perform_answer_of_refused (fun h => hs h.1) input)

/-! ### All or nothing -/

/-- Where an input comes to. -/
theorem accept_some (s fresh : Session) (input : String) :
    accept (some s) fresh input =
      if s.status.takesInput then s.perform (takeIn input) else (.ok (), fresh.hear input) := by
  unfold accept goingOn?
  rw [Option.filter_some]
  cases s.status.takesInput <;> rfl

theorem apply_of_allowed {op : Operation} (h : op.Allowed s) : op.apply s = (.ok (), op.result s) := by
  cases op with
  | moveTo target => exact (perform_moveTo s target).trans (if_pos (canMoveTo_iff.mpr h))
  | ask question => exact perform_ask h question
  | answer text =>
    obtain ⟨hs, hp⟩ := h
    obtain ⟨question, hp⟩ := Option.isSome_iff_exists.mp hp
    simpa [Operation.apply, Operation.result, hp] using perform_answer hs hp text
  | accept fresh input =>
    change accept (some s) fresh input = (.ok (), if s.status.takesInput then _ else _)
    rw [accept_some]
    cases ht : s.status.takesInput with
    | false => rfl
    | true =>
      refine perform_takeIn (fun hp => ?_) input
      cases hs : s.status with
      | orchestrating => rw [h hs] at hp; contradiction
      | awaitingClarification => rfl
      | planning | executingTools | solving | completed => rw [hs] at ht; contradiction

theorem apply_of_not_allowed {op : Operation} (h : ¬ op.Allowed s) :
    op.apply s = (.error ⟨s.status, op.target⟩, s) := by
  cases op with
  | moveTo target => exact perform_moveTo_of_refused (mt canMoveTo_iff.mp h)
  | ask question => exact perform_ask_of_refused h question
  | answer text => exact perform_answer_of_refused h text
  | accept fresh input =>
    obtain ⟨hs, hp⟩ := Classical.not_imp.mp h
    refine (accept_some s fresh input).trans ?_
    rw [if_pos (by rw [hs]; rfl)]
    exact perform_takeIn_of_refused (by rw [hs]; decide) (Option.isSome_iff_ne_none.mpr hp) input

/-- An operation is done where it is allowed, and everywhere else refused with the status of the session
and the one aimed at, with nothing of the session changed; consistent sessions refuse no input. -/
theorem apply_eq_or_refused (s : Session) (op : Operation) :
    (op.apply s = (.ok (), op.result s) ∧ op.Allowed s ∨
      op.apply s = (.error ⟨s.status, op.target⟩, s) ∧ ¬ op.Allowed s) ∧
    (s.Consistent → ∀ fresh input,
      (Operation.accept fresh input).apply s =
        (.ok (), (Operation.accept fresh input).result s)) := by
  constructor
  · by_cases h : op.Allowed s
    · exact .inl ⟨apply_of_allowed h, h⟩
    · exact .inr ⟨apply_of_not_allowed h, h⟩
  · intro hc fresh input
    refine apply_of_allowed fun hs => Option.not_isSome_iff_eq_none.mp fun hp => ?_
    rw [hc.mpr hp] at hs
    contradiction

/-- A session that was moved on with its question still pending refuses an input; the session as it was
paused takes it. -/
theorem apply_eq_or_refused_paused :
    let paused := (start "1" default "task").paused "which file?"
    let moved := { paused with status := .orchestrating }
    paused.Consistent ∧ ¬ (Operation.accept default "a.txt").Allowed moved ∧
      (Operation.accept default "a.txt").apply moved =
        (.error ⟨.orchestrating, .orchestrating⟩, moved) ∧
      (Operation.accept default "a.txt").apply paused = (.ok (), paused.taken "a.txt") := by
  intro paused moved
  have hc : paused.Consistent := consistent_paused _ _
  have hn : ¬ (Operation.accept default "a.txt").Allowed moved := fun h => nomatch h rfl
  refine ⟨hc, hn, ?_, ?_⟩
  · exact (((apply_eq_or_refused moved (.accept default "a.txt")).1.resolve_left fun h => hn h.2).1)
  · exact (apply_eq_or_refused paused (.ask "")).2 hc default "a.txt"

end PlanAssistant.Session
