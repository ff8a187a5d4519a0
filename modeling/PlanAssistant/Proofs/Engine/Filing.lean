import PlanAssistant.Proofs.Engine.Accounts

/-!
What a session takes in while it puts questions.  The first input of an engine starts its first session,
as the task, and as long as every turn ends with a question, each input after it is filed in the same
session, as an answer.
-/
namespace PlanAssistant

/-- The first of some inputs is the task of the session, and all others are answers to its questions. -/
structure Session.Filed (inputs : List String) (s : Session) : Prop where
  task : s.taskHistory = inputs.take 1
  answers : s.clarifications.map (·.answer) = inputs.drop 1

namespace Memory

variable {ρ : Type}

/-- An engine that has taken some inputs waits for the next one: for its first, or for the answer to a
question of its first session, in which the others are filed. -/
inductive Waits (inputs : List String) (memory : Memory ρ) : Prop
  | fresh (none_taken : inputs = []) (unheld : memory.session = none) (unborn : memory.born = 0) :
    Waits inputs memory
  | asking {s : Session} (taken : inputs ≠ []) (held : memory.session = some s)
      (awaits : s.status = .awaitingClarification) (filed : s.Filed inputs) (born : memory.born = 1) :
    Waits inputs memory

variable {births : Births} {memory : Memory ρ} {inputs : List String} {text : String} {s : Session}

theorem Waits.bornAfter (h : memory.Waits inputs) : Engine.bornAfter memory = 1 := by
  unfold Engine.bornAfter
  cases h with
  | fresh none_taken unheld unborn =>
    rw [unheld, unborn]
    rfl
  | @asking s taken held awaits filed born =>
    have hg : Session.goingOn? memory.session = some s := by
      rw [held, Session.goingOn?, Option.filter_some, awaits]
      rfl
    rw [hg, born]
    rfl

/-- The next input is filed after the others. -/
theorem Waits.filed (h : memory.Waits inputs) (hc : ∀ s, memory.session = some s → s.Consistent)
    (ho : memory.Opens births text s) : s.Filed (inputs ++ [text]) := by
  cases h with
  | fresh none_taken unheld unborn =>
    subst none_taken
    cases ho with
    | resumed held takes =>
      rw [unheld] at held
      contradiction
    | started left => exact ⟨rfl, rfl⟩
  | @asking t taken held awaits filed born =>
    have hl : 1 ≤ inputs.length := List.length_pos_iff.mpr taken
    cases ho with
    | resumed held' takes =>
      obtain rfl := Option.some.inj (held.symm.trans held')
      obtain ⟨question, hq⟩ := Option.isSome_iff_exists.mp ((hc _ held).mp awaits)
      rw [Session.taken_of_some hq]
      refine ⟨?_, ?_⟩
      · rw [List.take_append_of_le_length hl]
        exact filed.task
      · rw [List.drop_append_of_le_length hl, ← filed.answers]
        exact List.map_append
    | started left =>
      have hleft := left t held
      rw [awaits] at hleft
      contradiction

end Memory

namespace Engine

variable [Interpreter] {ρ κ : Type} (engine : Engine ρ κ) {births : Births} {memory : Memory ρ}
  {inputs : List String}

/-- Questions and the work on a plan file nothing. -/
theorem Trail.filed {engine : Engine ρ κ} {files : Files.Node} {s last : Session} {plan? : Option String}
    {sessions : List Session} (h : engine.Trail files s plan? sessions last) (hs : s.Filed inputs) :
    last.Filed inputs :=
  (h.forall (P := Session.Filed inputs) hs (fun _ => ⟨hs.task, hs.answers⟩)
    fun _ _ _ _ _ => ⟨hs.task, hs.answers⟩).1

/-- The result of a turn names the session that the turn leaves, which awaits an answer after a
question. -/
theorem session_of_result (hc : ∀ s, memory.session = some s → s.Consistent)
    {submission : Submission ρ} {r : TurnResult} (h : (engine.take births memory submission).result = .ok r) :
    ∃ s, (engine.take births memory submission).memory.session = some s ∧ r.sessionId = s.id ∧
      (r.outcome = .clarification → s.status = .awaitingClarification) := by
  obtain ⟨s, ended, turn, -, hcourse, he⟩ := engine.take_course hc submission
  rw [he] at h ⊢
  refine ⟨turn.session, rfl, result_sessionId h, fun hq => ?_⟩
  obtain ⟨response, rfl⟩ := ended_of_question h hq
  cases hcourse with
  | questioned => rfl

/-- However the turn on the next input ends, the input is filed in the first session. -/
theorem filed_take (hm : memory.Lawful births) (hw : memory.Waits inputs) (submission : Submission ρ) :
    ∃ s, (engine.take births memory submission).memory.session = some s ∧
      s.Filed (inputs ++ [Text.strip submission.input.text]) ∧ s.id = (births 1).1 ∧
      (engine.take births memory submission).memory.born = 1 := by
  obtain ⟨s, sessions, last, ho, ht, hlast, hborn, -⟩ :=
    engine.take_trail births hm.consistent_held submission
  rw [hw.bornAfter] at hborn
  refine ⟨last, hlast, ht.filed (hw.filed hm.consistent_held ho), ?_, hborn⟩
  have hbirth := ((engine.lawful_take births hm submission).held last hlast).2
  rw [hborn] at hbirth
  exact congrArg Prod.fst hbirth

/-- The result of the turn names the first session. -/
theorem sessionId_take (hm : memory.Lawful births) (hw : memory.Waits inputs) {submission : Submission ρ}
    {r : TurnResult} (h : (engine.take births memory submission).result = .ok r) :
    r.sessionId = (births 1).1 := by
  obtain ⟨s, hs, -, hid, -⟩ := engine.filed_take hm hw submission
  obtain ⟨t, ht, hnames, -⟩ := engine.session_of_result hm.consistent_held h
  obtain rfl := Option.some.inj (hs.symm.trans ht)
  exact hnames.trans hid

/-- After a question the engine waits for the answer. -/
theorem waits_take (hm : memory.Lawful births) (hw : memory.Waits inputs) {submission : Submission ρ}
    {r : TurnResult} (h : (engine.take births memory submission).result = .ok r)
    (hq : r.outcome = .clarification) :
    (engine.take births memory submission).memory.Waits
      (inputs ++ [Text.strip submission.input.text]) := by
  obtain ⟨s, hs, hfiled, -, hborn⟩ := engine.filed_take hm hw submission
  obtain ⟨t, ht, -, hawaits⟩ := engine.session_of_result hm.consistent_held h
  obtain rfl := Option.some.inj (hs.symm.trans ht)
  exact .asking (by simp) hs (hawaits hq) hfiled hborn

end Engine
end PlanAssistant
