import PlanAssistant.Proofs.Console.TurnProgress

/-!
The progress of a whole dialogue.  A dialogue that goes on is settled again before its next turn, so at its
end, however it comes, all that the engine has published was printed once: a label for every run of
snapshots with the same id and status, and under one of them the steps of the plan.  And it was printed in
time: whenever the result of a turn was shown, all lines for what the turn published stood before it.
-/
namespace PlanAssistant.Dialogue

open Printer PlanAssistant.Action

variable [Interpreter] {ρ κ : Type}

section Turns

variable (engine : Engine ρ κ) (births : Births)

/-- The turns of a dialogue that is carried on: how it stands before each of them, and the input. -/
def turns (dialogue : Dialogue ρ) (text : String) (answers : List String) :
    List (Dialogue ρ × String) :=
  (dialogue, text) ::
    match dialogue.turn engine births text with
    | (_, .ends _) => []
    | (dialogue, .asks) =>
      match _h : answers.dropWhile (·.isEmpty) with
      | [] => []
      | answer :: rest => dialogue.turns answer rest
termination_by answers.length
decreasing_by
  have := (answers.dropWhile_sublist (·.isEmpty)).length_le
  rw [_h] at this
  simp only [List.length_cons] at this
  omega

section Steps

variable {engine births} {dialogue next : Dialogue ρ} {text : String} {answers : List String}

/-- A turn that does not put a question is the last one. -/
theorem carryOn_of_ends {ending : Ending}
    (h : dialogue.turn engine births text = (next, .ends ending)) (answers : List String) :
    dialogue.carryOn engine births text answers = (next, ending) ∧
      dialogue.turns engine births text answers = [(dialogue, text)] := by
  rw [carryOn, turns, h]
  exact ⟨rfl, rfl⟩

/-- Without an answer the dialogue is aborted. -/
theorem carryOn_of_unanswered (h : dialogue.turn engine births text = (next, .asks))
    (ha : answers.dropWhile (·.isEmpty) = []) :
    dialogue.carryOn engine births text answers = (next.abort, .aborted) ∧
      dialogue.turns engine births text answers = [(dialogue, text)] := by
  rw [carryOn, turns, h]
  dsimp only
  constructor <;> split
  · rfl
  · next he =>
    rw [ha] at he
    contradiction
  · rfl
  · next he =>
    rw [ha] at he
    contradiction

/-- An answer is the input of the next turn. -/
theorem carryOn_of_answered {answer : String} {rest : List String}
    (h : dialogue.turn engine births text = (next, .asks))
    (ha : answers.dropWhile (·.isEmpty) = answer :: rest) :
    dialogue.carryOn engine births text answers = next.carryOn engine births answer rest ∧
      dialogue.turns engine births text answers =
        (dialogue, text) :: next.turns engine births answer rest := by
  rw [carryOn, turns, h]
  dsimp only
  constructor <;> split
  · next he =>
    rw [ha] at he
    contradiction
  · next he =>
    obtain ⟨rfl, rfl⟩ := List.cons.inj (ha.symm.trans he)
    rfl
  · next he =>
    rw [ha] at he
    contradiction
  · next he =>
    obtain ⟨rfl, rfl⟩ := List.cons.inj (ha.symm.trans he)
    rfl

end Steps
end Turns

/-- All that was published shows on the terminal, once, and so do the steps of a plan. -/
structure ProgressShown (dialogue : Dialogue ρ) : Prop where
  lines : progressOf dialogue.terminal.actions = progressLines dialogue.published
  steps : StepsShown dialogue.published

/-- The lines for what a turn publishes were printed in time: of all that is shown in the end, they stand
before what is shown of the result, which adds none. -/
structure InTime (engine : Engine ρ κ) (births : Births) (dialogue : Dialogue ρ) (text : String)
    (shown : List Action) : Prop where
  printed : progressOf (dialogue.followed engine births text).actions =
    progressLines ((dialogue.report engine births text).memory.history.map (·.session))
  answered : (dialogue.followed engine births text).actions ++ dialogue.said engine births text <+: shown
  silent : progressOf (dialogue.said engine births text) = []

section Settled

variable {births : Births} {dialogue : Dialogue ρ}

/-- However a turn ends, its progress shows, and in time. -/
theorem Settled.shown_turn (h : dialogue.Settled births) (engine : Engine ρ κ) (text : String)
    {shown : List Action} (hs : (dialogue.turn engine births text).1.terminal.actions <+: shown) :
    ProgressShown (dialogue.turn engine births text).1 ∧ InTime engine births dialogue text shown := by
  obtain ⟨ha, hq⟩ := h.attends_followed engine text
  obtain ⟨-, -, hsteps⟩ := h.staged_report engine text
  have hprinted := ha.progressOf_actions hq
  have hsaid := dialogue.progressOf_said engine births text
  rw [h.actions_turn] at hs
  refine ⟨⟨?_, ?_⟩, hprinted, hs, hsaid⟩
  · unfold published
    rw [h.actions_turn, progressOf_append, hsaid, List.append_nil, memory_turn, hprinted]
  · unfold published
    rw [memory_turn]
    exact hsteps

/-- A turn takes nothing back of what was shown. -/
theorem Settled.prefix_turn (h : dialogue.Settled births) (engine : Engine ρ κ) (text : String) :
    dialogue.terminal.actions <+: (dialogue.turn engine births text).1.terminal.actions := by
  rw [h.actions_turn]
  refine (Terminal.prefix_followAll _ (dialogue.report engine births text).events).trans ?_
  exact ((Terminal.prefix_stopSpinner _).trans (Terminal.prefix_drain _)).trans (List.prefix_append _ _)

omit [Interpreter] in
/-- A dialogue that is aborted has nothing left to show. -/
theorem Settled.actions_abort (h : dialogue.Settled births) :
    dialogue.abort.terminal.actions = dialogue.terminal.actions := by
  unfold abort
  rw [Terminal.close_eq, h.attends.drain_eq h.drained]

/-- From a settled dialogue on, all progress shows, and in time. -/
theorem Settled.shown_carryOn (engine : Engine ρ κ) (text : String) (answers : List String)
    (h : dialogue.Settled births) :
    let last := (dialogue.carryOn engine births text answers).1
    last.ProgressShown ∧ dialogue.terminal.actions <+: last.terminal.actions ∧
      ∀ turn ∈ dialogue.turns engine births text answers,
        InTime engine births turn.1 turn.2 last.terminal.actions := by
  -- By induction on the turns; a turn that asks settles the dialogue again, and what later turns show
  -- comes after what is there.
  induction dialogue, text, answers using carryOn.induct engine births with
  | case1 dialogue text answers next ending ht =>
    obtain ⟨hc, hturns⟩ := carryOn_of_ends ht answers
    have hgrows := h.prefix_turn engine text
    obtain ⟨hshown, htime⟩ := h.shown_turn engine text List.prefix_rfl
    rw [ht] at hgrows hshown htime
    rw [hc, hturns]
    exact ⟨hshown, hgrows, List.forall_mem_singleton.mpr htime⟩
  | case2 dialogue text answers next ht ha =>
    obtain ⟨hc, hturns⟩ := carryOn_of_unanswered ht ha
    have hgrows := h.prefix_turn engine text
    have hnext := h.turn (congrArg Prod.snd ht)
    obtain ⟨hshown, htime⟩ := h.shown_turn engine text List.prefix_rfl
    rw [ht] at hgrows hshown htime hnext
    rw [hc, hturns]
    have habort := hnext.actions_abort
    rw [← habort] at hgrows htime
    exact ⟨⟨habort ▸ hshown.lines, hshown.steps⟩, hgrows, List.forall_mem_singleton.mpr htime⟩
  | case3 dialogue text answers next ht answer rest ha ih =>
    obtain ⟨hc, hturns⟩ := carryOn_of_answered ht ha
    have hgrows := h.prefix_turn engine text
    have hnext := h.turn (congrArg Prod.snd ht)
    rw [ht] at hgrows hnext
    obtain ⟨hshown, hmore, htimes⟩ := ih hnext
    rw [hc, hturns]
    refine ⟨hshown, hgrows.trans hmore, List.forall_mem_cons.mpr ⟨?_, htimes⟩⟩
    refine (h.shown_turn engine text ?_).2
    rw [ht]
    exact hmore

end Settled

/-- Whatever the model replies, whatever is in the workspace and whatever the user answers, a dialogue on
a fresh engine prints its progress once and in time. -/
theorem progress_carryOn (engine : Engine ρ κ) (births : Births) (files : Files.Node) (replies : ρ)
    (task : String) (answers : List String) :
    let start : Dialogue ρ := { memory := .fresh files replies }
    let last := (start.carryOn engine births task answers).1
    last.ProgressShown ∧ ∀ turn ∈ start.turns engine births task answers,
      InTime engine births turn.1 turn.2 last.terminal.actions := by
  intro start last
  obtain ⟨hshown, -, htimes⟩ := (settled_fresh births files replies).shown_carryOn engine task answers
  exact ⟨hshown, htimes⟩

end PlanAssistant.Dialogue
