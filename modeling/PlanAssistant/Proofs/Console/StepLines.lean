import PlanAssistant.Proofs.Console.Printing

/-!
The lines for the steps of a plan.  What a turn publishes is staged: the steps of a plan are run at most
once, with records that grow, and the solver starts with one record for each.  So the steps show between
two labels, a line for each in the order of the plan, marked as failed exactly when its record holds an
error; and where no steps are run there are labels only.
-/
namespace PlanAssistant

namespace Printer

/-- What the line for a record shows of a step: the step with its argument as it was run, marked as failed
exactly when the record holds an error. -/
structure Marks (step : Step) (record : StepRecord) : Prop where
  id : record.id = step.id
  tool : record.tool = step.tool
  line : stepLine record =
    .print ("  " ++ (if record.error.isSome then "[red]✗[/red]" else "[green]✓[/green]") ++ " " ++
      Markup.escape (step.id ++ " " ++ step.tool ++ "[" ++ record.argument ++ "]"))

/-- Lines that are labels, and none that says that the steps of a plan are run. -/
def Plain (lines : List Action) : Prop :=
  ∀ line ∈ lines, ∃ status : Status, status ≠ .executingTools ∧ line = statusLine status

/-- How the steps of a plan show in the lines for some snapshots.  Unless no steps are run, there is one
line for every step of the plan, in order, between two labels; all other lines are labels. -/
inductive StepsShown (sessions : List Session) : Prop
  | idle (idle : ∀ s ∈ sessions, s.status ≠ .executingTools) (plain : Plain (progressLines sessions))
  | worked {s : Session} {plan : String} {earlier later : List Action}
      (published : s ∈ sessions) (solving : s.status = .solving) (planned : s.plan = some plan)
      (marked : List.Forall₂ Marks (planSteps plan) s.records)
      (lines : progressLines sessions = earlier ++ statusLine .executingTools ::
        (s.records.map stepLine ++ statusLine .solving :: later))
      (plain : Plain (earlier ++ later))

theorem isExecuting_eq_false {s : Session} : s.isExecuting = false ↔ s.status ≠ .executingTools := by
  rw [Session.isExecuting, beq_eq_false_iff_ne]

/-- Where no steps are run, there are labels only. -/
theorem plain_progressLines {sessions : List Session} (h : ∀ s ∈ sessions, s.isExecuting = false) :
    Plain (progressLines sessions) := by
  intro line hl
  obtain ⟨run, hr, hl⟩ := List.mem_flatMap.mp hl
  unfold runLines at hl
  split at hl
  · contradiction
  · next s hs =>
    have hm : s ∈ sessions := by
      rw [← List.flatten_splitBy (fun s t => s.key == t.key) sessions]
      exact List.mem_flatten.mpr ⟨run, hr, List.mem_of_getLast? hs⟩
    rw [h s hm, if_neg Bool.false_ne_true, List.mem_singleton] at hl
    exact ⟨s.status, isExecuting_eq_false.mp (h s hm), hl⟩

/-- Snapshots of running steps are one run. -/
theorem progressLines_showing (s : Session) (passed : List (List StepRecord))
    (records : List StepRecord) :
    progressLines (Engine.showing s (passed ++ [records])) =
      statusLine .executingTools :: records.map stepLine := by
  have hs : Engine.showing s (passed ++ [records]) =
      Engine.showing s passed ++ [{ s with status := .executingTools, records }] := by
    rw [Engine.showing, List.map_append]
    rfl
  have hc : (Engine.showing s (passed ++ [records])).IsChain fun a b => a.key = b.key :=
    (List.isChain_map _).mpr (List.pairwise_of_forall fun _ _ => rfl).isChain
  rw [progressLines_of_isChain (by simp [hs]) hc, hs, runLines_concat]
  rfl

/-- Snapshots of running steps, with other snapshots before them and after. -/
theorem progressLines_worked {before after : List Session} {t : Session} (s : Session)
    (passed : List (List StepRecord)) (records : List StepRecord)
    (hb : ∀ x ∈ before, x.isExecuting = false) (ht : t.isExecuting = false)
    (ha : ∀ x ∈ after.head?, t.key ≠ x.key) :
    progressLines (before ++ Engine.showing s (passed ++ [records]) ++ t :: after) =
      progressLines before ++ statusLine .executingTools ::
        (records.map stepLine ++ statusLine t.status :: progressLines after) := by
  have hshow : ∀ x ∈ Engine.showing s (passed ++ [records]), x.isExecuting = true := by
    intro x hx
    obtain ⟨_, -, rfl⟩ := List.mem_map.mp hx
    rfl
  have hne : ∀ {x y : Session}, x.isExecuting = false → y.isExecuting = true → x.key ≠ y.key := by
    intro x y hx hy he
    rw [Session.isExecuting_of_key he, hy] at hx
    contradiction
  have hlast : ∀ x ∈ (before ++ Engine.showing s (passed ++ [records])).getLast?,
      x.isExecuting = true := by
    intro x hx
    refine hshow x (List.mem_of_getLast? ?_)
    rwa [List.getLast?_append_of_ne_nil _ (by simp [Engine.showing])] at hx
  have htail : progressLines (t :: after) = statusLine t.status :: progressLines after := by
    have hrun := runLines_concat [] t
    rw [ht] at hrun
    rw [← List.singleton_append, progressLines_append, progressLines_singleton]
    · exact congrArg (· ++ progressLines after) hrun
    · intro x hx y hy
      obtain rfl := Option.mem_some.mp hx
      exact ha y hy
  rw [progressLines_append, progressLines_append, progressLines_showing, htail, List.append_assoc,
    List.cons_append]
  · intro x hx y hy
    exact hne (hb x (List.mem_of_getLast? hx)) (hshow y (List.mem_of_mem_head? hy))
  · intro x hx y hy
    obtain rfl := Option.mem_some.mp hy
    exact (hne ht (hlast x hx)).symm

end Printer

/-! ### The work on a plan -/

namespace Engine

open Printer

variable [Interpreter] {ρ κ : Type} {engine : Engine ρ κ}

/-- Each record of a plan marks its step. -/
theorem marks_runPlan (workspace : Workspace) (files : Files.Node) (plan : String) :
    List.Forall₂ Marks (planSteps plan) (Tools.runPlan workspace files plan).records := by
  have hl := Tools.Pass.length_records (.reporting .ofPattern (.ofWorkspace workspace files))
    (planSteps plan)
  have hp := Tools.Performer.telling_ofWorkspace workspace files fun _ _ => none
  refine List.forall₂_iff_get.mpr ⟨hl.symm, fun i hi hr => ?_⟩
  obtain ⟨record, hrecord, ht⟩ := Tools.Pass.tells_records hp (planSteps plan) i hi
  have hg : (Tools.runPlan workspace files plan).records[i] = record :=
    (List.getElem_eq_iff hr).mpr hrecord
  have hf : record.failure?.isSome = record.error.isSome := by
    cases he : record.error with
    | none => simp [StepRecord.failure?, he]
    | some error => simp [StepRecord.failure?, he, (ht.failed error he).1]
  rw [List.get_eq_getElem, List.get_eq_getElem, hg]
  refine ⟨ht.id, ht.tool, ?_⟩
  unfold stepLine
  dsimp only
  rw [hf, ht.id, ht.tool]

omit [Interpreter] in
/-- The records of a pass are shown as they grow. -/
theorem pairwise_shown (perform : Tools.Performer Tools.Breakdown) (steps : List Step) :
    ([] :: (Tools.Pass.run perform steps).reports ++
      [(Tools.Pass.run perform steps).records]).Pairwise (· <+: ·) := by
  rw [Tools.Pass.shown_run, List.pairwise_append]
  refine ⟨?_, List.pairwise_singleton _ _, ?_⟩
  · refine List.pairwise_map.mpr (List.pairwise_lt_range.imp fun h => ?_)
    exact List.take_prefix_take_left (Nat.le_of_lt h)
  · intro a ha b hb
    obtain ⟨i, -, rfl⟩ := List.mem_map.mp ha
    rw [List.mem_singleton.mp hb]
    exact List.take_prefix _ _

omit [Interpreter] in
/-- Running steps are staged and show, when the solver starts with all their records. -/
theorem staged_worked {before after : List Session} {plan : String}
    {passed : List (List StepRecord)} (s solving : Session) (hb : ∀ x ∈ before, x.isExecuting = false)
    (hp : (passed ++ [solving.records]).Pairwise (· <+: ·)) (hs : solving.status = .solving)
    (hplan : solving.plan = some plan) (hm : List.Forall₂ Marks (planSteps plan) solving.records)
    (ha : ∀ x ∈ after, x.status = .completed) :
    Staged (before ++ showing s (passed ++ [solving.records]) ++ solving :: after) ∧
      StepsShown (before ++ showing s (passed ++ [solving.records]) ++ solving :: after) := by
  have hsolving : solving.isExecuting = false := by
    rw [Session.isExecuting, hs]
    rfl
  have hafter : ∀ x ∈ after, x.isExecuting = false := by
    intro x hx
    rw [Session.isExecuting, ha x hx]
    rfl
  have hkey : ∀ x ∈ after.head?, solving.key ≠ x.key := by
    intro x hx he
    have hst : solving.status = x.status := (Prod.mk.inj he).2
    rw [hs, ha x (List.mem_of_mem_head? hx)] at hst
    contradiction
  have hlines := progressLines_worked s passed solving.records hb hsolving hkey
  rw [hs] at hlines
  refine ⟨?_, .worked (List.mem_append_right _ List.mem_cons_self) hs hplan hm hlines ?_⟩
  · have h0 := Staged.nil.append_idle hb
    rw [List.nil_append] at h0
    exact (h0.append_showing hb hp s).append_idle (List.forall_mem_cons.mpr ⟨hsolving, hafter⟩)
  · intro line hl
    rcases List.mem_append.mp hl with hl | hl
    · exact plain_progressLines hb line hl
    · exact plain_progressLines hafter line hl

/-- The work on a plan is staged, and its steps show. -/
theorem staged_work (engine : Engine ρ κ) {before after : List Session} {s : Session}
    (files : Files.Node) (plan : String) (hs : s.status = .planning)
    (hb : ∀ x ∈ before, x.isExecuting = false) (ha : ∀ x ∈ after, x.status = .completed) :
    Staged (before ++ engine.work files plan s ++ after) ∧
      StepsShown (before ++ engine.work files plan s ++ after) := by
  have hplanned : ∀ x ∈ before ++ [{ s with plan := some plan }], x.isExecuting = false := by
    refine List.forall_mem_append.mpr ⟨hb, List.forall_mem_singleton.mpr ?_⟩
    rw [Session.isExecuting, hs]
    rfl
  have hmarks := marks_runPlan engine.workspace files plan
  have hpairs : ([] :: (Tools.runPlan engine.workspace files plan).reports ++
      [(Tools.runPlan engine.workspace files plan).records]).Pairwise (· <+: ·) := pairwise_shown _ _
  unfold work
  generalize Tools.runPlan engine.workspace files plan = pass at hmarks hpairs
  have hw := staged_worked { s with plan := some plan }
    { s with status := .solving, plan := some plan, records := pass.records }
    hplanned hpairs rfl rfl hmarks ha
  simpa using hw

/-- Whatever trail a turn leaves, it is staged after snapshots in which no steps were run, and the steps
of the plan show. -/
theorem Trail.staged {files : Files.Node} {s last : Session} {plan? : Option String}
    {earlier sessions : List Session} (h : engine.Trail files s plan? sessions last)
    (hs : s.status = .orchestrating) (he : ∀ x ∈ earlier, x.isExecuting = false) :
    Staged (earlier ++ s :: sessions) ∧ StepsShown (earlier ++ s :: sessions) := by
  have hs' : s.isExecuting = false := by
    rw [Session.isExecuting, hs]
    rfl
  have hidle : ∀ sessions : List Session, (∀ x ∈ sessions, x.isExecuting = false) →
      Staged (earlier ++ s :: sessions) ∧ StepsShown (earlier ++ s :: sessions) := by
    intro sessions hn
    have hall : ∀ x ∈ earlier ++ s :: sessions, x.isExecuting = false :=
      List.forall_mem_append.mpr ⟨he, List.forall_mem_cons.mpr ⟨hs', hn⟩⟩
    refine ⟨?_, .idle (fun x hx => isExecuting_eq_false.mp (hall x hx)) (plain_progressLines hall)⟩
    have h0 := Staged.nil.append_idle hall
    rwa [List.nil_append] at h0
  have hbegun : ∀ x ∈ earlier ++ [s, { s with status := .planning }], x.isExecuting = false :=
    List.forall_mem_append.mpr ⟨he, List.forall_mem_cons.mpr ⟨hs', List.forall_mem_singleton.mpr rfl⟩⟩
  have hp : Session.status { s with status := .planning } = .planning := rfl
  cases h with
  | still => exact hidle [] fun x hx => absurd hx List.not_mem_nil
  | asking question => exact hidle _ (List.forall_mem_singleton.mpr rfl)
  | planning => exact hidle _ (List.forall_mem_singleton.mpr rfl)
  | @solving plan =>
    have hn : ∀ x ∈ ([] : List Session), x.status = .completed := fun x hx =>
      absurd hx List.not_mem_nil
    simpa using engine.staged_work files plan hp hbegun hn
  | @completing plan _ summary planPath reached =>
    have hl : last.status = .completed := by rw [reached]
    simpa using engine.staged_work files plan hp hbegun (List.forall_mem_singleton.mpr hl)

end Engine
end PlanAssistant
