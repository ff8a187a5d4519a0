import PlanAssistant.Proofs.Engine.Trace
import PlanAssistant.Proofs.Tools.PassRecords

/-!
The snapshots of a turn that are taken while the steps of its plan run.  They carry the beginnings of
the records, from none to all of them, and all of them once more; a turn in which the planner gave no
plan has no such snapshots.
-/
namespace PlanAssistant

/-- Whether the steps of the plan are being run. -/
def Session.isExecuting (s : Session) : Bool := s.status == .executingTools

namespace Engine

variable {ρ κ : Type} (engine : Engine ρ κ)

theorem filter_cons_of_ne {s : Session} (h : s.status ≠ .executingTools) (sessions : List Session) :
    (s :: sessions).filter Session.isExecuting = sessions.filter Session.isExecuting :=
  List.filter_cons_of_neg (by rw [Session.isExecuting, beq_iff_eq]; exact h)

theorem filter_showing (s : Session) (passed : List (List StepRecord)) :
    (showing s passed).filter Session.isExecuting = showing s passed := by
  rw [List.filter_eq_self]
  intro t ht
  obtain ⟨records, -, rfl⟩ := List.mem_map.mp ht
  rfl

theorem map_records_showing (s : Session) (passed : List (List StepRecord)) :
    (showing s passed).map (·.records) = passed := by
  rw [showing, List.map_map]
  exact List.map_id passed

variable [Interpreter]

/-- The records that are shown while the steps of a plan run. -/
def shownRecords (files : Files.Node) (plan : String) : List (List StepRecord) :=
  let pass := Tools.runPlan engine.workspace files plan
  (List.range ((planSteps plan).length + 1)).map (fun i => pass.records.take i) ++ [pass.records]

theorem map_records_work (files : Files.Node) (plan : String) {s : Session} (hs : s.status = .planning) :
    ((engine.work files plan s).filter Session.isExecuting).map (·.records) =
      engine.shownRecords files plan := by
  have hp : Session.status { s with plan := some plan } ≠ .executingTools := by
    dsimp only
    rw [hs]
    decide
  unfold work
  rw [filter_cons_of_ne hp, List.filter_append, filter_showing, filter_cons_of_ne, List.filter_nil,
    List.append_nil, map_records_showing]
  · exact Tools.Pass.shown_run _ _
  · exact fun h => nomatch h

theorem Trail.map_records {engine : Engine ρ κ} {files : Files.Node} {s last : Session}
    {plan? : Option String} {sessions : List Session}
    (h : engine.Trail files s plan? sessions last) (hs : s.status = .orchestrating) :
    ((s :: sessions).filter Session.isExecuting).map (·.records) =
      (plan?.map (engine.shownRecords files)).getD [] := by
  have hn : s.status ≠ .executingTools := by
    rw [hs]
    decide
  rw [filter_cons_of_ne hn]
  cases h with
  | still => rfl
  | asking question => rfl
  | planning => rfl
  | solving =>
    rw [filter_cons_of_ne, map_records_work _ _ _ rfl]
    · rfl
    · exact fun h => nomatch h
  | completing summary planPath reached =>
    have hl : last.status ≠ .executingTools := by
      rw [reached]
      exact fun h => nomatch h
    rw [List.cons_append, filter_cons_of_ne, List.filter_append, filter_cons_of_ne hl, List.filter_nil,
      List.append_nil, map_records_work _ _ _ rfl]
    · rfl
    · exact fun h => nomatch h

/-- A pass over the steps of a plan is faithful to them, wherever tools break off; and after any
inputs, a turn shows the records of its plan as they grow. -/
theorem toolSnapshots_take (births : Births) (files : Files.Node) (replies : ρ)
    (submissions : List (Submission ρ)) (submission : Submission ρ) :
    (∀ (workspace : Workspace) (tree : Files.Node) (plan : String)
      (breaks : Tools.Tool → String → Option Tools.Breakdown),
      let perform := (Tools.Performer.reporting .ofPattern (.ofWorkspace workspace tree)).breaking breaks
      Tools.Pass.Faithful perform (planSteps plan) (Tools.Pass.run perform (planSteps plan))) ∧
    let memory := engine.after births (.fresh files replies) submissions
    let report := engine.take births memory submission
    memory.history <+: report.memory.history ∧
      (((report.memory.history.drop memory.history.length).map (·.session)).filter
        Session.isExecuting).map (·.records) =
        ((givenPlan? report.events).map (engine.shownRecords submission.files)).getD [] := by
  refine ⟨?_, ?_⟩
  · intro workspace tree plan breaks perform
    exact Tools.Pass.faithful_run (Tools.Performer.telling_ofWorkspace workspace tree breaks) _
  · intro memory report
    have hm := engine.lawful_after births files replies submissions
    have hc : ∀ s, memory.session = some s → s.Consistent := fun s hs => (hm.held s hs).1
    obtain ⟨s, sessions, last, ho, ht, -, -, hh⟩ := engine.take_trail births hc submission
    refine ⟨hh ▸ Update.prefix_extend _ _, ?_⟩
    rw [hh, Update.drop_extend]
    exact ht.map_records (ho.status_pending hc).1

end Engine
end PlanAssistant
