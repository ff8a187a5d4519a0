import Mathlib.Data.List.Induction
import PlanAssistant.Tools.Pass

/-!
What a pass over the steps of a plan leaves.  There is one record for each step, in order; the
argument of a step is resolved against the outputs of the steps before it that succeeded, the latest
one of a number winning; and the reports are the beginnings of the record list.  What comes later in
the plan changes nothing of what was recorded before.
-/
namespace PlanAssistant

namespace Tools

/-! ### Results -/

theorem listFiles_error_ne_empty [Interpreter] (workspace : Workspace) (tree : Files.Node)
    (argument : String) : (listFiles workspace tree argument).error ≠ some "" := by
  unfold listFiles
  split
  · simp [ToolResult.failed]
  · split
    · simp [ToolResult.failed]
    · split <;> simp [ToolResult.failed, ToolResult.ofOutput]

theorem readFile_error_ne_empty [Interpreter] (workspace : Workspace) (tree : Files.Node)
    (argument : String) : (readFile workspace tree argument).error ≠ some "" := by
  unfold readFile fileText
  split
  · simp [ToolResult.failed]
  · split
    · simp [ToolResult.failed]
    · simp [ToolResult.failed]
    · split <;> simp [ToolResult.failed, ToolResult.ofOutput]

theorem searchText_error_ne_empty [Interpreter] {workspace : Workspace} {tree : Files.Node}
    {argument : String} {result : ToolResult} (h : searchText workspace tree argument = .ok result) :
    result.error ≠ some "" := by
  unfold searchText at h
  split at h
  split at h
  · obtain rfl := Except.ok.inj h
    simp [ToolResult.failed]
  · split at h
    · obtain rfl := Except.ok.inj h
      simp [ToolResult.failed]
    · split at h
      · contradiction
      · obtain rfl := Except.ok.inj h
        simp [ToolResult.ofOutput]

namespace Breakdown

theorem message_ne_empty (breakdown : Breakdown) : breakdown.message ≠ "" := by
  unfold message
  split
  · exact breakdown.kind_ne_empty
  · next h => simpa using h

end Breakdown

namespace Performer

/-- Tools that break off where `breaks` says so, and otherwise work as before. -/
def breaking (breaks : Tool → String → Option Breakdown) (perform : Performer Breakdown) :
    Performer Breakdown := fun tool argument =>
  match breaks tool argument with
  | some breakdown => .error breakdown
  | none => perform tool argument

/-- Tools that never fail without a word. -/
def Telling (perform : Performer Breakdown) : Prop :=
  ∀ tool argument result, perform tool argument = .ok result → result.error ≠ some ""

variable [Interpreter]

/-- The tools of a workspace always say why they fail. -/
theorem telling_ofWorkspace (workspace : Workspace) (tree : Files.Node)
    (breaks : Tool → String → Option Breakdown) :
    (((ofWorkspace workspace tree).reporting .ofPattern).breaking breaks).Telling := by
  intro tool argument result h
  unfold breaking reporting at h
  split at h
  · contradiction
  · cases tool with
    | listFiles =>
      obtain rfl : Tools.listFiles workspace tree argument = result := Except.ok.inj h
      exact listFiles_error_ne_empty workspace tree argument
    | readFile =>
      obtain rfl : Tools.readFile workspace tree argument = result := Except.ok.inj h
      exact readFile_error_ne_empty workspace tree argument
    | searchText =>
      simp only [ofWorkspace] at h
      cases hs : Tools.searchText workspace tree argument with
      | error fault => rw [hs] at h; contradiction
      | ok found =>
        rw [hs] at h
        obtain rfl : found = result := Except.ok.inj h
        exact searchText_error_ne_empty hs

omit [Interpreter] in
theorem result_error_ne_empty {perform : Performer Breakdown} (h : perform.Telling)
    (tool argument : String) : (perform.result tool argument).error ≠ some "" := by
  unfold result
  split
  · simp [ToolResult.failed]
  · next known _ =>
    split
    · next r hr => exact h known argument r hr
    · next b _ => simpa [ToolResult.failed] using b.message_ne_empty

end Performer

/-! ### Records -/

/-- The outputs that arguments may refer to after some steps: those of the steps that succeeded, the
latest first. -/
def successes (done : List (Step × StepRecord)) : Outputs :=
  done.reverse.filterMap fun (step, record) =>
    if record.error.isNone then some (step.number, record.output) else none

/-- The output of the latest step with a number that succeeded. -/
def latest? (number : String) (done : List (Step × StepRecord)) : Option String :=
  (done.reverse.find? fun (step, record) => step.number == number && record.error.isNone).map
    (·.2.output)

theorem get?_successes (number : String) (done : List (Step × StepRecord)) :
    (successes done).get? number = latest? number done := by
  unfold successes latest? Outputs.get?
  induction done.reverse with
  | nil => rfl
  | cons entry rest ih =>
    obtain ⟨step, record⟩ := entry
    cases he : record.error <;> by_cases hn : step.number = number <;> simp_all

theorem successes_concat (done : List (Step × StepRecord)) (step : Step) (record : StepRecord) :
    successes (done ++ [(step, record)]) =
      match record.error with
      | some _ => successes done
      | none => (step.number, record.output) :: successes done := by
  unfold successes
  rw [List.reverse_append, List.reverse_singleton, List.singleton_append]
  cases he : record.error <;> simp [he]

/-- What a record tells of a step, after the steps in `done`: the argument it was run on, and what
became of it. -/
structure Tells (perform : Performer Breakdown) (done : List (Step × StepRecord)) (step : Step)
    (record : StepRecord) : Prop where
  id : record.id = step.id
  tool : record.tool = step.tool
  argument : ∃ outputs : Outputs, (∀ number, outputs.get? number = latest? number done) ∧
    record.argument = Text.strip (outputs.resolve step.argument)
  failed : ∀ error, record.error = some error → error ≠ "" ∧ record.output = ""
  succeeded : record.error = none → ∃ tool result, Tool.ofName? step.tool = some tool ∧
    perform tool record.argument = .ok result ∧ result.error = none ∧ record.output = result.output

theorem recordOf_error (step : Step) (argument : String) (result : ToolResult) :
    (recordOf step argument result).error = result.error := by
  unfold recordOf
  split <;> simp_all

@[simp] theorem recordOf_argument (step : Step) (argument : String) (result : ToolResult) :
    (recordOf step argument result).argument = argument := by
  unfold recordOf
  split <;> rfl

theorem recordOf_output (step : Step) (argument : String) (result : ToolResult)
    (h : result.error = none) : (recordOf step argument result).output = result.output := by
  simp [recordOf, h]

/-- Only a known tool that gave a result leaves no error. -/
theorem Performer.result_succeeds {perform : Performer Breakdown} {tool argument : String}
    (h : (perform.result tool argument).error = none) :
    ∃ known, Tool.ofName? tool = some known ∧
      perform known argument = .ok (perform.result tool argument) := by
  unfold result at h ⊢
  split at h
  · simp [ToolResult.failed] at h
  · next known hk =>
    refine ⟨known, hk, ?_⟩
    split at h
    · next r hr => rw [hr]
    · simp [ToolResult.failed] at h

theorem tells_recordOf {perform : Performer Breakdown} (hp : perform.Telling)
    (done : List (Step × StepRecord)) (step : Step) :
    let argument := Text.strip ((successes done).resolve step.argument)
    Tells perform done step (recordOf step argument (perform.result step.tool argument)) := by
  intro argument
  have hid : ∀ result, (recordOf step argument result).id = step.id ∧
      (recordOf step argument result).tool = step.tool := by
    intro result
    unfold recordOf
    split <;> exact ⟨rfl, rfl⟩
  obtain ⟨hi, ht⟩ := hid (perform.result step.tool argument)
  have ha := recordOf_argument step argument (perform.result step.tool argument)
  refine ⟨hi, ht, ⟨successes done, fun number => get?_successes number done, ha⟩, ?_, ?_⟩
  · intro error he
    rw [recordOf_error] at he
    refine ⟨fun h0 => Performer.result_error_ne_empty hp step.tool argument (h0 ▸ he), ?_⟩
    simp [recordOf, he]
  · intro he
    rw [recordOf_error] at he
    obtain ⟨known, hk, hr⟩ := Performer.result_succeeds he
    exact ⟨known, _, hk, ha.symm ▸ hr, he, recordOf_output _ _ _ he⟩

/-! ### Passes -/

namespace Pass

theorem run_concat (perform : Performer Breakdown) (steps : List Step) (step : Step) :
    run perform (steps ++ [step]) = take perform (run perform steps) step := by
  rw [run, List.foldl_append]
  rfl

theorem records_take (perform : Performer Breakdown) (pass : Pass) (step : Step) :
    ∃ record, (take perform pass step).records = pass.records ++ [record] := ⟨_, rfl⟩

theorem length_records (perform : Performer Breakdown) (steps : List Step) :
    (run perform steps).records.length = steps.length := by
  induction steps using List.reverseRecOn with
  | nil => rfl
  | append_singleton steps step ih =>
    obtain ⟨record, hr⟩ := records_take perform (run perform steps) step
    rw [run_concat, hr, List.length_append, List.length_append, ih, List.length_singleton,
      List.length_singleton]

/-- The records of a beginning of the steps are a beginning of the records. -/
theorem records_run_append (perform : Performer Breakdown) (steps more : List Step) :
    (run perform steps).records <+: (run perform (steps ++ more)).records := by
  induction more using List.reverseRecOn with
  | nil => simp
  | append_singleton more step ih =>
    obtain ⟨record, hr⟩ := records_take perform (run perform (steps ++ more)) step
    rw [← List.append_assoc, run_concat, hr]
    exact ih.trans (List.prefix_append _ _)

theorem take_records (perform : Performer Breakdown) (steps : List Step) (k : Nat) :
    (run perform steps).records.take k = (run perform (steps.take k)).records := by
  have h := records_run_append perform (steps.take k) (steps.drop k)
  rw [List.take_append_drop] at h
  have hl := length_records perform (steps.take k)
  have hm := length_records perform steps
  rw [List.length_take] at hl
  rw [List.prefix_iff_eq_take.mp h, hl]
  by_cases hk : k ≤ steps.length
  · rw [Nat.min_eq_left hk]
  · rw [Nat.min_eq_right (by omega), List.take_of_length_le (by omega),
      List.take_of_length_le (by omega)]

/-- The table of a pass holds the outputs of the steps that succeeded. -/
theorem outputs_run (perform : Performer Breakdown) (steps : List Step) :
    (run perform steps).outputs = successes (steps.zip (run perform steps).records) := by
  induction steps using List.reverseRecOn with
  | nil => rfl
  | append_singleton steps step ih =>
    have hl := length_records perform steps
    rw [run_concat, take]
    simp only
    rw [List.zip_append hl.symm, List.zip_cons_cons, List.zip_nil_right, successes_concat, ← ih,
      recordOf_error]
    cases he : (perform.result step.tool _).error with
    | some error => simp
    | none => simp [recordOf_output _ _ _ he]

/-- The record at a place is that of the step there, run on its argument as the table resolves it that
the steps before it left. -/
theorem getElem?_records (perform : Performer Breakdown) (steps : List Step) (i : Nat)
    (hi : i < steps.length) :
    let done := (steps.zip (run perform steps).records).take i
    let argument := Text.strip ((successes done).resolve steps[i].argument)
    (run perform steps).records[i]? =
      some (recordOf steps[i] argument (perform.result steps[i].tool argument)) := by
  intro done argument
  have hs : steps.take (i + 1) = steps.take i ++ [steps[i]] := List.take_succ_eq_append_getElem hi
  have hl : (run perform (steps.take i)).records.length = i := by
    rw [length_records, List.length_take]
    omega
  have hdone : done = (steps.take i).zip (run perform (steps.take i)).records := by
    rw [← take_records, List.zip_eq_zipWith, ← List.take_zipWith, ← List.zip_eq_zipWith]
  have hr : (run perform (steps.take (i + 1))).records = (run perform (steps.take i)).records ++
      [recordOf steps[i] argument (perform.result steps[i].tool argument)] := by
    rw [hs, run_concat]
    simp only [argument, hdone, ← outputs_run]
    rfl
  rw [← List.getElem?_take_of_lt (Nat.lt_succ_self i), take_records, hr,
    List.getElem?_append_right (by omega), hl, Nat.sub_self]
  rfl

/-- Every record tells of its step, given the steps and records before it. -/
theorem tells_records {perform : Performer Breakdown} (hp : perform.Telling) (steps : List Step)
    (i : Nat) (hi : i < steps.length) :
    ∃ record, (run perform steps).records[i]? = some record ∧
      Tells perform ((steps.zip (run perform steps).records).take i) steps[i] record :=
  ⟨_, getElem?_records perform steps i hi, tells_recordOf hp _ _⟩

/-- The reports are the beginnings of the records, one for each step. -/
theorem reports_run (perform : Performer Breakdown) (steps : List Step) :
    (run perform steps).reports =
      (List.range steps.length).map fun i => (run perform steps).records.take (i + 1) := by
  induction steps using List.reverseRecOn with
  | nil => rfl
  | append_singleton steps step ih =>
    obtain ⟨record, hr⟩ := records_take perform (run perform steps) step
    have hl := length_records perform steps
    have hrep : (take perform (run perform steps) step).reports =
        (run perform steps).reports ++ [(take perform (run perform steps) step).records] := rfl
    rw [run_concat, hrep, hr, ih, List.length_append, List.length_singleton, List.range_succ,
      List.map_append, List.map_singleton, List.take_of_length_le (by simp [hl])]
    congr 1
    refine List.map_congr_left fun i hi => ?_
    rw [List.take_append_of_le_length (by rw [hl]; exact List.mem_range.mp hi)]

/-- The empty list, the reports and the records at the end are all beginnings of the records. -/
theorem shown_run (perform : Performer Breakdown) (steps : List Step) :
    [] :: (run perform steps).reports ++ [(run perform steps).records] =
      (List.range (steps.length + 1)).map (fun i => (run perform steps).records.take i) ++
        [(run perform steps).records] := by
  rw [reports_run, List.range_succ_eq_map, List.map_cons, List.map_map]
  rfl

/-- What a pass over some steps comes to: a record for each, that tells of it; the beginnings of the
record list as reports; and nothing of it owed to what comes later. -/
structure Faithful (perform : Performer Breakdown) (steps : List Step) (pass : Pass) : Prop where
  length : pass.records.length = steps.length
  tells : ∀ (i : Nat) (hi : i < steps.length), ∃ record, pass.records[i]? = some record ∧
    Tells perform ((steps.zip pass.records).take i) steps[i] record
  reports : pass.reports = (List.range steps.length).map fun i => pass.records.take (i + 1)
  stable : ∀ (others : List Step) (k : Nat), others.take k = steps.take k →
    (run perform others).records.take k = pass.records.take k

theorem faithful_run {perform : Performer Breakdown} (hp : perform.Telling) (steps : List Step) :
    Faithful perform steps (run perform steps) where
  length := length_records perform steps
  tells := tells_records hp steps
  reports := reports_run perform steps
  stable := by
    intro others k hk
    rw [take_records, take_records, hk]

end Pass
end Tools
end PlanAssistant
