import PlanAssistant.Proofs.Engine.Storage

/-!
What becomes of the answer of the solver.  It is told when the turn completes, wherever the document is.
It is lost when keeping the document breaks down for a reason that is none of the file system: then the
turn fails, though the solver has answered.
-/
namespace PlanAssistant

open Files

/-- The ids of sessions are plain. -/
def Births.Plain (births : Births) : Prop :=
  ∀ n, ∀ c ∈ (births n).1.toList, c.isAlphanum = true ∨ c = '-'

/-- The answer of a session that has completed ends with its summary. -/
theorem exists_completion_eq {s : Session} {summary : String} (h : s.summary = some summary)
    (hne : summary ≠ "") (saveFailed : Bool) :
    ∃ start, Document.completion s saveFailed = start ++ summary := by
  have hblock : Document.block s.summary ("\n\n### Solver Summary\n" ++ ·) =
      "\n\n### Solver Summary\n" ++ summary := by
    rw [Document.block, h, Option.filter_some, if_pos (by simpa using hne)]
  unfold Document.completion
  rw [hblock, ← String.append_assoc]
  exact ⟨_, rfl⟩

namespace Engine

variable {ρ κ : Type} {engine : Engine ρ κ} {last : Turn ρ κ} {s : Session}
  {ended : Except Stop (Outcome × String)}

/-- The turn completed, and its answer has the summary. -/
def AnswerKept (report : TurnReport ρ κ) (summary : String) : Prop :=
  ∃ result s, report.result = .ok result ∧ report.memory.session = some s ∧
    result.outcome = .completed ∧ s.status = .completed ∧
    (summary ≠ "" → ∃ start, result.response = start ++ summary)

/-- The turn failed, and the session is still where the solver was asked. -/
def AnswerLost (report : TurnReport ρ κ) : Prop :=
  ∃ result s, report.result = .ok result ∧ report.memory.session = some s ∧
    result.outcome = .failed ∧ s.status = .solving ∧ result.response = Document.failureNotice

theorem AnswerLost.not_kept {report : TurnReport ρ κ} (h : AnswerLost report) (summary : String) :
    ¬ AnswerKept report summary := by
  rintro ⟨result, -, hr, -, ho, -⟩
  obtain ⟨result', -, hr', -, ho', -⟩ := h
  obtain rfl := Except.ok.inj (hr.symm.trans hr')
  exact nomatch ho.symm.trans ho'

section

variable [Interpreter]

/-- The answer is kept or lost with the document. -/
theorem answer_of_settles {solved : Turn ρ κ} {summary : String}
    (hsettles : engine.Settles solved ended last) (hs : solved.session.status = .solving)
    (hsummary : solved.session.summary = some summary) (born : Nat) :
    let report : TurnReport ρ κ := ⟨result last ended, closeTurn born last, last.events⟩
    (engine.keeping? solved.files solved.session = none ∧ AnswerLost report) ∨
      (engine.keeping? solved.files solved.session ≠ none ∧ AnswerKept report summary) := by
  cases hsettles with
  | unkept kept => exact .inl ⟨kept, _, _, rfl, rfl, rfl, hs, rfl⟩
  | @finished files planPath saveFailed kept =>
    refine .inr ⟨by rw [kept]; exact Option.some_ne_none _, _, _, rfl, rfl, rfl, rfl, fun hne => ?_⟩
    have hs' : ({ solved.session with status := .completed, planPath } : Session).summary = some summary :=
      hsummary
    exact exists_completion_eq hs' hne saveFailed

omit [Interpreter] in
/-- The document of a session that began at a time of the calendar can be made. -/
theorem exists_render {births : Births} (hd : births.Dated) {n : Nat} (hb : s.birth = births n) :
    ∃ document, Document.render s = .ok document := by
  obtain ⟨stamp, hstamp⟩ := hd n
  rw [← hb] at hstamp
  refine ⟨"\n".intercalate (Document.lines s stamp), ?_⟩
  rw [Document.render, show s.createdAt.timestamp = .ok stamp from hstamp]
  rfl

/-- The document of such a session can be made, so all hangs on keeping it. -/
theorem keeping?_eq_none_iff_of_birth (hk : engine.KeepsInWorkspace) (hw : engine.workspace.Opened)
    {births : Births} (hp : births.Plain) {n : Nat} (hb : s.birth = births n) (files : Node)
    {document : String} (hd : Document.render s = .ok document) :
    engine.keeping? files s = none ↔
      ¬ Document.Storable engine.workspace engine.settings.plansDir files s document := by
  have hplain : s.PlainId := by
    have hn := hp n
    rw [← hb] at hn
    exact hn
  rw [keeping?_eq_none_iff hd, hk, Document.breaksDown_keep_iff hw hplain]

/-- After any inputs, on a turn on which the solver answers the document is made.  The turn completes and
tells the answer, exactly if the document can be kept or fails to be for a reason of the file system;
otherwise the turn fails. -/
theorem answerKept_take_iff (hk : engine.KeepsInWorkspace) (hw : engine.workspace.Opened)
    {births : Births} (hd : births.Dated) (hp : births.Plain) (files : Node) (replies : ρ)
    (submissions : List (Submission ρ)) {submission : Submission ρ} {before : Turn ρ κ}
    (hs : engine.Starts births (engine.after births (.fresh files replies) submissions) submission
      .solver before)
    {output : StageOutput} (ho : (engine.asked .solver before).outcome = .ok output) :
    let report := engine.take births (engine.after births (.fresh files replies) submissions) submission
    let solved := (engine.solved output before).session
    ∃ document, Document.render solved = .ok document ∧
      (AnswerKept report output.text ↔
        Document.Storable engine.workspace engine.settings.plansDir submission.files solved document) ∧
      (¬ Document.Storable engine.workspace engine.settings.plansDir submission.files solved document →
        AnswerLost report) := by
  have hm := engine.lawful_after births files replies submissions
  have hc := fun s hs => (hm.held s hs).1
  obtain ⟨s, hopens, hreaches⟩ := hs
  obtain ⟨s', ended, last, hopens', hcourse, htake⟩ := engine.take_course hc submission
  obtain rfl := hopens.unique hopens'
  obtain ⟨hfiles, plan, records, hsession⟩ := hreaches.solved_eq (hopens.status_pending hc).1 output
  change (engine.solved output before).files = submission.files at hfiles
  have hbirth : (engine.solved output before).session.birth = s.birth := by
    rw [hsession]
    rfl
  have hborn := hbirth.trans (hopens.birth hm.held)
  obtain ⟨document, hdocument⟩ := exists_render hd hborn
  have hnone := keeping?_eq_none_iff_of_birth hk hw hp hborn submission.files hdocument
  have hanswer := answer_of_settles (hcourse.settles hreaches ho) (by rw [hsession]) (by rw [hsession])
    (bornAfter (engine.after births (.fresh files replies) submissions))
  rw [hfiles] at hanswer
  rw [htake]
  refine ⟨document, hdocument, ?_⟩
  obtain ⟨hnot, hlost⟩ | ⟨hnot, hkept⟩ := hanswer
  · exact ⟨iff_of_false (hlost.not_kept output.text) (hnone.mp hnot), fun _ => hlost⟩
  · have hstorable := Classical.not_not.mp fun h => hnot (hnone.mpr h)
    exact ⟨iff_of_true hkept hstorable, fun h => absurd hstorable h⟩

/-- The steps of a plan ask nothing of the model. -/
theorem replies_tooled (engine : Engine ρ κ) (turn : Turn ρ κ) :
    (engine.tooled turn).replies = turn.replies ∧ (engine.tooled turn).token = turn.token :=
  tooled_induct (P := fun t => t.replies = turn.replies ∧ t.token = turn.token) (fun _ _ h => h) ⟨rfl, rfl⟩

omit [Interpreter] in
theorem replies_publishWith (change : Session → Session) (turn : Turn ρ κ) :
    (turn.publishWith change).replies = turn.replies ∧ (turn.publishWith change).token = turn.token :=
  ⟨rfl, rfl⟩

theorem replies_atSolver (engine : Engine ρ κ) (output : StageOutput) (turn : Turn ρ κ) :
    (engine.atSolver output turn).replies = (engine.waited .planner turn).replies ∧
      (engine.atSolver output turn).token = (engine.waited .planner turn).token := by
  unfold atSolver
  rw [(replies_publishWith _ _).1, (replies_publishWith _ _).2, (replies_tooled _ _).1,
    (replies_tooled _ _).2]
  exact ⟨rfl, rfl⟩

end

/-! ### A plan without steps -/

/-- The turn on the task as it comes to the planner. -/
def atSecond (plansDir : String) : Turn (List ReadyReply) Query :=
  (keeper plansDir).atPlanner ⟨"", "", none, ""⟩
    (opening ((Memory.fresh (.directory []) []).found planning) planning.input
      ((Session.start (someBirths 1).1 (someBirths 1).2 (Text.strip "task")).hear (Text.strip "task")))

/-- The turn on the task as it comes to the solver. -/
def atLast (plansDir : String) : Turn (List ReadyReply) Query :=
  (keeper plansDir).atSolver ⟨"no steps", "", none, ""⟩ (atSecond plansDir)

theorem starts_planning (plansDir : String) :
    (keeper plansDir).Starts someBirths (.fresh (.directory []) []) planning .solver (atLast plansDir) := by
  have hparsed : Decision.parse "" = .ok (.proceed (some "") none) := by decide +kernel
  have hreaches : (keeper plansDir).Reaches _ .solver (atLast plansDir) := .solver rfl hparsed rfl rfl
  exact ⟨_, .started fun _ h => (nomatch h), hreaches⟩

theorem asked_planning (plansDir : String) :
    ((keeper plansDir).asked .solver (atLast plansDir)).outcome = .ok ⟨"done", "", none, ""⟩ := by
  obtain ⟨hreplies, htoken⟩ :=
    replies_atSolver (keeper plansDir) ⟨"no steps", "", none, ""⟩ (atSecond plansDir)
  unfold asked atLast
  rw [hreplies, htoken]
  rfl

theorem dated_someBirths : someBirths.Dated := by
  have ht : Instant.clockSeconds ⟨2025, 3, 1, 9, 30, 0, 0, some 0⟩ < Instant.lastSeconds := by
    decide +kernel
  exact fun _ => Instant.exists_timestamp rfl ht

theorem plain_someBirths : someBirths.Plain := by
  intro n c hc
  have hdigit : c.isDigit = true := by
    rw [someBirths, Nat.toString_eq_ofList_toDigits, String.toList_ofList] at hc
    exact Nat.isDigit_of_mem_toDigits (by decide) (by decide) hc
  exact .inl (by rw [Char.isAlphanum, hdigit, Bool.or_true])

/-- In the default directory of an empty workspace the plan can be kept, and the answer is told. -/
theorem answerKept_take_planning :
    AnswerKept ((keeper ".planmode/plans").take someBirths
      ((keeper ".planmode/plans").after someBirths (.fresh (.directory []) []) []) planning) "done" := by
  obtain ⟨document, hdocument, hiff, -⟩ := answerKept_take_iff (keepsInWorkspace_keeper ".planmode/plans")
    (opened_keeper ".planmode/plans") dated_someBirths plain_someBirths (.directory []) [] []
    (starts_planning ".planmode/plans") (asked_planning ".planmode/plans")
  have hencoded : ((Document.render ((keeper ".planmode/plans").solved ⟨"done", "", none, ""⟩
      (atLast ".planmode/plans")).session).toOption.bind Text.encode?).isSome = true := by decide +kernel
  rw [hdocument] at hencoded
  refine hiff.mpr fun root hr => ?_
  obtain rfl := Option.some.inj hr
  refine ⟨by decide, fun htoo => absurd htoo.1 (by decide), fun hnone => ?_⟩
  rw [Except.toOption, Option.bind_some, hnone] at hencoded
  contradiction

/-- A directory with the character that no path may hold: the solver answers, and the turn fails. -/
theorem not_answerKept_take_nul :
    (keeper "a\x00b").Starts someBirths (.fresh (.directory []) []) planning .solver (atLast "a\x00b") ∧
      ((keeper "a\x00b").asked .solver (atLast "a\x00b")).outcome = .ok ⟨"done", "", none, ""⟩ ∧
      ((keeper "a\x00b").take someBirths (.fresh (.directory []) []) planning).result.toOption.map
        (·.outcome) = some .failed ∧
      ¬ AnswerKept ((keeper "a\x00b").take someBirths (.fresh (.directory []) []) planning) "done" := by
  have hfailed : ((keeper "a\x00b").take someBirths (.fresh (.directory []) [])
      planning).result.toOption.map (·.outcome) = some .failed := by decide +kernel
  refine ⟨starts_planning _, asked_planning _, hfailed, ?_⟩
  rintro ⟨result, s, hresult, -, ho, -⟩
  rw [hresult] at hfailed
  have houtcome : result.outcome = .failed := Option.some.inj hfailed
  rw [ho] at houtcome
  contradiction

end Engine
end PlanAssistant
