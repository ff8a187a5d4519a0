import PlanAssistant.Proofs.Engine.Stages
import PlanAssistant.Proofs.Model.Cancellation

/-!
Turns that the user cancels.  A turn whose token is cancelled before a stage, while a call of the stage
stays unanswered, or just before a chunk of its stream arrives, ends there and leaves everything as it
was when the stage began: the session in the status of the stage, the files, and what the user was told.
After that no call is made and nothing is streamed.
-/
namespace PlanAssistant

/-- However the user cuts a query short, the turn is cancelled. -/
theorem Stop.ofCallError_of_cut {error : CallError} {displayName : String}
    (h : error = .cancelled ∨ error = .abandoned displayName) : ofCallError error = cancelled := by
  rcases h with rfl | rfl <;> rfl

namespace Engine

section Cancelled

variable [Interpreter] {ρ κ : Type}

/-- A turn that comes to a stage which gives no output ends there. -/
theorem Course.eq_waited {engine : Engine ρ κ} {turn before last : Turn ρ κ} {stage : Stage}
    {ended : Except Stop (Outcome × String)} {error : CallError} (hc : Course engine turn ended last)
    (hr : engine.Reaches turn stage before) (he : (engine.asked stage before).outcome = .error error) :
    ended = .error (.ofCallError error) ∧ last = engine.waited stage before := by
  cases hr with
  | orchestrator =>
    cases hc with
    | undecided asked =>
      obtain rfl := Except.error.inj (asked.symm.trans he)
      exact ⟨rfl, rfl⟩
    | unreadable asked | questioned asked | unplanned asked | unsolved asked | unkept asked
    | finished asked =>
      exact nomatch he.symm.trans asked
  | planner asked parsed decided =>
    cases hc with
    | undecided | unreadable | questioned => simp_all
    | unplanned asked' _ _ planned =>
      obtain rfl := Except.ok.inj (asked.symm.trans asked')
      obtain rfl := Except.error.inj (planned.symm.trans he)
      exact ⟨rfl, rfl⟩
    | unsolved asked' _ _ planned | unkept asked' _ _ planned | finished asked' _ _ planned =>
      obtain rfl := Except.ok.inj (asked.symm.trans asked')
      exact nomatch he.symm.trans planned
  | solver asked parsed decided planned =>
    cases hc with
    | undecided | unreadable | questioned | unplanned => simp_all
    | unsolved asked' _ _ planned' solved =>
      obtain rfl := Except.ok.inj (asked.symm.trans asked')
      obtain rfl := Except.ok.inj (planned.symm.trans planned')
      obtain rfl := Except.error.inj (solved.symm.trans he)
      exact ⟨rfl, rfl⟩
    | unkept asked' _ _ planned' solved | finished asked' _ _ planned' solved =>
      obtain rfl := Except.ok.inj (asked.symm.trans asked')
      obtain rfl := Except.ok.inj (planned.symm.trans planned')
      exact nomatch he.symm.trans solved

/-- The turn on a submission was cancelled in a stage, with some calls made and some progress reported
in this stage until then. -/
structure Cancels (engine : Engine ρ κ) (births : Births) (memory : Memory ρ)
    (submission : Submission ρ) (stage : Stage) (before : Turn ρ κ) (calls : List (Attempt κ))
    (reports : List Progress) (rest : ρ) : Prop where
  result : (engine.take births memory submission).result =
    .ok ⟨.cancelled, before.session.id, "", before.cost⟩
  /-- The session is the one the stage began with. -/
  session : (engine.take births memory submission).memory.session = some before.session
  status : before.session.status = stage.status
  /-- Nothing was published since, so the last snapshot shows this session. -/
  history : (engine.take births memory submission).memory.history = before.history
  shown : before.history.getLast?.map (·.session) = some before.session
  files : (engine.take births memory submission).memory.files = submission.files
  chat : (engine.take births memory submission).memory.chat =
    memory.chat ++ [⟨.user, Text.strip submission.input.text⟩]
  lastResponse : (engine.take births memory submission).memory.lastResponse = memory.lastResponse
  /-- No call is made after the given ones, and nothing is streamed after the given reports. -/
  events : (engine.take births memory submission).events =
    before.events ++ .began stage (engine.settings.stepBudget stage.floor) ::
      (calls.map .attempted ++ reports.map (.streamed stage))
  replies : (engine.take births memory submission).memory.replies = rest

/-- A turn is cancelled in a stage whose query is. -/
theorem cancels_of_asked {engine : Engine ρ κ} {births : Births} {memory : Memory ρ}
    (hc : ∀ s, memory.session = some s → s.Consistent) {submission : Submission ρ} {stage : Stage}
    {before : Turn ρ κ} (hs : engine.Starts births memory submission stage before) {error : CallError}
    {calls : List (Attempt κ)} {reports : List Progress} {rest : ρ}
    (hasked : engine.asked stage before = ⟨.error error, calls, reports, .cancelled, rest⟩)
    (herror : Stop.ofCallError error = .cancelled) :
    engine.Cancels births memory submission stage before calls reports rest := by
  obtain ⟨s, ho, hr⟩ := hs
  obtain ⟨s', ended, last, ho', hcourse, htake⟩ := engine.take_course hc submission
  obtain rfl := ho.unique ho'
  obtain ⟨hended, hlast⟩ := hcourse.eq_waited hr (by rw [hasked])
  have hreport : engine.take births memory submission =
      ⟨result (engine.waited stage before) (.error .cancelled),
        closeTurn (bornAfter memory) (engine.waited stage before), (engine.waited stage before).events⟩ := by
    rw [htake, hended, hlast, herror]
  have hopen : (opening (memory.found submission) submission.input s : Turn ρ κ).session.status =
      .orchestrating := (ho.status_pending hc).1
  obtain ⟨plan, records, hsession⟩ := hr.session_eq hopen
  have hdiscreet := hr.discreet
  refine ⟨?_, ?_, ?_, ?_, hr.shown (Turn.shown_publish _), ?_, ?_, ?_, ?_, ?_⟩
  · rw [hreport]
    rfl
  · rw [hreport]
    rfl
  · rw [hsession]
  · rw [hreport]
    rfl
  · rw [hreport]
    exact hdiscreet.files
  · rw [hreport]
    exact hdiscreet.chat
  · rw [hreport]
    exact hdiscreet.lastResponse
  · rw [hreport]
    dsimp only
    rw [events_waited, span, hasked]
  · rw [hreport]
    change (engine.asked stage before).rest = rest
    rw [hasked]

/-- After any inputs, a turn that comes to a stage whose query the user cuts short is cancelled
there. -/
theorem cancels_take {endpoint : Endpoint} {engine : Engine (List Reply) Request}
    (hp : engine.provider = endpoint.provider) (births : Births) (files : Files.Node)
    (replies : List Reply) (submissions : List (Submission (List Reply)))
    {submission : Submission (List Reply)} {stage : Stage} {before : Turn (List Reply) Request}
    (hs : engine.Starts births (engine.after births (.fresh files replies) submissions) submission stage
      before)
    {calls : List (Attempt Request)} {reports : List Progress} {rest : List Reply}
    (hcut : endpoint.Cut (engine.query stage (stage.messages before.session))
      ⟨engine.watched, before.nextInterrupt⟩ before.token before.replies calls reports rest) :
    engine.Cancels births (engine.after births (.fresh files replies) submissions) submission stage
      before calls reports rest := by
  have hm := engine.lawful_after births files replies submissions
  obtain ⟨error, hrun, herror⟩ := endpoint.run_cut hcut
  have hasked : engine.asked stage before = ⟨.error error, calls, reports, .cancelled, rest⟩ := by
    rw [asked, hp, hrun]
  exact cancels_of_asked (fun s h => (hm.held s h).1) hs hasked (Stop.ofCallError_of_cut herror)

end Cancelled

/-- The user interrupts before the second chunk of the orchestrator's stream, after a failed call. -/
theorem cancels_take_second_chunk :
    let endpoint := Endpoint.open default {} []
    let engine := Engine.ofModel default {} [] .none true false
    let births : Births := fun n => (toString n, ⟨2025, 3, 1, 9, 30, 0, 0, some 0⟩)
    let chunk (text : String) : Chunk := ⟨some ⟨some text, none⟩, none⟩
    let submission : Submission (List Reply) :=
      ⟨⟨"task", .live, none⟩, .directory [], [.failure ⟨.rateLimit, ""⟩,
        .stream [⟨false, .ok (chunk "a")⟩, ⟨true, .ok (chunk "b")⟩]]⟩
    let memory := engine.after births (.fresh (.directory []) []) []
    engine.provider = endpoint.provider ∧
      ∃ before calls,
        engine.Starts births memory submission .orchestrator before ∧
        endpoint.Cut (engine.query .orchestrator (Stage.orchestrator.messages before.session))
          ⟨engine.watched, before.nextInterrupt⟩ before.token before.replies calls
          [⟨"a", "", "a", 1, false⟩] [] ∧
        engine.Cancels births memory submission .orchestrator before calls [⟨"a", "", "a", 1, false⟩]
          [] := by
  intro endpoint engine births chunk submission memory
  obtain ⟨timeout, ht⟩ : ∃ timeout, Decimal.ofInt? engine.settings.timeout = some timeout :=
    Option.isSome_iff_exists.mp (by decide +kernel)
  let before : Turn (List Reply) Request := opening (memory.found submission) submission.input
    ((Session.start (births 1).1 (births 1).2 (Text.strip "task")).hear (Text.strip "task"))
  have hs : engine.Starts births memory submission .orchestrator before :=
    ⟨_, .started fun _ h => (nomatch h), .orchestrator⟩
  have hcut : endpoint.Cut (engine.query .orchestrator (Stage.orchestrator.messages before.session))
      ⟨engine.watched, before.nextInterrupt⟩ before.token before.replies
      (Endpoint.callsAfter (endpoint.request
        (engine.query .orchestrator (Stage.orchestrator.messages before.session)) timeout) 1)
      [⟨"a", "", "a", 1, false⟩] [] :=
    @Endpoint.Cut.arriving endpoint _ _ timeout [⟨.rateLimit, ""⟩] [chunk "a"] _ [] [] ht (by decide)
      (by decide) ⟨⟨chunk "b", rfl⟩, nofun, .inl rfl⟩
  exact ⟨rfl, before, _, hs, hcut, cancels_take rfl births _ _ _ hs hcut⟩

end Engine
end PlanAssistant
