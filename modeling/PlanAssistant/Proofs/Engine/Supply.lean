import PlanAssistant.Proofs.Engine.Stages
import PlanAssistant.Proofs.Model.Remainder

/-!
The replies that turns live on.  A turn on an endpoint takes its replies from the front, a question has
used at least one of them, and while none of them is interrupted from outside and the user can interrupt,
every turn has a result.
-/
namespace PlanAssistant

/-- No call is interrupted from outside, and no stream. -/
def Calm (replies : List Reply) : Prop :=
  ∀ reply ∈ replies, ∀ failure, reply.FailsWith failure → failure.kind ≠ .interrupted

theorem Calm.of_suffix {replies rest : List Reply} (h : Calm replies) (hs : rest <:+ replies) : Calm rest :=
  fun reply hm => h reply (hs.subset hm)

/-- A turn lives on the last ones of some replies, and the user can interrupt it. -/
structure Turn.Supplied {κ : Type} (replies : List Reply) (turn : Turn (List Reply) κ) : Prop where
  left : turn.replies <:+ replies
  token : turn.token ≠ .absent

namespace Engine

variable [Interpreter]

section Escaping

variable {ρ κ : Type} {engine : Engine ρ κ} {turn last : Turn ρ κ}
  {ended : Except Stop (Outcome × String)}

/-- What keeps a turn from a result is the error of a stage that it came to. -/
theorem Course.asked_of_escaped (hc : Course engine turn ended last) {escape : Escape}
    (he : ended = .error (.escaped escape)) :
    ∃ stage before error, engine.Reaches turn stage before ∧
      (engine.asked stage before).outcome = .error error ∧ .ofCallError error = Stop.escaped escape := by
  cases hc with
  | undecided asked => exact ⟨_, _, _, .orchestrator, asked, Except.error.inj he⟩
  | unplanned asked parsed decided planned =>
    exact ⟨_, _, _, .planner asked parsed decided, planned, Except.error.inj he⟩
  | unsolved asked parsed decided planned solved =>
    exact ⟨_, _, _, .solver asked parsed decided planned, solved, Except.error.inj he⟩
  | unreadable | questioned | unkept | finished => nomatch he

end Escaping

section Supplying

variable {engine : Engine (List Reply) Request} {endpoint : Endpoint}
  {turn before last : Turn (List Reply) Request} {ended : Except Stop (Outcome × String)}
  {replies : List Reply}

theorem supplied_waited (hp : engine.provider = endpoint.provider) (h : turn.Supplied replies)
    (stage : Stage) : (engine.waited stage turn).Supplied replies := by
  have hrest : (engine.asked stage turn).rest <:+ turn.replies := by
    unfold asked
    rw [hp]
    exact endpoint.suffix_run
  have htoken : (engine.asked stage turn).token ≠ .absent := by
    unfold asked
    rw [hp]
    exact endpoint.token_run h.token
  exact ⟨hrest.trans h.left, htoken⟩

theorem supplied_served (hp : engine.provider = endpoint.provider) (h : turn.Supplied replies)
    (stage : Stage) (output : StageOutput) : (engine.served stage output turn).Supplied replies :=
  have hw := supplied_waited hp h stage
  ⟨hw.left, hw.token⟩

theorem supplied_of_reaches (hp : engine.provider = endpoint.provider) (h : turn.Supplied replies)
    {stage : Stage} (hr : engine.Reaches turn stage before) : before.Supplied replies :=
  hr.induct (P := Turn.Supplied replies) h (fun _ _ ht => ⟨ht.left, ht.token⟩)
    fun stage output _ _ ht => supplied_served hp ht stage output

/-- Whatever course a turn takes, it leaves the last ones of the replies it found. -/
theorem supplied_of_course (hp : engine.provider = endpoint.provider) (h : turn.Supplied replies)
    (hc : Course engine turn ended last) : last.Supplied replies :=
  hc.induct (P := Turn.Supplied replies) h (fun _ _ ht => ⟨ht.left, ht.token⟩)
    (fun stage _ _ ht => supplied_waited hp ht stage)
    (fun stage output _ _ ht => supplied_served hp ht stage output)
    fun _ _ _ _ _ ht => ⟨ht.left, ht.token⟩

/-- While nothing is interrupted from outside, a turn has a result. -/
theorem exists_result_of_course (hp : engine.provider = endpoint.provider) (h : turn.Supplied replies)
    (hcalm : Calm replies) (hc : Course engine turn ended last) : ∃ r, result last ended = .ok r := by
  cases ended with
  | ok pair => exact ⟨_, rfl⟩
  | error stop =>
    cases stop with
    | cancelled | failed => exact ⟨_, rfl⟩
    | escaped escape =>
      obtain ⟨stage, before, error, hr, asked, hstop⟩ := hc.asked_of_escaped rfl
      have hs := supplied_of_reaches hp h hr
      unfold Engine.asked at asked
      rw [hp] at asked
      have howed := endpoint.owedTo_run asked
      rcases Stop.ofCallError_eq_escaped hstop with ⟨-, failure, rfl, hk⟩ | ⟨-, rfl⟩
      · obtain ⟨reply, hm, hf⟩ := howed.interrupted failure rfl hk
        exact absurd hk (hcalm.of_suffix hs.left reply hm failure hf)
      · exact absurd (howed.endless rfl).1 hs.token

/-- A question has used up a reply. -/
theorem length_of_question (hp : engine.provider = endpoint.provider) {response : String}
    (hc : Course engine turn (.ok (.clarification, response)) last) :
    last.replies.length < turn.replies.length := by
  cases hc with
  | questioned asked =>
    have hl : (engine.asked .orchestrator turn).rest.length < turn.replies.length := by
      unfold Engine.asked at asked ⊢
      rw [hp] at asked ⊢
      exact endpoint.length_run_of_ok asked
    exact hl

/-- A turn in which the user can interrupt leaves the last ones of the replies it finds, fewer of them
after a question; and while nothing is interrupted from outside, it has a result. -/
theorem supplied_take (hp : engine.provider = endpoint.provider) {births : Births}
    {memory : Memory (List Reply)} (hc : ∀ s, memory.session = some s → s.Consistent)
    {submission : Submission (List Reply)} (ht : submission.input.token ≠ .absent) :
    let report := engine.take births memory submission
    report.memory.replies <:+ submission.replies ∧
      (∀ r, report.result = .ok r → r.outcome = .clarification →
        report.memory.replies.length < submission.replies.length) ∧
      (Calm submission.replies → ∃ r, report.result = .ok r) := by
  intro report
  obtain ⟨s, ended, turn, -, hcourse, he⟩ := engine.take_course hc submission
  have hr : report = _ := he
  have hopen : (opening (memory.found submission) submission.input s : Turn (List Reply) Request).Supplied
      submission.replies := ⟨List.suffix_rfl, ht⟩
  rw [hr]
  refine ⟨(supplied_of_course hp hopen hcourse).left, fun r hres hq => ?_, fun hcalm => ?_⟩
  · obtain ⟨response, rfl⟩ := ended_of_question hres hq
    exact length_of_question hp hcourse
  · exact exists_result_of_course hp hopen hcalm hcourse

end Supplying
end Engine
end PlanAssistant
