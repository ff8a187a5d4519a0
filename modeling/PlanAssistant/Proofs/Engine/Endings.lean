import PlanAssistant.Proofs.Engine.Trace
import PlanAssistant.Proofs.Model.Interruption

/-!
How turns end.  Where documents can be made, and can be kept or fail only for a reason of the file
system, a turn ends with its session published: on a question, completed, or in front of the stage that
gave no output.  A turn without a result is one whose last query was interrupted from outside, or is
waited for for ever; with an endpoint, that is owed to a reply of the model.
-/
namespace PlanAssistant

/-! ### What is shown -/

/-- The last snapshot is the session at hand. -/
def Turn.Shown {ρ κ : Type} (turn : Turn ρ κ) : Prop :=
  turn.history.getLast?.map (·.session) = some turn.session

theorem Turn.shown_publish {ρ κ : Type} (turn : Turn ρ κ) : turn.publish.Shown := by
  unfold Shown publish
  rw [List.getLast?_concat]
  rfl

/-- The statuses that a turn can stop in half-way. -/
def Status.halfway : List Status := [orchestrating, planning, solving]

/-- The statuses that go with an outcome. -/
def Outcome.GoesWith (status : Status) : Outcome → Prop
  | clarification => status = .awaitingClarification
  | completed => status = .completed
  | failed => status ∈ Status.halfway
  | cancelled => status ∈ Status.halfway

/-- The status of a question goes with no other outcome, and that of a finished plan neither. -/
theorem Outcome.GoesWith.iff {outcome : Outcome} {status : Status} (h : outcome.GoesWith status) :
    (outcome = .clarification ↔ status = .awaitingClarification) ∧
      (outcome = .completed ↔ status = .completed) ∧
      (outcome = .failed ∨ outcome = .cancelled → status ∈ Status.halfway) := by
  cases outcome with
  | clarification =>
    obtain rfl : status = .awaitingClarification := h
    decide
  | completed =>
    obtain rfl : status = .completed := h
    decide
  | failed | cancelled =>
    have hne : status ≠ .awaitingClarification ∧ status ≠ .completed :=
      (by decide : ∀ status ∈ Status.halfway, status ≠ .awaitingClarification ∧ status ≠ .completed)
        status h
    exact ⟨⟨fun ho => (nomatch ho), fun hs => absurd hs hne.1⟩,
      ⟨fun ho => (nomatch ho), fun hs => absurd hs hne.2⟩, fun _ => h⟩

/-- Only a query that was interrupted from outside, or is never answered, leaves a turn without a
result. -/
theorem Stop.ofCallError_eq_escaped {error : CallError} {escape : Escape}
    (h : ofCallError error = escaped escape) :
    (escape = .interrupted ∧ ∃ failure, error = .raised failure ∧ failure.kind = .interrupted) ∨
      (escape = .endless ∧ error = .endless) := by
  cases error with
  | raised failure =>
    simp only [ofCallError] at h
    split at h
    · next hk =>
      obtain rfl := Stop.escaped.inj h
      exact .inl ⟨rfl, failure, rfl, beq_iff_eq.mp hk⟩
    · contradiction
  | endless =>
    obtain rfl := Stop.escaped.inj h
    exact .inr ⟨rfl, rfl⟩
  | _ => contradiction

/-- Every session begins at a time of the UTC calendar. -/
def Births.Dated (births : Births) : Prop := ∀ n, ∃ stamp, (births n).2.timestamp = .ok stamp

/-- A UTC time of the years 1 to 9999 has its time stamp. -/
theorem Instant.exists_timestamp {t : Instant} (ho : t.offset = some 0)
    (ht : t.clockSeconds < lastSeconds) : ∃ stamp, t.timestamp = .ok stamp := by
  have hr : ¬ ((decide ((t.clockSeconds : Int) - 0 * 60 < 0) ||
      decide ((lastSeconds : Int) ≤ t.clockSeconds - 0 * 60)) = true) := by
    rw [Bool.or_eq_true, decide_eq_true_iff, decide_eq_true_iff]
    omega
  unfold timestamp toUtc
  rw [ho]
  dsimp only
  rw [if_neg hr]
  exact ⟨_, rfl⟩

/-- Documents are kept, or fail to be for a reason of the file system. -/
def Document.Sink.Sound (sink : Document.Sink) : Prop :=
  ∀ files s text error, (sink files s text).2 = .error error → ∃ reason, error = .file reason

namespace Engine

variable {ρ κ : Type} {engine : Engine ρ κ}

section

variable [Interpreter]

theorem keeping?_ne_none (hk : engine.sink.Sound) (files : Files.Node) {s : Session}
    (hd : ∃ stamp, s.createdAt.timestamp = .ok stamp) : engine.keeping? files s ≠ none := by
  obtain ⟨stamp, hd⟩ := hd
  unfold keeping? Document.render
  rw [hd]
  simp only [Except.map]
  intro h
  split at h
  · contradiction
  · contradiction
  · next error hf hs =>
    obtain ⟨reason, rfl⟩ := hk files s _ error (by rw [hs])
    exact hf _ rfl

theorem shown_waited (stage : Stage) {turn : Turn ρ κ} (h : turn.Shown) :
    (engine.waited stage turn).Shown := h

theorem shown_atPlanner (output : StageOutput) (turn : Turn ρ κ) :
    (engine.atPlanner output turn).Shown := by
  unfold atPlanner Turn.publishWith
  exact Turn.shown_publish _

theorem shown_atSolver (output : StageOutput) (turn : Turn ρ κ) :
    (engine.atSolver output turn).Shown := by
  unfold atSolver Turn.publishWith
  exact Turn.shown_publish _

omit [Interpreter] in
theorem shown_completed (saveFailed : Bool) (turn : Turn ρ κ) : (completed saveFailed turn).Shown := by
  unfold completed Turn.publishWith
  exact Turn.shown_publish _

/-! ### How a course ends -/

/-- A turn stopped in a query of its last stage. -/
structure StopsIn (engine : Engine ρ κ) (stop : Stop) (last : Turn ρ κ) : Prop where
  status : last.session.status ∈ Status.halfway
  asked : ∀ escape, stop = .escaped escape → ∃ stage before error,
    last = engine.waited stage before ∧ (engine.asked stage before).outcome = .error error ∧
      .ofCallError error = stop

/-- How the end of a turn goes with the session it leaves. -/
def EndsOn (engine : Engine ρ κ) (last : Turn ρ κ) : Except Stop (Outcome × String) → Prop
  | .ok (outcome, _) => outcome.GoesWith last.session.status
  | .error stop => engine.StopsIn stop last

theorem endsOn_course (hk : engine.sink.Sound) {turn last : Turn ρ κ}
    {ended : Except Stop (Outcome × String)} (h : Course engine turn ended last)
    (hs : turn.session.status = .orchestrating) (hw : turn.Shown)
    (hd : ∃ stamp, turn.session.createdAt.timestamp = .ok stamp) :
    engine.EndsOn last ended ∧ last.Shown := by
  cases h with
  | undecided asked =>
    refine ⟨⟨?_, fun _ _ => ⟨_, _, _, rfl, asked, rfl⟩⟩, hw⟩
    rw [session_waited, hs]
    decide
  | unreadable =>
    refine ⟨⟨?_, fun _ h => nomatch h⟩, hw⟩
    rw [session_served, hs]
    decide
  | questioned => exact ⟨rfl, Turn.shown_publish _⟩
  | unplanned _ _ _ planned =>
    refine ⟨⟨?_, fun _ _ => ⟨_, _, _, rfl, planned, rfl⟩⟩, shown_waited _ (shown_atPlanner _ _)⟩
    rw [session_waited, session_atPlanner]
    dsimp only
    decide
  | unsolved _ _ _ _ solved =>
    refine ⟨⟨?_, fun _ _ => ⟨_, _, _, rfl, solved, rfl⟩⟩, shown_waited _ (shown_atSolver _ _)⟩
    rw [session_waited, session_atSolver]
    dsimp only
    decide
  | unkept _ _ _ _ _ reached kept =>
    refine absurd kept (keeping?_ne_none hk _ ?_)
    rw [reached, session_solved, session_atSolver, session_atPlanner]
    exact hd
  | finished =>
    refine ⟨?_, shown_completed _ _⟩
    change Status.completed = .completed
    rfl

/-! ### How a turn ends -/

/-- The turn ended with its session published, in a status that goes with its result. -/
structure Ends (engine : Engine ρ κ) (report : TurnReport ρ κ) (s : Session) : Prop where
  held : report.memory.session = some s
  shown : report.memory.history.getLast?.map (·.session) = some s
  clarification : ∀ result, report.result = .ok result →
    (result.outcome = .clarification ↔ s.status = .awaitingClarification)
  completed : ∀ result, report.result = .ok result →
    (result.outcome = .completed ↔ s.status = .completed)
  stopped : ∀ result, report.result = .ok result →
    result.outcome = .failed ∨ result.outcome = .cancelled → s.status ∈ Status.halfway
  /-- A turn without a result leaves its session half-way as well, and its last query tells why. -/
  escaped : ∀ escape, report.result = .error escape → s.status ∈ Status.halfway ∧
    ∃ stage before error, report.memory = closeTurn report.memory.born (engine.waited stage before) ∧
      report.events = (engine.waited stage before).events ∧
      (engine.asked stage before).outcome = .error error ∧
      ((escape = .interrupted ∧ ∃ failure, error = .raised failure ∧ failure.kind = .interrupted) ∨
        (escape = .endless ∧ error = .endless))

theorem goesWith_result {last : Turn ρ κ} {ended : Except Stop (Outcome × String)}
    (h : engine.EndsOn last ended) {r : TurnResult} (hr : result last ended = .ok r) :
    r.outcome.GoesWith last.session.status := by
  cases ended with
  | ok pair =>
    obtain rfl := Except.ok.inj hr
    exact h
  | error stop =>
    cases stop with
    | cancelled | failed =>
      obtain rfl := Except.ok.inj hr
      exact h.status
    | escaped escape => nomatch hr

theorem ends_of_endsOn {last : Turn ρ κ} {ended : Except Stop (Outcome × String)}
    (h : engine.EndsOn last ended) (hw : last.Shown) (born : Nat) :
    engine.Ends ⟨result last ended, closeTurn born last, last.events⟩ last.session := by
  refine ⟨rfl, hw, ?_, ?_, ?_, ?_⟩
  · exact fun r hr => (goesWith_result h hr).iff.1
  · exact fun r hr => (goesWith_result h hr).iff.2.1
  · exact fun r hr => (goesWith_result h hr).iff.2.2
  · intro escape he
    cases ended with
    | ok pair => nomatch he
    | error stop =>
      cases stop with
      | cancelled | failed => nomatch he
      | escaped e =>
        obtain rfl := Except.error.inj he
        obtain ⟨stage, before, error, rfl, asked, hstop⟩ := h.asked e rfl
        exact ⟨h.status, stage, before, error, rfl, rfl, asked, Stop.ofCallError_eq_escaped hstop⟩

/-- After any inputs, the turn on one more ends with the session published as it is left, in a status
that goes with the outcome; and where the queries go to an endpoint, what keeps a turn from a result is
owed to the replies. -/
theorem ends_take (engine : Engine ρ κ) {births : Births} (hk : engine.sink.Sound) (hb : births.Dated)
    (files : Files.Node) (replies : ρ) (submissions : List (Submission ρ))
    (submission : Submission ρ) :
    (∃ s, engine.Ends
      (engine.take births (engine.after births (.fresh files replies) submissions) submission) s) ∧
    ∀ (endpoint : Endpoint) (query : Query) (watch : Watch) (token : Token) (left : List Reply)
      (error : CallError), (endpoint.provider.run query watch token left).outcome = .error error →
        error.OwedTo token left := by
  refine ⟨?_, fun endpoint _ _ _ _ _ h => endpoint.owedTo_run h⟩
  have hm := engine.lawful_after births files replies submissions
  generalize engine.after births (.fresh files replies) submissions = memory at hm
  let found : Memory ρ := { memory with files := submission.files, replies := submission.replies }
  have hf : ∀ s, found.session = some s → s.Consistent ∧ s.birth = births found.born := hm.held
  obtain ⟨s, ended, turn, ho, hcourse, he⟩ :=
    submit_course engine births (fun s hs => (hf s hs).1) submission.input
  have hd : ∃ stamp, s.createdAt.timestamp = .ok stamp := by
    have hbirth : s.createdAt = (births (bornAfter found)).2 := congrArg Prod.snd (ho.birth hf)
    rw [hbirth]
    exact hb (bornAfter found)
  obtain ⟨hon, hw⟩ := endsOn_course hk hcourse (ho.status_pending fun s hs => (hf s hs).1).1
    (Turn.shown_publish _) hd
  have hr : engine.take births memory submission = _ := he
  rw [hr]
  exact ⟨turn.session, ends_of_endsOn hon hw _⟩

end

/-- A turn whose first call is interrupted, without a workspace. -/
theorem ends_take_interrupted :
    let engine := Engine.ofModel default {} [] .none false false
    let births : Births := fun n => (toString n, ⟨2025, 3, 1, 9, 30, 0, 0, some 0⟩)
    engine.sink.Sound ∧ births.Dated ∧
      ∃ s, engine.Ends (engine.take births (engine.after births (.fresh (.directory []) []) [])
        ⟨⟨"task", .live, none⟩, .directory [], [.failure ⟨.interrupted, ""⟩]⟩) s := by
  intro engine births
  have hk : engine.sink.Sound := fun _ _ _ _ h => nomatch h
  have ht : Instant.clockSeconds ⟨2025, 3, 1, 9, 30, 0, 0, some 0⟩ < Instant.lastSeconds := by
    decide +kernel
  have hb : births.Dated := fun _ => Instant.exists_timestamp rfl ht
  exact ⟨hk, hb, (ends_take engine hk hb _ _ _ _).1⟩

end Engine
end PlanAssistant
