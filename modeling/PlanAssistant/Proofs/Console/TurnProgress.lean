import PlanAssistant.Console.Dialogue
import PlanAssistant.Proofs.Console.Following
import PlanAssistant.Proofs.Console.StepLines

/-!
One turn of a dialogue, followed on its terminal.  The events of a turn tell of all that it publishes, and
that is staged; so by the time the result is shown, all lines for it are printed, and nothing that is
shown of the result looks like one.  A turn that puts a question has run no steps, and leaves the dialogue
as it was found.
-/
namespace PlanAssistant

/-! ### What the events tell -/

namespace Turn

variable {ρ κ : Type}

/-- The sessions published before a turn, and then those that its events tell of, are all there are. -/
def TellsAll (earlier : List Session) (turn : Turn ρ κ) : Prop :=
  turn.history.map (·.session) = earlier ++ turn.events.filterMap Event.shown?

theorem TellsAll.publishWith {turn : Turn ρ κ} {earlier : List Session} (h : turn.TellsAll earlier)
    (change : Session → Session) : (turn.publishWith change).TellsAll earlier := by
  unfold TellsAll at h ⊢
  rw [history_publishWith, Update.map_session_extend, h, List.append_assoc]
  change _ = earlier ++ (turn.events ++ [_]).filterMap Event.shown?
  rw [List.filterMap_append]
  rfl

end Turn

variable [Interpreter]

namespace Engine

open Turn

variable {ρ κ : Type} {engine : Engine ρ κ} {turn last : Turn ρ κ} {earlier : List Session}

theorem tellsAll_waited (h : turn.TellsAll earlier) (stage : Stage) :
    (engine.waited stage turn).TellsAll earlier := by
  have hspan : (engine.span stage turn).filterMap Event.shown? = [] := by
    rw [List.filterMap_eq_nil_iff]
    intro event he
    simp only [span, List.mem_cons, List.mem_append, List.mem_map] at he
    rcases he with rfl | ⟨_, -, rfl⟩ | ⟨_, -, rfl⟩ <;> rfl
  unfold TellsAll at h ⊢
  rw [history_waited, events_waited, List.filterMap_append, hspan, List.append_nil, h]

theorem tellsAll_served (h : turn.TellsAll earlier) (stage : Stage) (output : StageOutput) :
    (engine.served stage output turn).TellsAll earlier := by
  have hw : (engine.waited stage turn).TellsAll earlier := tellsAll_waited h stage
  unfold TellsAll at hw ⊢
  unfold served Turn.account
  dsimp only
  rw [hw, List.filterMap_append]
  split <;> simp [Event.shown?]

/-- Whatever course a turn takes, its events tell of all that it publishes. -/
theorem tellsAll_of_course {ended : Except Stop (Outcome × String)} (h : turn.TellsAll earlier)
    (hc : Course engine turn ended last) : last.TellsAll earlier :=
  hc.induct (P := TellsAll earlier) h (fun change _ ht => ht.publishWith change)
    (fun stage _ _ ht => tellsAll_waited ht stage)
    (fun stage output _ _ ht => tellsAll_served ht stage output) fun _ _ _ _ _ ht => ht

/-- A turn that puts a question publishes nothing but that it waits for the answer. -/
theorem Course.history_of_question {response : String}
    (h : Course engine turn (.ok (.clarification, response)) last) :
    ∃ s, last.history = Update.extend turn.history [s] ∧ s.status = .awaitingClarification := by
  cases h with
  | questioned => exact ⟨_, rfl, rfl⟩

end Engine

/-! ### One turn on the terminal -/

namespace Dialogue

open Printer

variable {ρ κ : Type}

/-- The snapshots published so far. -/
def published (dialogue : Dialogue ρ) : List Session := dialogue.memory.history.map (·.session)

section Turns

variable (engine : Engine ρ κ) (births : Births) (dialogue : Dialogue ρ) (text : String)

/-- What comes of an input. -/
def report : TurnReport ρ κ := engine.submit births dialogue.memory { text, token := .live }

/-- The terminal at the end of a turn, before anything is shown of the result. -/
def followed : Terminal :=
  ((dialogue.terminal.followAll (dialogue.report engine births text).events).stopSpinner).drain

/-- What is shown of the result. -/
def said : List Action :=
  match (dialogue.report engine births text).result with
  | .error _ => []
  | .ok result => (conclude (dialogue.cost + result.cost) result).1

/-- Nothing that is shown of a result looks like progress. -/
theorem progressOf_said : Action.progressOf (dialogue.said engine births text) = [] := by
  refine Action.progressOf_eq_nil fun action ha => ?_
  unfold said at ha
  split at ha
  · contradiction
  · next result _ =>
    unfold conclude at ha
    split at ha
    · rw [List.mem_singleton.mp ha]
      decide
    · rw [List.mem_singleton.mp ha]
      exact Action.not_isProgress_print (by decide) _
    · rcases List.mem_pair.mp ha with rfl | rfl
      · rfl
      · unfold costLine
        rw [String.append_assoc]
        exact Action.not_isProgress_print (by decide) _
    · rcases List.mem_pair.mp ha with rfl | rfl <;> rfl

theorem memory_turn :
    (dialogue.turn engine births text).1.memory = (dialogue.report engine births text).memory := by
  unfold turn report
  dsimp only
  split
  · rfl
  · split <;> rfl

omit [Interpreter] in
theorem conclude_asks {cost : Float} {result : TurnResult} (h : (conclude cost result).2 = .asks) :
    result.outcome = .clarification := by
  unfold conclude at h
  split at h
  · contradiction
  · contradiction
  · contradiction
  · assumption

/-- A dialogue goes on only after a question. -/
theorem turn_of_asks (h : (dialogue.turn engine births text).2 = .asks) :
    ∃ result, (dialogue.report engine births text).result = .ok result ∧
      result.outcome = .clarification ∧
      (dialogue.turn engine births text).1.terminal =
        (dialogue.followed engine births text).act (dialogue.said engine births text) := by
  unfold turn at h ⊢
  unfold said followed report
  dsimp only at h ⊢
  cases hr : (engine.submit births dialogue.memory { text, token := .live }).result with
  | error escape =>
    rw [hr] at h
    contradiction
  | ok result =>
    rw [hr] at h
    dsimp only at h ⊢
    cases hc : (conclude (dialogue.cost + result.cost) result).2 with
    | asks => exact ⟨result, rfl, conclude_asks hc, rfl⟩
    | ends ending =>
      rw [hc] at h
      contradiction

end Turns

/-- What holds between the turns of a dialogue: no steps were run, and the terminal has printed all that
was published. -/
structure Settled (births : Births) (dialogue : Dialogue ρ) : Prop where
  lawful : dialogue.memory.Lawful births
  idle : ∀ s ∈ dialogue.published, s.isExecuting = false
  attends : dialogue.terminal.Attends dialogue.published
  drained : dialogue.terminal.emitter.queue = []

omit [Interpreter] in
theorem settled_fresh (births : Births) (files : Files.Node) (replies : ρ) :
    Settled births { memory := .fresh files replies } where
  lawful := Engine.lawful_fresh births files replies
  idle := fun _ hs => absurd hs List.not_mem_nil
  attends := Terminal.attends_listening
  drained := rfl

section Settling

variable {births : Births} {dialogue : Dialogue ρ}

/-- The turn on an input takes its course from the session that the input opens. -/
theorem Settled.exists_course (h : dialogue.Settled births) (engine : Engine ρ κ) (text : String) :
    let opening : Session → Turn ρ κ := Engine.opening dialogue.memory { text, token := .live }
    ∃ s ended turn, s.status = .orchestrating ∧ (opening s).TellsAll dialogue.published ∧
      Engine.Course engine (opening s) ended turn ∧
      dialogue.report engine births text =
        ⟨Engine.result turn ended, Engine.closeTurn (Engine.bornAfter dialogue.memory) turn,
          turn.events⟩ := by
  intro opening
  obtain ⟨s, ended, turn, ho, hcourse, he⟩ :=
    engine.submit_course births h.lawful.consistent_held { text, token := .live }
  exact ⟨s, ended, turn, (ho.status_pending h.lawful.consistent_held).1, List.map_append, hcourse, he⟩

/-- What a turn publishes is staged, and its events tell of it. -/
theorem Settled.staged_report (h : dialogue.Settled births) (engine : Engine ρ κ) (text : String) :
    let report := dialogue.report engine births text
    let published := report.memory.history.map (·.session)
    published = dialogue.published ++ report.events.filterMap Event.shown? ∧
      Staged published ∧ StepsShown published := by
  obtain ⟨s, ended, turn, hs, hopening, hcourse, hreport⟩ := h.exists_course engine text
  obtain ⟨sessions, hhistory, htrail⟩ := engine.trail_course hcourse rfl
  have hgrown : turn.history.map (·.session) = dialogue.published ++ s :: sessions := by
    rw [hhistory, Update.map_session_extend, hopening, List.append_assoc]
    rfl
  have hstaged : Staged (dialogue.published ++ s :: sessions) ∧
      StepsShown (dialogue.published ++ s :: sessions) := htrail.staged hs h.idle
  rw [← hgrown] at hstaged
  rw [hreport]
  exact ⟨Engine.tellsAll_of_course hopening hcourse, hstaged⟩

/-- A turn that puts a question has run no steps. -/
theorem Settled.idle_of_question (h : dialogue.Settled births) {engine : Engine ρ κ} {text : String}
    {result : TurnResult} (hr : (dialogue.report engine births text).result = .ok result)
    (hq : result.outcome = .clarification) :
    ∀ s ∈ (dialogue.report engine births text).memory.history.map (·.session),
      s.isExecuting = false := by
  obtain ⟨s, ended, turn, hs, hopening, hcourse, hreport⟩ := h.exists_course engine text
  rw [hreport] at hr ⊢
  obtain ⟨response, rfl⟩ := Engine.ended_of_question hr hq
  obtain ⟨t, hhistory, ht⟩ := hcourse.history_of_question
  have hgrown : turn.history.map (·.session) = dialogue.published ++ [s] ++ [t] := by
    rw [hhistory, Update.map_session_extend, hopening]
    rfl
  have hidle : ∀ x ∈ dialogue.published ++ [s] ++ [t], x.isExecuting = false := by
    refine List.forall_mem_append.mpr ⟨List.forall_mem_append.mpr ⟨h.idle, ?_⟩, ?_⟩
    · refine List.forall_mem_singleton.mpr (isExecuting_eq_false.mpr ?_)
      exact fun he => nomatch hs.symm.trans he
    · refine List.forall_mem_singleton.mpr (isExecuting_eq_false.mpr ?_)
      exact fun he => nomatch ht.symm.trans he
  rw [← hgrown] at hidle
  exact hidle

/-- By the time a turn has been followed, all lines for what it published are printed. -/
theorem Settled.attends_followed (h : dialogue.Settled births) (engine : Engine ρ κ) (text : String) :
    let published := (dialogue.report engine births text).memory.history.map (·.session)
    (dialogue.followed engine births text).Attends published ∧
      (dialogue.followed engine births text).emitter.queue = [] := by
  intro published
  obtain ⟨hp, hs, -⟩ := h.staged_report engine text
  refine Terminal.Attends.drain ?_ hs
  rw [hp] at hs
  have ha := (h.attends.followAll (dialogue.report engine births text).events hs).stopSpinner
  rwa [← hp] at ha

/-- After the turn has been followed, only the result is shown. -/
theorem Settled.actions_turn (h : dialogue.Settled births) (engine : Engine ρ κ) (text : String) :
    (dialogue.turn engine births text).1.terminal.actions =
      (dialogue.followed engine births text).actions ++ dialogue.said engine births text := by
  obtain ⟨ha, hq⟩ := h.attends_followed engine text
  have hsaid := dialogue.progressOf_said engine births text
  unfold Dialogue.turn
  unfold said followed report at *
  dsimp only at *
  cases hr : (engine.submit births dialogue.memory { text, token := .live }).result with
  | error escape =>
    dsimp only
    rw [Terminal.close_eq, List.append_nil]
  | ok result =>
    rw [hr] at hsaid
    dsimp only
    cases (conclude (dialogue.cost + result.cost) result).2 with
    | asks => rfl
    | ends ending =>
      dsimp only
      rw [Terminal.close_eq, (ha.act _ hsaid).drain_eq hq]
      rfl

/-- A question leaves the dialogue as it should be between turns. -/
theorem Settled.turn (h : dialogue.Settled births) {engine : Engine ρ κ} {text : String}
    (hv : (dialogue.turn engine births text).2 = .asks) :
    (dialogue.turn engine births text).1.Settled births := by
  obtain ⟨result, hr, hq, hterminal⟩ := dialogue.turn_of_asks engine births text hv
  obtain ⟨ha, hdrained⟩ := h.attends_followed engine text
  have hmemory := dialogue.memory_turn engine births text
  have hsaid := dialogue.progressOf_said engine births text
  refine ⟨?_, ?_, ?_, ?_⟩
  · rw [hmemory]
    exact engine.lawful_take births h.lawful
      ⟨{ text, token := .live }, dialogue.memory.files, dialogue.memory.replies⟩
  · unfold published
    rw [hmemory]
    exact h.idle_of_question hr hq
  · unfold published
    rw [hmemory, hterminal]
    exact ha.act _ hsaid
  · rw [hterminal]
    exact hdrained

end Settling

end Dialogue
end PlanAssistant
