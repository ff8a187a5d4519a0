import PlanAssistant.Proofs.Engine.Stages
import PlanAssistant.Proofs.Model.Calls
import PlanAssistant.Proofs.Session.Talk

/-!
The accounts of an engine.  Whatever the model answers and however turns end, the books of every
session agree with its transcript, what the user submits is found in the sessions one after the other,
and every call passes on what the session shown last holds.
-/
namespace PlanAssistant

open Session

/-! ### Turns -/

/-- What holds of a session and is kept by questions and by the work on a plan holds of everything a
turn publishes. -/
theorem Engine.Trail.forall [Interpreter] {ρ κ : Type} {engine : Engine ρ κ} {files : Files.Node}
    {s last : Session} {plan? : Option String} {sessions : List Session} {P : Session → Prop}
    (h : engine.Trail files s plan? sessions last) (hs : P s)
    (hask : ∀ question, P (s.paused question))
    (hwork : ∀ status plan records summary planPath,
      P { s with status, plan, records, summary, planPath }) :
    P last ∧ ∀ t ∈ sessions, P t := by
  have hw : ∀ plan, ∀ t ∈ engine.work files plan { s with status := .planning }, P t := by
    intro plan t ht
    obtain ⟨status, records, -, rfl⟩ := engine.mem_work ht rfl
    exact hwork status _ records _ _
  have hp : P { s with status := .planning } := hwork .planning _ _ _ _
  cases h with
  | still => exact ⟨hs, by simp⟩
  | asking question => exact ⟨hask question, by simpa using hask question⟩
  | planning => exact ⟨hp, by simpa using hp⟩
  | solving summary reached =>
    refine ⟨?_, List.forall_mem_cons.mpr ⟨hp, hw _⟩⟩
    rw [reached]
    exact hwork .solving _ _ summary _
  | completing summary planPath reached =>
    have hl : P last := by
      rw [reached]
      exact hwork .completed _ _ summary planPath
    exact ⟨hl, List.forall_mem_append.mpr
      ⟨List.forall_mem_cons.mpr ⟨hp, hw _⟩, List.forall_mem_singleton.mpr hl⟩⟩

namespace Memory

variable {ρ : Type}

/-- The inputs of the session at hand that still goes on. -/
def standingInputs (memory : Memory ρ) : List String := ((goingOn? memory.session).map inputs).getD []

/-- The session at hand, where the next input starts another. -/
def ended? (memory : Memory ρ) : Option Session :=
  if (goingOn? memory.session).isSome then none else memory.session

/-- Every session that was published or is at hand has its books kept. -/
structure Kept (births : Births) (memory : Memory ρ) : Prop where
  lawful : memory.Lawful births
  published : ∀ s ∈ memory.history.map (·.session), s.Talks
  held : ∀ s, memory.session = some s → s.Talks

variable {births : Births} {memory : Memory ρ} {text : String} {s : Session}

theorem Opens.talks (h : memory.Opens births text s) (hm : ∀ s, memory.session = some s → s.Talks) :
    s.Talks := by
  cases h with
  | resumed held => exact talks_taken (hm _ held) text
  | started => exact talks_start _ _ text

theorem goingOn?_of_left (left : ∀ s, memory.session = some s → s.status.takesInput = false) :
    goingOn? memory.session = none := by
  rw [goingOn?, Option.filter_eq_none_iff]
  intro s hs
  simp [left s hs]

/-- The session at hand has ended, or else goes on. -/
theorem flatMap_inputs_ended? (memory : Memory ρ) :
    memory.ended?.toList.flatMap inputs ++ memory.standingInputs =
      memory.session.toList.flatMap inputs := by
  unfold ended? standingInputs goingOn?
  cases memory.session with
  | none => rfl
  | some s => cases h : s.status.takesInput <;> simp [Option.filter_some, h]

/-- An input is the next one of the session that goes on, or the first one of another. -/
theorem Opens.inputs (h : memory.Opens births text s) : s.inputs = memory.standingInputs ++ [text] := by
  cases h with
  | resumed held takes =>
    simp [standingInputs, held, goingOn?, Option.filter_some, takes, inputs_taken]
  | started left =>
    rw [standingInputs, goingOn?_of_left left]
    exact inputs_start _ _ text

end Memory

namespace Engine

variable {ρ κ : Type} (engine : Engine ρ κ) (births : Births)

section

variable [Interpreter]

/-- The sessions an engine comes to hold, as they are when the next one replaces them, and at last. -/
def sessions (memory : Memory ρ) : List (Submission ρ) → List Session
  | [] => memory.session.toList
  | submission :: later =>
    memory.ended?.toList ++ sessions (engine.take births memory submission).memory later

omit [Interpreter] in
theorem kept_fresh (files : Files.Node) (replies : ρ) : (Memory.fresh files replies).Kept births where
  lawful := lawful_fresh births files replies
  published := fun s hs => absurd hs List.not_mem_nil
  held := fun s hs => by contradiction

/-- A turn keeps the books, and adds its input to those of the session it runs on. -/
theorem kept_take {memory : Memory ρ} (hm : memory.Kept births) (submission : Submission ρ) :
    (engine.take births memory submission).memory.Kept births ∧
      ∃ last, (engine.take births memory submission).memory.session = some last ∧
        last.inputs = memory.standingInputs ++ [Text.strip submission.input.text] := by
  have hc := hm.lawful.consistent_held
  obtain ⟨s, sessions, last, ho, ht, hlast, -, hh⟩ := engine.take_trail births hc submission
  have hs := ho.talks hm.held
  have hp := (ho.status_pending hc).2
  have hi := ho.inputs
  obtain ⟨hl, hall⟩ := ht.forall
    (P := fun t => t.Talks ∧ t.inputs = memory.standingInputs ++ [Text.strip submission.input.text])
    ⟨hs, hi⟩ (fun question => ⟨talks_paused hs hp question, (inputs_paused question s).trans hi⟩)
    fun _ _ _ _ _ => ⟨⟨hs.talk, hs.task⟩, hi⟩
  refine ⟨⟨engine.lawful_take births hm.lawful submission, ?_, ?_⟩, last, hlast, hl.2⟩
  · intro t htm
    rw [hh, Update.map_session_extend, List.mem_append, List.mem_cons] at htm
    rcases htm with htm | rfl | htm
    · exact hm.published t htm
    · exact hs
    · exact (hall t htm).1
  · intro t htm
    obtain rfl := Option.some.inj (hlast.symm.trans htm)
    exact hl.1

theorem kept_after (files : Files.Node) (replies : ρ) (submissions : List (Submission ρ)) :
    (engine.after births (.fresh files replies) submissions).Kept births := by
  induction submissions using List.reverseRecOn with
  | nil => exact kept_fresh births files replies
  | append_singleton submissions submission ih =>
    rw [after_concat]
    exact (engine.kept_take births ih submission).1

/-- From any memory on, the sessions have their books kept, and the inputs that come in are found in
them after those of the session at hand. -/
theorem sessions_spec {memory : Memory ρ} (hm : memory.Kept births)
    (submissions : List (Submission ρ)) :
    (∀ s ∈ engine.sessions births memory submissions, s.Talks) ∧
      (engine.sessions births memory submissions).flatMap inputs =
        memory.session.toList.flatMap inputs ++ submissions.map (Text.strip ·.input.text) := by
  induction submissions generalizing memory with
  | nil => exact ⟨fun s hs => hm.held s (by simpa [sessions] using hs), by simp [sessions]⟩
  | cons submission later ih =>
    obtain ⟨hk, last, hlast, hi⟩ := engine.kept_take births hm submission
    obtain ⟨htalks, hinputs⟩ := ih hk
    refine ⟨?_, ?_⟩
    · intro s hs
      rcases List.mem_append.mp hs with hs | hs
      · unfold Memory.ended? at hs
        split at hs
        · simp at hs
        · exact hm.held s (by simpa using hs)
      · exact htalks s hs
    · rw [sessions, List.flatMap_append, hinputs, hlast, ← memory.flatMap_inputs_ended?]
      simp [hi]

/-! ### Calls -/

/-- Each call passes on the prompt of the stage begun last, and what this stage is told of the session
shown last, whose books are in order. -/
def PassesOn (messagesOf : κ → List Message) (events : List (Event κ)) : Prop :=
  ∀ earlier attempt later, events = earlier ++ .attempted attempt :: later →
    ∃ stage s, Event.lastBegun? earlier = some stage ∧ Event.lastShown? earlier = some s ∧
      s.Accounted ∧
      messagesOf attempt.call =
        ⟨.system, stage.prompt.render [("system_prompt", .text engine.settings.systemPrompt)]⟩ ::
          stage.messages s

theorem passesOn_take {memory : Memory ρ} (hm : memory.Kept births)
    {messagesOf : κ → List Message} (hp : engine.provider.Carries messagesOf)
    (submission : Submission ρ) :
    engine.PassesOn messagesOf (engine.take births memory submission).events := by
  intro earlier attempt later he
  have hc := hm.lawful.consistent_held
  obtain ⟨stage, before, budget, tried, ⟨s, ho, hr⟩, ha, rfl⟩ := engine.starts_of_attempted hc he
  have hs : s.Talks := ho.talks hm.held
  obtain ⟨plan, records, hsession⟩ := hr.session_eq (ho.status_pending hc).1
  have htalks : before.session.Talks := by
    rw [hsession]
    exact ⟨hs.talk, hs.task⟩
  have hshown : Event.lastShown? before.events = some before.session :=
    hr.lastShown? (Event.lastShown?_concat [] _)
  have hmessages := hp.run ha
  exact ⟨stage, before.session, Event.lastBegun?_asking _ stage budget tried,
    (Event.lastShown?_asking _ stage budget tried).trans hshown, htalks.accounted, hmessages⟩

/-! ### Accounts -/

/-- The accounts of an engine after some submissions. -/
structure AccountsFor (messagesOf : κ → List Message) (files : Files.Node) (replies : ρ)
    (submissions : List (Submission ρ)) : Prop where
  published : ∀ update ∈ (engine.after births (.fresh files replies) submissions).history,
    update.session.Accounted
  held : ∀ s ∈ engine.sessions births (.fresh files replies) submissions, s.Accounted
  /-- Every input is in one of the sessions, in the order they were submitted. -/
  inputs : (engine.sessions births (.fresh files replies) submissions).flatMap Session.inputs =
    submissions.map (Text.strip ·.input.text)
  calls : ∀ submission, engine.PassesOn messagesOf
    (engine.take births (engine.after births (.fresh files replies) submissions) submission).events

/-- Whatever the model answers and the user submits, the accounts are in order. -/
theorem accountsFor_after {messagesOf : κ → List Message} (hp : engine.provider.Carries messagesOf)
    (files : Files.Node) (replies : ρ) (submissions : List (Submission ρ)) :
    engine.AccountsFor births messagesOf files replies submissions := by
  have hm := engine.kept_after births files replies submissions
  obtain ⟨htalks, hinputs⟩ := engine.sessions_spec births (kept_fresh births files replies) submissions
  refine ⟨?_, ?_, hinputs, ?_⟩
  · exact fun update hu => (hm.published _ (List.mem_map_of_mem hu)).accounted
  · exact fun s hs => (htalks s hs).accounted
  · exact engine.passesOn_take births hm hp

end

/-- The accounts of an engine on an endpoint, whose first turn is cancelled and whose second one fails. -/
theorem accountsFor_after_endpoint :
    let engine := Engine.ofModel default {} [] .none true false
    let births : Births := fun n => (toString n, ⟨2025, 3, 1, 9, 30, 0, 0, some 0⟩)
    engine.provider.Carries Request.messages ∧
      engine.AccountsFor births Request.messages (.directory []) []
        [⟨⟨"task", .live, none⟩, .directory [], [.silence]⟩,
          ⟨⟨"more", .absent, none⟩, .directory [], []⟩] := by
  intro engine births
  have hp : engine.provider.Carries Request.messages := Endpoint.carries_provider _
  exact ⟨hp, engine.accountsFor_after births hp _ _ _⟩

end Engine
end PlanAssistant
