import Mathlib.Data.List.Induction
import PlanAssistant.Proofs.Engine.Trail

/-!
Engines that take one input after another.  While the session it holds is consistent, an engine refuses
no input: the turn runs on the session the input belongs to, which is published first, and takes one of
the courses.  What it publishes after that is the trail of the course.
-/
namespace PlanAssistant

/-- A user input, with the files and the replies its turn finds. -/
structure Submission (ρ : Type) where
  input : TurnInput
  files : Files.Node
  replies : ρ

namespace Memory

variable {ρ : Type}

/-- What an engine remembers before its first turn. -/
def fresh (files : Files.Node) (replies : ρ) : Memory ρ := { files, replies }

/-- The session an accepted input belongs to: the one at hand, or a new one. -/
inductive Opens (births : Births) (memory : Memory ρ) (text : String) : Session → Prop
  | resumed {s : Session} (held : memory.session = some s) (takes : s.status.takesInput = true) :
    Opens births memory text (s.taken text)
  | started (left : ∀ s, memory.session = some s → s.status.takesInput = false) :
    Opens births memory text
      ((Session.start (births (memory.born + 1)).1 (births (memory.born + 1)).2 text).hear text)

namespace Opens

variable {births : Births} {memory : Memory ρ} {text : String} {s : Session}

theorem status_pending (h : memory.Opens births text s)
    (hc : ∀ s, memory.session = some s → s.Consistent) :
    s.status = .orchestrating ∧ s.pending = none := by
  cases h with
  | resumed held takes => exact Session.taken_orchestrating (hc _ held) takes text
  | started => exact ⟨rfl, rfl⟩

theorem birth (h : memory.Opens births text s) (hc : ∀ s, memory.session = some s →
    s.Consistent ∧ s.birth = births memory.born) :
    s.birth = births (Engine.bornAfter memory) := by
  cases h with
  | resumed held takes =>
    rw [(Session.follows_taken (hc _ held).1 text).birth, (hc _ held).2, Engine.bornAfter, held,
      Session.goingOn?, Option.filter_some, if_pos takes]
    rfl
  | started left =>
    have hg : Session.goingOn? memory.session = none := by
      rw [Session.goingOn?, Option.filter_eq_none_iff]
      intro s hs
      rw [left s hs]
      decide
    rw [Engine.bornAfter, hg]
    rfl

end Opens
end Memory

namespace Engine

variable {ρ κ : Type} (engine : Engine ρ κ) (births : Births)

/-! ### Turns -/

/-- A consistent session refuses no input. -/
theorem accept_opens {memory : Memory ρ} (hc : ∀ s, memory.session = some s → s.Consistent)
    (text : String) :
    ∃ s, accept births memory text = (.ok (), s) ∧ memory.Opens births text s := by
  unfold accept Session.accept
  cases hg : Session.goingOn? memory.session with
  | none =>
    refine ⟨_, rfl, .started fun s hs => ?_⟩
    rw [Session.goingOn?, Option.filter_eq_none_iff] at hg
    simpa using hg s hs
  | some s =>
    obtain ⟨held, takes⟩ := Option.filter_eq_some_iff.mp hg
    exact ⟨_, Session.perform_takeIn (hc s held).mpr text, .resumed held takes⟩

/-- The turn for a session just opened by an input: the session is published at once. -/
def opening (memory : Memory ρ) (input : TurnInput) (s : Session) : Turn ρ κ :=
  (openTurn memory input s).publish

variable [Interpreter]

/-- A turn takes its course on the session its input belongs to. -/
theorem submit_course {memory : Memory ρ} (hc : ∀ s, memory.session = some s → s.Consistent)
    (input : TurnInput) :
    ∃ s ended turn, memory.Opens births (Text.strip input.text) s ∧
      Course engine (opening memory input s) ended turn ∧
      engine.submit births memory input =
        ⟨result turn ended, closeTurn (bornAfter memory) turn, turn.events⟩ := by
  obtain ⟨s, ha, ho⟩ := accept_opens births hc (Text.strip input.text)
  have hs : (opening memory input s : Turn ρ κ).session.status = .orchestrating :=
    (ho.status_pending hc).1
  refine ⟨s, _, _, ho, course_advance engine hs, ?_⟩
  unfold submit
  dsimp only
  rw [ha]
  rfl

/-- Take one more input, in the files and with the replies its turn finds. -/
def take (memory : Memory ρ) (submission : Submission ρ) : TurnReport ρ κ :=
  engine.submit births { memory with files := submission.files, replies := submission.replies }
    submission.input

/-- What an engine remembers after some inputs. -/
def after (memory : Memory ρ) (submissions : List (Submission ρ)) : Memory ρ :=
  submissions.foldl (fun memory submission => (engine.take births memory submission).memory) memory

theorem after_concat (memory : Memory ρ) (submissions : List (Submission ρ))
    (submission : Submission ρ) :
    engine.after births memory (submissions ++ [submission]) =
      (engine.take births (engine.after births memory submissions) submission).memory := by
  rw [after, List.foldl_append]
  rfl

/-- What a turn publishes: the session it opens, and its trail. -/
theorem take_trail {memory : Memory ρ} (hc : ∀ s, memory.session = some s → s.Consistent)
    (submission : Submission ρ) :
    ∃ s sessions last, memory.Opens births (Text.strip submission.input.text) s ∧
      Trail engine submission.files s (givenPlan? (engine.take births memory submission).events)
        sessions last ∧
      (engine.take births memory submission).memory.session = some last ∧
      (engine.take births memory submission).memory.born = bornAfter memory ∧
      (engine.take births memory submission).memory.history =
        Update.extend memory.history (s :: sessions) := by
  let found : Memory ρ := { memory with files := submission.files, replies := submission.replies }
  have hf : ∀ s, found.session = some s → s.Consistent := hc
  obtain ⟨s, ended, turn, ho, hcourse, he⟩ := submit_course engine births hf submission.input
  obtain ⟨sessions, hh, ht⟩ := engine.trail_course hcourse rfl
  have hr : engine.take births memory submission = _ := he
  refine ⟨s, sessions, turn.session, ?_, ?_, ?_, ?_, ?_⟩
  · cases ho with
    | resumed held takes => exact .resumed held takes
    | started left => exact .started left
  · rw [hr]
    exact ht
  · rw [hr]
    rfl
  · rw [hr]
    rfl
  · rw [hr]
    exact hh

end Engine
end PlanAssistant
