import PlanAssistant.Proofs.Console.Addressing
import PlanAssistant.Proofs.Console.Progress

/-!
The spinner of a terminal.  It is started when the first chunk of a stream comes, and a stream that breaks
off leaves it live; so it is the end of a turn that stops it, before anything else is done.  `Spun` tells
how the actions of a terminal can go on while its spinner is live or not, every step of a dialogue goes
on in one of these ways, and between turns no spinner is live.
-/
namespace PlanAssistant

namespace Action

def isSpinner : Action → Bool
  | .label _ | .startSpinner | .stopSpinner => true
  | _ => false

def isSwitch : Action → Bool
  | .startSpinner | .stopSpinner => true
  | _ => false

/-- All starts and stops of a spinner. -/
def switches (actions : List Action) : List Action := actions.filter isSwitch

/-- Whether a spinner is live: one was started, and not stopped since. -/
def isLive (actions : List Action) : Bool := (switches actions).getLast? == some .startSpinner

/-- Starts and stops alternate from a start on to a stop; a label is set for the spinner that is live, or
right before one is started; and no spinner is live while anything is addressed to the user, nor at the
end. -/
structure OneSpinner (actions : List Action) : Prop where
  alternates : ∃ n, switches actions = (List.replicate n [.startSpinner, .stopSpinner]).flatten
  labelled : ∀ before markup, before ++ [.label markup] <+: actions →
    isLive before = true ∨ before ++ [.label markup, .startSpinner] <+: actions
  silent : ∀ before action, before ++ [action] <+: actions → action.isAddressed = true →
    isLive before = false
  stopped : isLive actions = false

theorem switches_append (a b : List Action) : switches (a ++ b) = switches a ++ switches b :=
  List.filter_append ..

theorem not_isSpinner_of_isProgress {action : Action} (h : action.isProgress = true) :
    action.isSpinner = false := by
  cases action with
  | print markup => rfl
  | _ => contradiction

/-- The last action is the one that is added, or stands before it. -/
theorem concat_prefix_concat_iff {before actions : List Action} {a b : Action} :
    before ++ [a] <+: actions ++ [b] ↔ before = actions ∧ a = b ∨ before ++ [a] <+: actions := by
  rw [List.prefix_concat_iff, List.append_singleton_inj]

/-! ### Ways to go on -/

/-- How the actions of a terminal can have come about, and whether its spinner is live after them. -/
inductive Spun : Bool → List Action → Prop
  | idle : Spun false []
  | start {actions : List Action} (markup : String) (earlier : Spun false actions) :
    Spun true (actions ++ [.label markup, .startSpinner])
  | update {actions : List Action} (markup : String) (earlier : Spun true actions) :
    Spun true (actions ++ [.label markup])
  | stop {actions : List Action} (earlier : Spun true actions) : Spun false (actions ++ [.stopSpinner])
  | other {live : Bool} {actions : List Action} {action : Action} (earlier : Spun live actions)
      (plain : action.isSpinner = false) (silent : action.isAddressed = true → live = false) :
    Spun live (actions ++ [action])

namespace Spun

variable {live : Bool} {actions more : List Action}

/-- Anything else may be done, if nothing is addressed to the user while the spinner is live. -/
theorem append (h : Spun live actions) (hp : ∀ action ∈ more, action.isSpinner = false)
    (hs : ∀ action ∈ more, action.isAddressed = true → live = false) : Spun live (actions ++ more) := by
  induction more generalizing actions with
  | nil => rwa [List.append_nil]
  | cons action more ih =>
    rw [List.append_cons]
    obtain ⟨hp, hps⟩ := List.forall_mem_cons.mp hp
    obtain ⟨hs, hss⟩ := List.forall_mem_cons.mp hs
    exact ih (h.other hp hs) hps hss

/-- Starts and stops come in pairs, but for the start of the spinner that is live. -/
theorem alternates (h : Spun live actions) :
    ∃ n, switches actions = (List.replicate n [.startSpinner, .stopSpinner]).flatten ++
      if live then [.startSpinner] else [] := by
  induction h with
  | idle => exact ⟨0, rfl⟩
  | start markup earlier ih =>
    obtain ⟨n, ih⟩ := ih
    refine ⟨n, ?_⟩
    rw [switches_append, ih, if_neg Bool.false_ne_true, List.append_nil, if_pos rfl]
    rfl
  | update markup earlier ih =>
    obtain ⟨n, ih⟩ := ih
    refine ⟨n, ?_⟩
    rw [switches_append, ih]
    exact List.append_nil _
  | stop earlier ih =>
    obtain ⟨n, ih⟩ := ih
    refine ⟨n + 1, ?_⟩
    rw [switches_append, ih, if_pos rfl, if_neg Bool.false_ne_true, List.append_nil,
      List.replicate_succ', List.flatten_append, List.append_assoc]
    rfl
  | @other live actions action earlier plain silent ih =>
    obtain ⟨n, ih⟩ := ih
    have hs : switches [action] = [] := by
      cases action with
      | label | startSpinner | stopSpinner => contradiction
      | _ => rfl
    exact ⟨n, by rw [switches_append, hs, List.append_nil, ih]⟩

theorem isLive_eq (h : Spun live actions) : isLive actions = live := by
  obtain ⟨n, hn⟩ := h.alternates
  unfold isLive
  rw [hn]
  cases live with
  | true => simp
  | false =>
    cases n with
    | zero => rfl
    | succ n =>
      rw [if_neg Bool.false_ne_true, List.append_nil, List.replicate_succ', List.flatten_append]
      simp

theorem labelled (h : Spun live actions) {before : List Action} {markup : String}
    (hb : before ++ [.label markup] <+: actions) :
    isLive before = true ∨ before ++ [.label markup, .startSpinner] <+: actions := by
  have hgrow : ∀ {actions : List Action} (more : List Action),
      isLive before = true ∨ before ++ [.label markup, .startSpinner] <+: actions →
        isLive before = true ∨ before ++ [.label markup, .startSpinner] <+: actions ++ more :=
    fun more h => h.imp_right fun hp => hp.trans (List.prefix_append _ more)
  induction h with
  | idle => simp at hb
  | @start actions text earlier ih =>
    rw [List.append_cons actions, concat_prefix_concat_iff, concat_prefix_concat_iff] at hb
    rcases hb with ⟨-, hs⟩ | ⟨rfl, ht⟩ | hb
    · contradiction
    · rw [ht]
      exact .inr List.prefix_rfl
    · exact hgrow _ (ih hb)
  | update text earlier ih =>
    rcases concat_prefix_concat_iff.mp hb with ⟨rfl, -⟩ | hb
    · exact .inl earlier.isLive_eq
    · exact hgrow _ (ih hb)
  | stop earlier ih =>
    rcases concat_prefix_concat_iff.mp hb with ⟨-, hs⟩ | hb
    · contradiction
    · exact hgrow _ (ih hb)
  | other earlier plain silent ih =>
    rcases concat_prefix_concat_iff.mp hb with ⟨-, rfl⟩ | hb
    · contradiction
    · exact hgrow _ (ih hb)

theorem silent (h : Spun live actions) {before : List Action} {action : Action}
    (hb : before ++ [action] <+: actions) (ha : action.isAddressed = true) : isLive before = false := by
  induction h with
  | idle => simp at hb
  | @start actions text earlier ih =>
    rw [List.append_cons actions, concat_prefix_concat_iff, concat_prefix_concat_iff] at hb
    rcases hb with ⟨-, rfl⟩ | ⟨-, rfl⟩ | hb
    · contradiction
    · contradiction
    · exact ih hb
  | update text earlier ih | stop earlier ih =>
    rcases concat_prefix_concat_iff.mp hb with ⟨-, rfl⟩ | hb
    · contradiction
    · exact ih hb
  | other earlier plain silent ih =>
    rcases concat_prefix_concat_iff.mp hb with ⟨rfl, rfl⟩ | hb
    · rw [earlier.isLive_eq, silent ha]
    · exact ih hb

theorem oneSpinner (h : Spun false actions) : OneSpinner actions where
  alternates := by
    obtain ⟨n, hn⟩ := h.alternates
    exact ⟨n, by rw [hn, if_neg Bool.false_ne_true, List.append_nil]⟩
  labelled := fun _ _ hb => h.labelled hb
  silent := fun _ _ hb ha => h.silent hb ha
  stopped := h.isLive_eq

end Spun
end Action

/-! ### On a terminal -/

namespace Terminal

open PlanAssistant.Action

variable {κ : Type} {terminal : Terminal}

/-- The actions of a terminal have come about in the right way, and its spinner is as they leave it. -/
def Spins (terminal : Terminal) : Prop := Spun terminal.spinning terminal.actions

theorem Spins.act (h : terminal.Spins) {actions : List Action}
    (hp : ∀ action ∈ actions, action.isSpinner = false)
    (hs : ∀ action ∈ actions, action.isAddressed = true → terminal.spinning = false) :
    (terminal.act actions).Spins := Spun.append h hp hs

theorem Spins.stopSpinner (h : terminal.Spins) : terminal.stopSpinner.Spins := by
  unfold Terminal.stopSpinner
  split
  · next hs =>
    unfold Spins at h
    rw [hs] at h
    exact h.stop
  · exact h

theorem spinning_stopSpinner (terminal : Terminal) : terminal.stopSpinner.spinning = false := by
  unfold Terminal.stopSpinner
  split
  · rfl
  · next hs => exact Bool.eq_false_iff.mpr hs

theorem Spins.tick (h : terminal.Spins) (stage : Stage) (progress : Progress) :
    (terminal.tick stage progress).Spins := by
  unfold Terminal.tick
  dsimp only
  split
  · exact h.stopSpinner
  unfold Spins at h
  split
  · next hs =>
    have hu := (hs ▸ h : Spun true terminal.actions).update (spinnerLabel stage progress)
    rw [← hs] at hu
    exact hu
  · next hs =>
    rw [Bool.eq_false_iff.mpr hs] at h
    exact h.start (spinnerLabel stage progress)

theorem Spins.foldl_printDelivery (h : terminal.Spins) (deliveries : List (Delivery Unit)) :
    (deliveries.foldl printDelivery terminal).Spins ∧
      (deliveries.foldl printDelivery terminal).spinning = terminal.spinning := by
  induction deliveries generalizing terminal with
  | nil => exact ⟨h, rfl⟩
  | cons delivery deliveries ih =>
    have hprogress := isProgress_follow terminal.printer delivery.update
    have hd : (terminal.printDelivery delivery).Spins := by
      refine Spun.append h (fun action ha => ?_) fun action ha hs => ?_
      · exact not_isSpinner_of_isProgress (hprogress action ha)
      · rw [isAddressed_of_isProgress (hprogress action ha)] at hs
        contradiction
    exact ih hd

/-- A drain leaves the spinner alone. -/
theorem Spins.drain (h : terminal.Spins) :
    terminal.drain.Spins ∧ terminal.drain.spinning = terminal.spinning := by
  have hd : Spins { terminal with emitter := terminal.emitter.drain passive terminal.emitter.backlog } := h
  exact hd.foldl_printDelivery _

theorem Spins.close (h : terminal.Spins) :
    terminal.close.Spins ∧ terminal.close.spinning = terminal.spinning := by
  rw [close_eq]
  exact h.drain

theorem Spins.follow (h : terminal.Spins) (event : Event κ) : (terminal.follow event).Spins := by
  cases event with
  | published | attempted | answered => exact h
  | began stage budget => exact h.drain.1
  | streamed stage progress => exact h.tick stage progress
  | reasoned stage text =>
    exact h.act (List.forall_mem_singleton.mpr rfl) (List.forall_mem_singleton.mpr nofun)

theorem Spins.followAll (h : terminal.Spins) (events : List (Event κ)) :
    (terminal.followAll events).Spins := by
  induction events generalizing terminal with
  | nil => exact h
  | cons event events ih => exact ih (h.follow event)

end Terminal

/-! ### In a dialogue -/

namespace Dialogue

open PlanAssistant.Action

variable {ρ κ : Type}

/-- No spinner is live, and all was right with those before. -/
structure Still (dialogue : Dialogue ρ) : Prop where
  spins : dialogue.terminal.Spins
  stopped : dialogue.terminal.spinning = false

theorem Still.abort {dialogue : Dialogue ρ} (h : dialogue.Still) : dialogue.abort.Still :=
  ⟨h.spins.close.1, h.spins.close.2.trans h.stopped⟩

theorem not_isSpinner_conclude (cost : Float) (result : TurnResult) :
    ∀ action ∈ (conclude cost result).1, action.isSpinner = false := by
  unfold conclude
  split <;> simp [isSpinner, costLine, question]

variable [Interpreter]

/-- However a turn ends, no spinner is live after it. -/
theorem Still.turn {dialogue : Dialogue ρ} (h : dialogue.Still) (engine : Engine ρ κ) (births : Births)
    (text : String) : (dialogue.turn engine births text).1.Still := by
  have hspins := (h.spins.followAll (dialogue.report engine births text).events).stopSpinner
  have hstopped := Terminal.spinning_stopSpinner
    (dialogue.terminal.followAll (dialogue.report engine births text).events)
  unfold Dialogue.turn
  unfold report at hspins hstopped
  dsimp only
  generalize (dialogue.terminal.followAll _).stopSpinner = terminal at hspins hstopped ⊢
  obtain ⟨hdrained, hs⟩ := hspins.drain
  rw [hstopped] at hs
  split
  · exact ⟨hspins.close.1, hspins.close.2.trans hstopped⟩
  · next result _ =>
    have hsaid := hdrained.act (not_isSpinner_conclude (dialogue.cost + result.cost) result)
      fun _ _ _ => hs
    split
    · exact ⟨hsaid, hs⟩
    · exact ⟨hsaid.close.1, hsaid.close.2.trans hs⟩

/-- Between turns and at the end of a dialogue, no spinner is live. -/
theorem Still.carryOn (engine : Engine ρ κ) (births : Births) {dialogue : Dialogue ρ} (text : String)
    (answers : List String) (h : dialogue.Still) :
    (dialogue.carryOn engine births text answers).1.Still := by
  induction dialogue, text, answers using carryOn.induct engine births with
  | case1 dialogue text answers next ending ht =>
    have hn := h.turn engine births text
    rw [ht] at hn
    rwa [(carryOn_of_ends ht answers).1]
  | case2 dialogue text answers next ht ha =>
    have hn := h.turn engine births text
    rw [ht] at hn
    rw [(carryOn_of_unanswered ht ha).1]
    exact hn.abort
  | case3 dialogue text answers next ht answer rest ha ih =>
    have hn := h.turn engine births text
    rw [ht] at hn
    rw [(carryOn_of_answered ht ha).1]
    exact ih hn

/-- Whatever the model replies and however a dialogue ends, there is at most one spinner at a time, and
none while the user is addressed. -/
theorem oneSpinner_carryOn (engine : Engine ρ κ) (births : Births) (memory : Memory ρ) (text : String)
    (answers : List String) :
    let start : Dialogue ρ := { memory }
    OneSpinner (start.carryOn engine births text answers).1.terminal.actions := by
  intro start
  have hstart : start.Still := ⟨.idle, rfl⟩
  obtain ⟨hspins, hstopped⟩ := hstart.carryOn engine births text answers
  unfold Terminal.Spins at hspins
  rw [hstopped] at hspins
  exact hspins.oneSpinner

end Dialogue
end PlanAssistant
