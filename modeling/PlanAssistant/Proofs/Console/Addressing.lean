import PlanAssistant.Proofs.Console.TurnProgress

/-!
What the user is told.  Responses, questions, errors and other notices are addressed to the user; the lines
that tell of progress, the spinner and what is shown of the reasoning are not.  While a turn is followed
nothing is addressed to the user, and afterwards its result is.
-/
namespace PlanAssistant

namespace Action

/-- Whether something is addressed to the user: a response, a question, or a line that does not tell of
progress, such as an error. -/
def isAddressed (action : Action) : Bool :=
  match action with
  | .markdown _ | .ask _ => true
  | .print _ => !action.isProgress
  | _ => false

def isAsk : Action → Bool
  | .ask _ => true
  | _ => false

/-- All that is addressed to the user. -/
def addressed (actions : List Action) : List Action := actions.filter isAddressed

theorem addressed_append (a b : List Action) : addressed (a ++ b) = addressed a ++ addressed b :=
  List.filter_append ..

theorem addressed_eq_nil {actions : List Action} (h : ∀ a ∈ actions, a.isAddressed = false) :
    addressed actions = [] :=
  List.filter_eq_nil_iff.mpr fun a ha => Bool.eq_false_iff.mp (h a ha)

/-- A line that tells of progress is addressed to nobody. -/
theorem isAddressed_of_isProgress {action : Action} (h : action.isProgress = true) :
    action.isAddressed = false := by
  cases action with
  | print markup => rw [isAddressed, h, Bool.not_true]
  | _ => contradiction

/-- Any other line is. -/
theorem isAddressed_print {markup : String} (h : (Action.print markup).isProgress = false) :
    (Action.print markup).isAddressed = true := by
  rw [isAddressed, h, Bool.not_false]

/-- Questions are addressed to the user. -/
theorem filter_isAsk_addressed (actions : List Action) :
    (addressed actions).filter isAsk = actions.filter isAsk := by
  unfold addressed
  rw [List.filter_filter]
  congr 1
  funext action
  cases action <;> simp [isAsk, isAddressed]

/-- What the printer prints tells of progress alone. -/
theorem isProgress_follow (printer : Printer) (update : Update) :
    ∀ action ∈ (printer.follow update).2, action.isProgress = true :=
  List.filter_eq_self.mp (progressOf_follow printer update)

end Action

namespace Terminal

open PlanAssistant.Action

variable {κ : Type} (terminal : Terminal)

theorem addressed_stopSpinner : addressed terminal.stopSpinner.actions = addressed terminal.actions := by
  unfold stopSpinner
  split
  · exact (addressed_append _ _).trans (List.append_nil _)
  · rfl

theorem addressed_foldl_printDelivery (deliveries : List (Delivery Unit)) :
    addressed (deliveries.foldl printDelivery terminal).actions = addressed terminal.actions := by
  induction deliveries generalizing terminal with
  | nil => rfl
  | cons delivery deliveries ih =>
    have hd : (terminal.printDelivery delivery).actions =
        terminal.actions ++ (terminal.printer.follow delivery.update).2 := rfl
    have hnil : addressed (terminal.printer.follow delivery.update).2 = [] :=
      addressed_eq_nil fun action ha => isAddressed_of_isProgress (isProgress_follow _ _ action ha)
    rw [List.foldl_cons, ih, hd, addressed_append, hnil, List.append_nil]

theorem addressed_drain : addressed terminal.drain.actions = addressed terminal.actions :=
  addressed_foldl_printDelivery { terminal with
    emitter := terminal.emitter.drain passive terminal.emitter.backlog } _

theorem addressed_follow (event : Event κ) :
    addressed (terminal.follow event).actions = addressed terminal.actions := by
  cases event with
  | published | attempted | answered => rfl
  | began stage budget => exact terminal.addressed_drain
  | reasoned stage text => exact (addressed_append _ _).trans (List.append_nil _)
  | streamed stage progress =>
    unfold follow tick
    dsimp only
    split
    · exact terminal.addressed_stopSpinner
    split <;> exact (addressed_append _ _).trans (List.append_nil _)

/-- While a turn is followed, nothing is addressed to the user. -/
theorem addressed_followAll (events : List (Event κ)) :
    addressed (terminal.followAll events).actions = addressed terminal.actions := by
  induction events generalizing terminal with
  | nil => rfl
  | cons event events ih => exact (ih (terminal.follow event)).trans (terminal.addressed_follow event)

end Terminal

namespace Dialogue

open PlanAssistant.Action

variable [Interpreter] {ρ κ : Type}

/-- All that is shown of a result is addressed to the user. -/
theorem addressed_said (engine : Engine ρ κ) (births : Births) (dialogue : Dialogue ρ) (text : String) :
    addressed (dialogue.said engine births text) = dialogue.said engine births text := by
  refine List.filter_eq_self.mpr fun action ha => ?_
  have hp : action.isProgress = false := by
    have hn := List.filter_eq_nil_iff.mp (dialogue.progressOf_said engine births text) action ha
    exact Bool.eq_false_iff.mpr hn
  unfold said at ha
  split at ha
  · contradiction
  · unfold conclude at ha
    split at ha
    · rw [List.mem_singleton.mp ha] at hp ⊢
      exact isAddressed_print hp
    · rw [List.mem_singleton.mp ha] at hp ⊢
      exact isAddressed_print hp
    · rcases List.mem_pair.mp ha with rfl | rfl
      · rfl
      · exact isAddressed_print hp
    · rcases List.mem_pair.mp ha with rfl | rfl <;> rfl

/-- After a turn, the user has been told its result. -/
theorem Settled.addressed_turn {births : Births} {dialogue : Dialogue ρ} (h : dialogue.Settled births)
    (engine : Engine ρ κ) (text : String) :
    addressed (dialogue.turn engine births text).1.terminal.actions =
      addressed dialogue.terminal.actions ++ dialogue.said engine births text := by
  rw [h.actions_turn, addressed_append, addressed_said]
  unfold followed
  rw [Terminal.addressed_drain, Terminal.addressed_stopSpinner, Terminal.addressed_followAll]

end Dialogue
end PlanAssistant
