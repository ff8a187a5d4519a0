import PlanAssistant.Proofs.Console.Printing
import PlanAssistant.Proofs.Engine.Stages
import PlanAssistant.Proofs.Updates.Draining

/-!
Following a turn on a terminal.  The printer is the only listener and does nothing with the emitter, so
a drain hands it all updates that wait, in order.  Whatever events a terminal follows, what it has
printed of the progress are the lines for the snapshots delivered so far; the others wait in the queue,
and after a drain none is left.
-/
namespace PlanAssistant

/-! ### Draining -/

namespace Emitter

variable {ι : Type} [DecidableEq ι]

/-- The emitter once an update that waits first was handed to the only listener. -/
def handOver (r : Registration ι) (update : Update) (queue : List Update) (emitter : Emitter ι) :
    Emitter ι :=
  { emitter with queue, delivered := emitter.delivered ++ [⟨r, update⟩] }

/-- Three steps hand an update to a listener that does nothing. -/
theorem drain_handOver {behaviour : Behaviour ι} (hb : ∀ listener u, behaviour listener u = [])
    {emitter : Emitter ι} {r : Registration ι} {update : Update} {queue : List Update}
    (alone : emitter.listeners = [r]) (free : emitter.handling = none)
    (queued : emitter.queue = update :: queue) (runs : emitter.dispatching = true) (limit : Nat) :
    emitter.drain behaviour (limit + 3) = (emitter.handOver r update queue).drain behaviour limit := by
  obtain ⟨listeners, registered, history, waiting, handling, dispatching, delivered⟩ := emitter
  obtain rfl : listeners = [r] := alone
  obtain rfl : handling = none := free
  obtain rfl : waiting = update :: queue := queued
  obtain rfl : dispatching = true := runs
  -- The update is taken up, then handed over, and then no listener is left for it.
  simp [drain, isIdle, advance, handOver, hb]

/-- A drain hands everything that waits to the only listener. -/
theorem drain_alone {behaviour : Behaviour ι} (hb : ∀ listener u, behaviour listener u = [])
    {emitter : Emitter ι} {r : Registration ι} (alone : emitter.listeners = [r])
    (free : emitter.handling = none) (runs : emitter.queue ≠ [] → emitter.dispatching = true) :
    emitter.drain behaviour emitter.backlog =
      { emitter with
        queue := []
        delivered := emitter.delivered ++ emitter.queue.map fun update => ⟨r, update⟩ } := by
  have hl : emitter.backlog = emitter.queue.length * 3 := by simp [backlog, alone, free]
  rw [hl]
  clear hl
  generalize hq : emitter.queue = queue at runs
  induction queue generalizing emitter with
  | nil => rw [List.length_nil, Nat.zero_mul, drain, List.map_nil, List.append_nil, ← hq]
  | cons update queue ih =>
    have hruns := runs (List.cons_ne_nil _ _)
    have hnext : (emitter.handOver r update queue).listeners = [r] := alone
    rw [List.length_cons, Nat.succ_mul, drain_handOver hb alone free hq hruns,
      ih hnext free rfl fun _ => hruns]
    simp [handOver]

end Emitter

theorem Event.filterMap_shown?_cons {κ : Type} (event : Event κ) (events : List (Event κ)) :
    (event :: events).filterMap shown? = event.shown?.toList ++ events.filterMap shown? := by
  rw [List.filterMap_cons]
  cases event.shown? <;> rfl

namespace Terminal

open PlanAssistant.Action Printer

/-! ### Printing deliveries -/

/-- The snapshots delivered so far. -/
def told (terminal : Terminal) : List Session := terminal.emitter.delivered.map (·.update.session)

theorem foldl_printDelivery_emitter (emitter : Emitter Unit) (deliveries : List (Delivery Unit))
    (terminal : Terminal) :
    deliveries.foldl printDelivery { terminal with emitter } =
      { deliveries.foldl printDelivery terminal with emitter } := by
  induction deliveries generalizing terminal with
  | nil => rfl
  | cons delivery deliveries ih => exact ih (terminal.printDelivery delivery)

/-- What was shown stays. -/
theorem prefix_foldl_printDelivery (deliveries : List (Delivery Unit)) (terminal : Terminal) :
    terminal.actions <+: (deliveries.foldl printDelivery terminal).actions := by
  induction deliveries generalizing terminal with
  | nil => exact List.prefix_rfl
  | cons delivery deliveries ih =>
    have hd : terminal.actions <+: (terminal.printDelivery delivery).actions :=
      List.prefix_append _ _
    exact hd.trans (ih _)

/-- What the printer knows and has printed goes with the snapshots it has seen. -/
structure Printed (sessions : List Session) (terminal : Terminal) : Prop where
  knows : terminal.printer.Knows sessions
  lines : progressOf terminal.actions = progressLines sessions

theorem Printed.foldl_printDelivery {sessions : List Session} {terminal : Terminal}
    (h : terminal.Printed sessions) (deliveries : List (Delivery Unit))
    (hs : Staged (sessions ++ deliveries.map (·.update.session))) :
    (deliveries.foldl printDelivery terminal).Printed
      (sessions ++ deliveries.map (·.update.session)) := by
  induction deliveries generalizing sessions terminal with
  | nil => rwa [List.map_nil, List.append_nil]
  | cons delivery deliveries ih =>
    rw [List.map_cons, List.append_cons] at hs ⊢
    obtain ⟨hk, hl⟩ := follow_concat h.knows hs.of_append
    refine ih ⟨hk, ?_⟩ hs
    rw [hl, ← h.lines, ← progressOf_follow]
    exact progressOf_append _ _

/-! ### Attending to what is published -/

/-- A terminal that attends to published snapshots: the printer has seen those delivered, and all others
wait in the queue. -/
structure Attends (published : List Session) (terminal : Terminal) : Prop extends
    terminal.Printed terminal.told where
  alone : terminal.emitter.listeners = [⟨0, ()⟩]
  free : terminal.emitter.handling = none
  runs : terminal.emitter.queue ≠ [] → terminal.emitter.dispatching = true
  history : terminal.emitter.history.map (·.session) = published
  complete : terminal.emitter.delivered.map (·.update) ++ terminal.emitter.queue =
    terminal.emitter.history

theorem attends_listening : listening.Attends [] where
  knows := knows_nil
  lines := rfl
  alone := rfl
  free := rfl
  runs := fun h => absurd rfl h
  history := rfl
  complete := rfl

section Attending

variable {published : List Session} {terminal : Terminal} {κ : Type}

/-- With nothing in the queue, all lines for what was published are printed. -/
theorem Attends.progressOf_actions (h : terminal.Attends published)
    (hq : terminal.emitter.queue = []) : progressOf terminal.actions = progressLines published := by
  have ht : terminal.told = published := by
    rw [← h.history, ← h.complete, hq, List.append_nil, List.map_map]
    rfl
  rw [h.lines, ht]

/-- Other things may be shown in between. -/
theorem Attends.act (h : terminal.Attends published) (actions : List Action)
    (ha : progressOf actions = []) : (terminal.act actions).Attends published :=
  { h with
    lines := by
      have hl : progressOf (terminal.actions ++ actions) = progressLines terminal.told := by
        rw [progressOf_append, ha, List.append_nil, h.lines]
      exact hl }

theorem Attends.stopSpinner (h : terminal.Attends published) :
    terminal.stopSpinner.Attends published := by
  unfold Terminal.stopSpinner
  split
  · exact { h.act [.stopSpinner] rfl with }
  · exact h

theorem Attends.tick (h : terminal.Attends published) (stage : Stage) (progress : Progress) :
    (terminal.tick stage progress).Attends published := by
  unfold Terminal.tick
  dsimp only
  split
  · exact h.stopSpinner
  split
  · exact h.act _ rfl
  · exact { h.act [.label (spinnerLabel stage progress), .startSpinner] rfl with }

theorem Attends.publish (h : terminal.Attends published) (s : Session) :
    Attends (published ++ [s]) { terminal with emitter := terminal.emitter.publish s } := by
  have hp : terminal.emitter.publish s = { terminal.emitter with
      history := terminal.emitter.history ++ [.after terminal.emitter.history s]
      queue := terminal.emitter.queue ++ [.after terminal.emitter.history s]
      dispatching := true } := by
    unfold Emitter.publish
    dsimp only
    rw [h.alone]
    rfl
  rw [hp]
  exact { h with
    runs := fun _ => rfl
    history := by
      rw [List.map_append, h.history]
      rfl
    complete := by rw [← List.append_assoc, h.complete] }

/-- The emitter after a drain. -/
theorem Attends.drain_emitter (h : terminal.Attends published) :
    terminal.emitter.drain passive terminal.emitter.backlog = { terminal.emitter with
      queue := []
      delivered := terminal.emitter.delivered ++
        terminal.emitter.queue.map fun update => ⟨⟨0, ()⟩, update⟩ } :=
  Emitter.drain_alone (fun _ _ => rfl) h.alone h.free h.runs

/-- A drain prints what waits. -/
theorem Attends.drain (h : terminal.Attends published) (hs : Staged published) :
    terminal.drain.Attends published ∧ terminal.drain.emitter.queue = [] := by
  unfold Terminal.drain printSince
  rw [h.drain_emitter]
  dsimp only
  rw [List.drop_left, foldl_printDelivery_emitter]
  generalize hd : terminal.emitter.queue.map (fun update => (⟨⟨0, ()⟩, update⟩ : Delivery Unit)) =
    deliveries
  have hu : deliveries.map (·.update) = terminal.emitter.queue := by
    rw [← hd, List.map_map]
    exact List.map_id _
  have htold : terminal.told ++ deliveries.map (·.update.session) = published := by
    rw [← h.history, ← h.complete, ← hu, ← List.map_append, List.map_map, List.map_append]
    rfl
  have hp := h.toPrinted.foldl_printDelivery deliveries (htold.symm ▸ hs)
  refine ⟨⟨?_, h.alone, h.free, fun hn => absurd rfl hn, h.history, ?_⟩, rfl⟩
  · have ht : (terminal.emitter.delivered ++ deliveries).map (·.update.session) =
        terminal.told ++ deliveries.map (·.update.session) := List.map_append
    rw [← ht] at hp
    exact ⟨hp.knows, hp.lines⟩
  · rw [List.append_nil, List.map_append, hu, h.complete]

/-- With nothing in the queue, a drain does nothing. -/
theorem Attends.drain_eq (h : terminal.Attends published) (hq : terminal.emitter.queue = []) :
    terminal.drain = terminal := by
  have hi : terminal.emitter.isIdle = true := by simp [Emitter.isIdle, hq, h.free]
  unfold Terminal.drain printSince
  rw [Emitter.drain_of_isIdle hi]
  dsimp only
  rw [List.drop_length, List.foldl_nil]

/-- Whatever event comes, a terminal attends to what is published. -/
theorem Attends.follow (h : terminal.Attends published) (event : Event κ)
    (hs : Staged (published ++ event.shown?.toList)) :
    (terminal.follow event).Attends (published ++ event.shown?.toList) := by
  cases event with
  | published update => exact h.publish update.session
  | began stage budget =>
    simp only [Event.shown?, Option.toList_none, List.append_nil] at hs ⊢
    exact (h.drain hs).1
  | attempted attempt =>
    simp only [Event.shown?, Option.toList_none, List.append_nil]
    exact h
  | streamed stage progress =>
    simp only [Event.shown?, Option.toList_none, List.append_nil]
    exact h.tick stage progress
  | answered stage output =>
    simp only [Event.shown?, Option.toList_none, List.append_nil]
    exact h
  | reasoned stage text =>
    simp only [Event.shown?, Option.toList_none, List.append_nil]
    exact h.act _ rfl

theorem Attends.followAll (h : terminal.Attends published) (events : List (Event κ))
    (hs : Staged (published ++ events.filterMap Event.shown?)) :
    (terminal.followAll events).Attends (published ++ events.filterMap Event.shown?) := by
  induction events generalizing published terminal with
  | nil => rwa [List.filterMap_nil, List.append_nil]
  | cons event events ih =>
    rw [Event.filterMap_shown?_cons, ← List.append_assoc] at hs ⊢
    exact ih (h.follow event hs.of_append) hs

/-! ### What the emitter has published -/

/-- A drain publishes nothing. -/
theorem Attends.history_drain (h : terminal.Attends published) :
    terminal.drain.emitter.history = terminal.emitter.history := by
  unfold Terminal.drain printSince
  rw [h.drain_emitter]
  dsimp only
  rw [foldl_printDelivery_emitter]

theorem emitter_stopSpinner (terminal : Terminal) : terminal.stopSpinner.emitter = terminal.emitter := by
  unfold Terminal.stopSpinner
  split <;> rfl

theorem emitter_tick (terminal : Terminal) (stage : Stage) (progress : Progress) :
    (terminal.tick stage progress).emitter = terminal.emitter := by
  unfold Terminal.tick
  dsimp only
  split
  · exact emitter_stopSpinner terminal
  split <;> rfl

theorem Attends.history_follow (h : terminal.Attends published) (event : Event κ) :
    (terminal.follow event).emitter.history =
      Update.extend terminal.emitter.history event.shown?.toList := by
  cases event with
  | published update =>
    change (terminal.emitter.publish update.session).history = _
    unfold Emitter.publish
    dsimp only
    split <;> rfl
  | began stage budget => exact h.history_drain
  | streamed stage progress => exact congrArg _ (emitter_tick terminal stage progress)
  | attempted | answered | reasoned => rfl

/-- The emitter publishes what the events tell of. -/
theorem Attends.history_followAll (h : terminal.Attends published) (events : List (Event κ))
    (hs : Staged (published ++ events.filterMap Event.shown?)) :
    (terminal.followAll events).emitter.history =
      Update.extend terminal.emitter.history (events.filterMap Event.shown?) := by
  induction events generalizing published terminal with
  | nil => rfl
  | cons event events ih =>
    rw [Event.filterMap_shown?_cons, ← List.append_assoc] at hs
    rw [Event.filterMap_shown?_cons, Update.extend_append, ← h.history_follow event]
    exact ih (h.follow event hs.of_append) hs

end Attending

/-! ### What is shown stays -/

section Growing

variable (terminal : Terminal)

theorem prefix_drain : terminal.actions <+: terminal.drain.actions :=
  prefix_foldl_printDelivery _ { terminal with
    emitter := terminal.emitter.drain passive terminal.emitter.backlog }

/-- To close a terminal is to drain it and to stop the dispatcher. -/
theorem close_eq :
    terminal.close = { terminal.drain with emitter := terminal.drain.emitter.stop } := by
  have hs : ∀ emitter : Emitter Unit, emitter.stop.delivered = emitter.delivered := by
    intro emitter
    unfold Emitter.stop
    split <;> rfl
  unfold close drain Emitter.close printSince
  generalize terminal.emitter.drain passive terminal.emitter.backlog = emitter
  dsimp only
  rw [hs, foldl_printDelivery_emitter emitter.stop, foldl_printDelivery_emitter emitter]

theorem prefix_stopSpinner : terminal.actions <+: terminal.stopSpinner.actions := by
  unfold stopSpinner
  split
  · exact List.prefix_append _ _
  · exact List.prefix_rfl

theorem prefix_follow {κ : Type} (event : Event κ) :
    terminal.actions <+: (terminal.follow event).actions := by
  cases event with
  | published update => exact List.prefix_rfl
  | began stage budget => exact prefix_drain terminal
  | attempted attempt => exact List.prefix_rfl
  | answered stage output => exact List.prefix_rfl
  | streamed stage progress =>
    unfold follow tick
    dsimp only
    split
    · exact prefix_stopSpinner terminal
    split <;> exact List.prefix_append _ _
  | reasoned stage text => exact List.prefix_append _ _

theorem prefix_followAll {κ : Type} (events : List (Event κ)) :
    terminal.actions <+: (terminal.followAll events).actions := by
  induction events generalizing terminal with
  | nil => exact List.prefix_rfl
  | cons event events ih => exact (prefix_follow terminal event).trans (ih _)

end Growing

end Terminal
end PlanAssistant
