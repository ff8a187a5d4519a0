import Mathlib.Data.List.Induction
import PlanAssistant.Updates.Emitter

/-!
The steps of an emitter.  The owner and the dispatcher take steps in any order, and a program of the
owner stands for one such order.  Whatever they do, registrations keep their numbers, nobody waits twice
for an update, and a dispatcher is running whenever something is left to hand out.
-/
namespace PlanAssistant.Emitter

variable {ι : Type}

/-! ### Tidy emitters -/

/-- Registrations are numbered in order, nobody waits twice for an update, and a dispatcher is running
whenever something is left to hand out. -/
structure Tidy (emitter : Emitter ι) : Prop where
  enrolled : (emitter.listeners.map (·.number) ++ [emitter.registered]).Pairwise (· < ·)
  waiting : ∀ handling, emitter.handling = some handling → handling.waiting.Nodup
  dispatched : emitter.isIdle = false → emitter.dispatching = true

namespace Tidy

variable {emitter : Emitter ι}

theorem number_lt (h : emitter.Tidy) {r : Registration ι} (hr : r ∈ emitter.listeners) :
    r.number < emitter.registered := by
  have hp := (List.pairwise_append.mp h.enrolled).2.2
  exact hp r.number (List.mem_map_of_mem hr) _ (List.mem_singleton_self _)

theorem nodup (h : emitter.Tidy) : emitter.listeners.Nodup := by
  have hp := (List.pairwise_append.mp h.enrolled).1
  refine ((List.pairwise_map.mp hp).imp ?_ : emitter.listeners.Nodup)
  rintro a b hab rfl
  exact Nat.lt_irrefl _ hab

theorem listen (h : emitter.Tidy) (listener : ι) : (emitter.listen listener).Tidy := by
  refine ⟨?_, h.waiting, h.dispatched⟩
  have he := h.enrolled
  simp only [Emitter.listen, List.map_append, List.map_cons, List.map_nil]
  refine List.pairwise_append.mpr ⟨he, List.pairwise_singleton _ _, ?_⟩
  intro n hn m hm
  obtain rfl := List.mem_singleton.mp hm
  rcases List.mem_append.mp hn with hn | hn
  · obtain ⟨r, hr, rfl⟩ := List.mem_map.mp hn
    exact Nat.lt_succ_of_lt (h.number_lt hr)
  · obtain rfl := List.mem_singleton.mp hn
    exact Nat.lt_succ_self _

theorem publish (h : emitter.Tidy) (s : Session) : (emitter.publish s).Tidy := by
  unfold Emitter.publish
  dsimp only
  split
  · exact ⟨h.enrolled, h.waiting, h.dispatched⟩
  · exact ⟨h.enrolled, h.waiting, fun _ => rfl⟩

theorem breakOff (h : emitter.Tidy) : emitter.breakOff.Tidy := by
  refine ⟨h.enrolled, ?_, ?_⟩
  · intro handling hh
    obtain ⟨before, hb, rfl⟩ := Option.map_eq_some_iff.mp hh
    exact h.waiting before hb
  · intro hi
    refine h.dispatched ?_
    simpa [isIdle, Emitter.breakOff] using hi

theorem stop (h : emitter.Tidy) : emitter.stop.Tidy := by
  unfold Emitter.stop
  split
  · next hi =>
    refine ⟨h.enrolled, h.waiting, fun hn => ?_⟩
    have hn : emitter.isIdle = false := hn
    rw [hi] at hn
    contradiction
  · exact h

end Tidy

variable [DecidableEq ι]

/-! ### Steps -/

/-- A step of the owner, or one of the dispatcher.  The listeners may have changed their behaviour since
the last one. -/
inductive Step (ι : Type) where
  | listen (listener : ι)
  | withdraw (listener : ι)
  | publish (session : Session)
  | dispatch (behaviour : Behaviour ι)
  | stop

def step (emitter : Emitter ι) : Step ι → Emitter ι
  | .listen listener => emitter.listen listener
  | .withdraw listener => emitter.withdraw listener
  | .publish s => emitter.publish s
  | .dispatch behaviour => emitter.advance behaviour
  | .stop => emitter.stop

/-- A new emitter after some steps. -/
def after (steps : List (Step ι)) : Emitter ι := steps.foldl step {}

theorem after_concat (steps : List (Step ι)) (last : Step ι) :
    after (steps ++ [last]) = (after steps).step last := by
  simp [after]

/-- The steps it takes a drain to leave the emitter idle, as far as the limit allows. -/
def drainSteps (behaviour : Behaviour ι) : Nat → Emitter ι → Nat
  | 0, _ => 0
  | limit + 1, emitter =>
    if emitter.isIdle then 0 else drainSteps behaviour limit (emitter.advance behaviour) + 1

/-- The steps that an operation of the owner stands for. -/
def Operation.steps (behaviour : Behaviour ι) (limit : Nat) (emitter : Emitter ι) :
    Operation ι → List (Step ι)
  | .listen listener => [.listen listener]
  | .withdraw listener => [.withdraw listener]
  | .publish s => [.publish s]
  | .drain => List.replicate (emitter.drainSteps behaviour limit) (.dispatch behaviour)
  | .close => List.replicate (emitter.drainSteps behaviour limit) (.dispatch behaviour) ++ [.stop]

/-- The steps that a program of the owner stands for. -/
def schedule (behaviour : Behaviour ι) (limit : Nat) : Emitter ι → List (Operation ι) → List (Step ι)
  | _, [] => []
  | emitter, operation :: operations =>
    operation.steps behaviour limit emitter ++
      schedule behaviour limit (emitter.perform behaviour limit operation) operations

theorem foldl_dispatch_drainSteps (behaviour : Behaviour ι) (limit : Nat) (emitter : Emitter ι) :
    (List.replicate (emitter.drainSteps behaviour limit) (.dispatch behaviour)).foldl step emitter =
      emitter.drain behaviour limit := by
  induction limit generalizing emitter with
  | zero => rfl
  | succ limit ih =>
    unfold drainSteps drain
    split
    · rfl
    · exact ih (emitter.advance behaviour)

/-- A drain ends when everything is handed out, or at its limit. -/
theorem isIdle_drain_or (behaviour : Behaviour ι) (limit : Nat) (emitter : Emitter ι) :
    (emitter.drain behaviour limit).isIdle = true ∨ emitter.drainSteps behaviour limit = limit := by
  induction limit generalizing emitter with
  | zero => exact .inr rfl
  | succ limit ih =>
    unfold drainSteps drain
    split
    · next hi => exact .inl hi
    · exact (ih (emitter.advance behaviour)).imp_right fun hs => by rw [hs]

theorem foldl_steps (behaviour : Behaviour ι) (limit : Nat) (emitter : Emitter ι)
    (operation : Operation ι) :
    (operation.steps behaviour limit emitter).foldl step emitter =
      emitter.perform behaviour limit operation := by
  cases operation with
  | listen | withdraw | publish => rfl
  | drain => exact foldl_dispatch_drainSteps behaviour limit emitter
  | close =>
    rw [Operation.steps, List.foldl_append, foldl_dispatch_drainSteps]
    rfl

theorem foldl_schedule (behaviour : Behaviour ι) (limit : Nat) (emitter : Emitter ι)
    (operations : List (Operation ι)) :
    (schedule behaviour limit emitter operations).foldl step emitter =
      operations.foldl (perform behaviour limit) emitter := by
  induction operations generalizing emitter with
  | nil => rfl
  | cons operation operations ih =>
    rw [schedule, List.foldl_append, foldl_steps, ih, List.foldl_cons]

/-! ### What the dispatcher does -/

/-- The ways a step of the dispatcher can go. -/
inductive Advances (behaviour : Behaviour ι) (emitter : Emitter ι) : Emitter ι → Prop
  | rested (still : emitter.dispatching = false ∨ emitter.isIdle = true) :
    Advances behaviour emitter emitter
  | took {update : Update} {queue : List Update} (free : emitter.handling = none)
      (queued : emitter.queue = update :: queue) :
    Advances behaviour emitter
      { emitter with queue, handling := some { update, waiting := emitter.listeners } }
  | reacted {update : Update} {reaction : Reaction ι} {reactions : List (Reaction ι)}
      {waiting : List (Registration ι)}
      (handles : emitter.handling = some ⟨update, reaction :: reactions, waiting⟩) :
    Advances behaviour emitter
      ({ emitter with handling := some ⟨update, reactions, waiting⟩ }.react reaction)
  | handed {update : Update} {registration : Registration ι} {waiting : List (Registration ι)}
      (handles : emitter.handling = some ⟨update, [], registration :: waiting⟩) :
    Advances behaviour emitter
      { emitter with
        handling := some ⟨update, behaviour registration.listener update, waiting⟩
        delivered := emitter.delivered ++ [⟨registration, update⟩] }
  | finished {update : Update} (handles : emitter.handling = some ⟨update, [], []⟩) :
    Advances behaviour emitter { emitter with handling := none }

theorem advances_advance (behaviour : Behaviour ι) (emitter : Emitter ι) :
    Advances behaviour emitter (emitter.advance behaviour) := by
  unfold advance
  split
  · split
    · next hh =>
      split
      · next hq => exact .rested (.inr (by simp [isIdle, hh, hq]))
      · next hq => exact .took hh hq
    · next hh => exact .reacted hh
    · next hh => exact .handed hh
    · next hh => exact .finished hh
  · next hd => exact .rested (.inl (by simpa using hd))

/-! ### Steps of tidy emitters -/

namespace Tidy

variable {emitter : Emitter ι}

theorem withdraw (h : emitter.Tidy) (listener : ι) : (emitter.withdraw listener).Tidy := by
  refine ⟨h.enrolled.sublist ?_, h.waiting, h.dispatched⟩
  exact (List.filter_sublist.map _).append (List.Sublist.refl _)

theorem react (h : emitter.Tidy) (reaction : Reaction ι) : (emitter.react reaction).Tidy := by
  cases reaction with
  | withdraw listener => exact h.withdraw listener
  | publish s => exact h.publish s
  | fail => exact h.breakOff

theorem advance (h : emitter.Tidy) (behaviour : Behaviour ι) : (emitter.advance behaviour).Tidy := by
  have busy : ∀ handling, emitter.handling = some handling → emitter.dispatching = true := by
    intro handling hh
    exact h.dispatched (by simp [isIdle, hh])
  have ha := advances_advance behaviour emitter
  generalize emitter.advance behaviour = next at ha ⊢
  cases ha with
  | rested => exact h
  | took free queued =>
    refine ⟨h.enrolled, ?_, fun _ => h.dispatched (by simp [isIdle, queued])⟩
    rintro handling ⟨rfl⟩
    exact h.nodup
  | @reacted update reaction reactions waiting handles =>
    have ht : Tidy { emitter with handling := some ⟨update, reactions, waiting⟩ } := by
      refine ⟨h.enrolled, ?_, fun _ => busy _ handles⟩
      rintro handling ⟨rfl⟩
      exact h.waiting ⟨update, reaction :: reactions, waiting⟩ handles
    exact ht.react reaction
  | handed handles =>
    refine ⟨h.enrolled, ?_, fun _ => busy _ handles⟩
    rintro handling ⟨rfl⟩
    exact (List.nodup_cons.mp (h.waiting _ handles)).2
  | finished handles =>
    exact ⟨h.enrolled, fun _ hh => (nomatch hh), fun _ => busy _ handles⟩

theorem step (h : emitter.Tidy) (taken : Step ι) : (emitter.step taken).Tidy := by
  cases taken with
  | listen listener => exact h.listen listener
  | withdraw listener => exact h.withdraw listener
  | publish s => exact h.publish s
  | dispatch behaviour => exact h.advance behaviour
  | stop => exact h.stop

end Tidy

theorem tidy_after (steps : List (Step ι)) : (after steps).Tidy := by
  induction steps using List.reverseRecOn with
  | nil =>
    refine ⟨List.pairwise_singleton _ _, fun _ hh => (nomatch hh), fun hi => ?_⟩
    contradiction
  | append_singleton steps last ih =>
    rw [after_concat]
    exact ih.step last

end PlanAssistant.Emitter
