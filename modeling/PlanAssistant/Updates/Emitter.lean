import PlanAssistant.Updates.Basic

/-!
Delivering updates to listeners.  A published update waits in a queue until the dispatcher takes it and
hands it to every listener registered at that time, in the order of registration.  The dispatcher works
in small steps, between which the owner of the emitter may go on.  Listeners may withdraw, publish
further snapshots, or fail while they handle an update; one that fails keeps no other from it.
-/
namespace PlanAssistant

/-- A listener as it was registered; the same listener may be registered more than once. -/
structure Registration (ι : Type) where
  number : Nat
  listener : ι
deriving DecidableEq, Repr

/-- What a listener does with the emitter while it handles an update. -/
inductive Reaction (ι : Type) where
  | withdraw (listener : ι)
  | publish (session : Session)
  /-- Break off with an error, which ends the handling and is not passed on. -/
  | fail
deriving Repr

/-- An update that reached a registration. -/
structure Delivery (ι : Type) where
  registration : Registration ι
  update : Update
deriving DecidableEq, Repr

/-- An update that is being handed out: what the listener at work has still to do with it, and who comes
after. -/
structure Handling (ι : Type) where
  update : Update
  reactions : List (Reaction ι) := []
  waiting : List (Registration ι)
deriving Repr

structure Emitter (ι : Type) where
  listeners : List (Registration ι) := []
  /-- How many registrations were made. -/
  registered : Nat := 0
  /-- Everything published so far. -/
  history : List Update := []
  /-- Updates that wait for the dispatcher. -/
  queue : List Update := []
  /-- The update the dispatcher is at. -/
  handling : Option (Handling ι) := none
  dispatching : Bool := false
  /-- All deliveries so far. -/
  delivered : List (Delivery ι) := []
deriving Repr

namespace Emitter

variable {ι : Type} [DecidableEq ι]

/-- Register a listener. -/
def listen (listener : ι) (emitter : Emitter ι) : Emitter ι :=
  { emitter with
    listeners := emitter.listeners ++ [⟨emitter.registered, listener⟩]
    registered := emitter.registered + 1 }

/-- Remove all registrations of a listener. -/
def withdraw (listener : ι) (emitter : Emitter ι) : Emitter ι :=
  { emitter with listeners := emitter.listeners.filter (·.listener != listener) }

/-- Publish a snapshot; if anybody listens it is queued, and a dispatcher started that is not running. -/
def publish (s : Session) (emitter : Emitter ι) : Emitter ι :=
  let update := Update.after emitter.history s
  let emitter := { emitter with history := emitter.history ++ [update] }
  if emitter.listeners.isEmpty then emitter
  else { emitter with queue := emitter.queue ++ [update], dispatching := true }

/-! ### The dispatcher -/

/-- End what the listener at work still meant to do. -/
def breakOff (emitter : Emitter ι) : Emitter ι :=
  { emitter with handling := emitter.handling.map ({ · with reactions := [] }) }

def react (emitter : Emitter ι) : Reaction ι → Emitter ι
  | .withdraw listener => emitter.withdraw listener
  | .publish s => emitter.publish s
  | .fail => emitter.breakOff

/-- How each listener reacts to updates. -/
abbrev Behaviour (ι : Type) := ι → Update → List (Reaction ι)

/-- One step of a running dispatcher: take an update from the queue for those who listen now, hand it to
the next of them, do the next thing a listener does with it, or be done with it. -/
def advance (behaviour : Behaviour ι) (emitter : Emitter ι) : Emitter ι :=
  if emitter.dispatching then
    match emitter.handling with
    | none =>
      match emitter.queue with
      | [] => emitter
      | update :: queue =>
        { emitter with queue, handling := some { update, waiting := emitter.listeners } }
    | some ⟨update, reaction :: reactions, waiting⟩ =>
      { emitter with handling := some ⟨update, reactions, waiting⟩ }.react reaction
    | some ⟨update, [], registration :: waiting⟩ =>
      { emitter with
        handling := some ⟨update, behaviour registration.listener update, waiting⟩
        delivered := emitter.delivered ++ [⟨registration, update⟩] }
    | some ⟨_, [], []⟩ => { emitter with handling := none }
  else emitter

/-- Whether everything that was queued has been handed out. -/
def isIdle (emitter : Emitter ι) : Bool := emitter.queue.isEmpty && emitter.handling.isNone

/-- Let the dispatcher go on until everything is handed out; at most `limit` steps, for listeners that
never stop publishing. -/
def drain (behaviour : Behaviour ι) (limit : Nat) (emitter : Emitter ι) : Emitter ι :=
  match limit with
  | 0 => emitter
  | limit + 1 => if emitter.isIdle then emitter else (emitter.advance behaviour).drain behaviour limit

/-- Stop the dispatcher, which has to be idle. -/
def stop (emitter : Emitter ι) : Emitter ι :=
  if emitter.isIdle then { emitter with dispatching := false } else emitter

/-- Hand out what is queued, then stop the dispatcher. -/
def close (behaviour : Behaviour ι) (limit : Nat) (emitter : Emitter ι) : Emitter ι :=
  (emitter.drain behaviour limit).stop

/-- The steps it takes to hand everything out to listeners that do nothing with it. -/
def backlog (emitter : Emitter ι) : Nat :=
  emitter.queue.length * (emitter.listeners.length + 2) +
    match emitter.handling with
    | none => 0
    | some handling => handling.reactions.length + handling.waiting.length + 1

/-! ### Whole programs -/

/-- What the owner of an emitter does with it. -/
inductive Operation (ι : Type) where
  | listen (listener : ι)
  | withdraw (listener : ι)
  | publish (session : Session)
  | drain
  | close

def perform (behaviour : Behaviour ι) (limit : Nat) (emitter : Emitter ι) : Operation ι → Emitter ι
  | .listen listener => emitter.listen listener
  | .withdraw listener => emitter.withdraw listener
  | .publish s => emitter.publish s
  | .drain => emitter.drain behaviour limit
  | .close => emitter.close behaviour limit

/-- A new emitter after some operations. -/
def run (behaviour : Behaviour ι) (limit : Nat) (operations : List (Operation ι)) : Emitter ι :=
  operations.foldl (perform behaviour limit) {}

end Emitter
end PlanAssistant
