import PlanAssistant.Session.Basic

/-!
Updates: snapshots of a session, numbered in the order they are published.
-/
namespace PlanAssistant

structure Update where
  sequence : Nat
  session : Session
deriving DecidableEq, Repr, Inhabited

/-- The update that follows those published so far. -/
def Update.after (history : List Update) (s : Session) : Update := ⟨history.length, s⟩

end PlanAssistant
