import PlanAssistant.Proofs.Engine.Runs

/-!
The trace of an engine: everything it has published.  `Memory.Lawful` links each snapshot to the one
before it and ties the last one to the session at hand; every turn keeps it, whatever course it takes,
and so the trace of any number of turns obeys `LawfulTrace`.
-/
namespace PlanAssistant

/-- The session may come next in a trace: a later state of the same session, or the beginning of the
session that was started after it. -/
def Session.Leads (births : Births) (earlier later : Session) : Prop :=
  earlier.Follows later ∨
    earlier.Succeeds later ∧ ∃ n, earlier.id = (births n).1 ∧ later.id = (births (n + 1)).1

/-- What holds of the memory of an engine between its turns. -/
structure Memory.Lawful {ρ : Type} (births : Births) (memory : Memory ρ) : Prop where
  numbered : memory.history.map (·.sequence) = List.range memory.history.length
  consistent : ∀ s ∈ memory.history.map (·.session), s.Consistent
  linked : (memory.history.map (·.session)).IsChain (Session.Leads births)
  unheld : memory.session = none → memory.history = []
  held : ∀ s, memory.session = some s → s.Consistent ∧ s.birth = births memory.born
  /-- The session at hand is the last one published, but perhaps for its summary. -/
  shown : ∀ s, memory.session = some s → ∃ shown,
    (memory.history.map (·.session)).getLast? = some shown ∧ s = { shown with summary := s.summary }

theorem Memory.Lawful.consistent_held {ρ : Type} {births : Births} {memory : Memory ρ}
    (h : memory.Lawful births) (s : Session) (hs : memory.session = some s) : s.Consistent :=
  (h.held s hs).1

variable [Interpreter]

namespace Engine

variable {ρ κ : Type} (engine : Engine ρ κ) (births : Births)

omit [Interpreter] in
theorem lawful_fresh (files : Files.Node) (replies : ρ) :
    (Memory.fresh files replies).Lawful births where
  numbered := rfl
  consistent := fun s hs => absurd hs List.not_mem_nil
  linked := .nil
  unheld := fun _ => rfl
  held := fun s hs => by contradiction
  shown := fun s hs => by contradiction

omit [Interpreter] in
/-- The session an input opens may come next after the last snapshot. -/
theorem leads_opened {memory : Memory ρ} (hm : memory.Lawful births) {text : String}
    {shown s : Session} (hl : (memory.history.map (·.session)).getLast? = some shown)
    (ho : memory.Opens births text s) : shown.Leads births s := by
  cases hs : memory.session with
  | none =>
    rw [hm.unheld hs] at hl
    contradiction
  | some current =>
    obtain ⟨x, hx, hc⟩ := hm.shown current hs
    obtain rfl : x = shown := Option.some.inj (hx.symm.trans hl)
    have hid : x.id = (births memory.born).1 := by
      rw [← (hm.held current hs).2, hc]
      rfl
    cases ho with
    | resumed held takes =>
      obtain rfl := Option.some.inj (held.symm.trans hs)
      have hf := Session.follows_taken (hm.held _ hs).1 text
      rw [hc] at hf ⊢
      exact .inl ⟨hf.status, hf.id, hf.createdAt, hf.task, hf.taskHistory, hf.clarifications,
        hf.transcript⟩
    | started left =>
      have ht := left current hs
      have hx : current.status = x.status := by rw [hc]
      rw [hx] at ht
      refine .inr ⟨⟨rfl, rfl, rfl, ?_, ?_⟩, memory.born, hid, rfl⟩
      · intro h
        rw [h] at ht
        contradiction
      · intro h
        rw [h] at ht
        contradiction

/-- Every turn keeps the memory lawful. -/
theorem lawful_take {memory : Memory ρ} (hm : memory.Lawful births) (submission : Submission ρ) :
    (engine.take births memory submission).memory.Lawful births := by
  obtain ⟨s, sessions, last, ho, ht, hlast, hborn, hh⟩ :=
    engine.take_trail births hm.consistent_held submission
  obtain ⟨hs, hp⟩ := ho.status_pending hm.consistent_held
  have hall : ∀ t ∈ s :: sessions, t.Consistent := by
    refine List.forall_mem_cons.mpr ⟨?_, ht.consistent hp⟩
    exact ⟨fun h => by rw [hs] at h; contradiction, fun h => by rw [hp] at h; contradiction⟩
  have hmap : (engine.take births memory submission).memory.history.map (·.session) =
      memory.history.map (·.session) ++ (s :: sessions) := by
    rw [hh, Update.map_session_extend]
  obtain ⟨shown, hshown, hsum⟩ := ht.getLast
  have hget : (memory.history.map (·.session) ++ (s :: sessions)).getLast? = some shown := by
    rw [List.getLast?_append, hshown]
    rfl
  refine ⟨?_, ?_, ?_, ?_, ?_, ?_⟩
  · rw [hh]
    exact Update.numbered_extend hm.numbered _
  · rw [hmap]
    exact List.forall_mem_append.mpr ⟨hm.consistent, hall⟩
  · rw [hmap]
    refine hm.linked.append ((ht.isChain hs).imp fun _ _ h => .inl h) ?_
    intro x hx y hy
    obtain rfl := Option.mem_some.mp hy
    exact leads_opened births hm hx ho
  · intro hn
    rw [hlast] at hn
    contradiction
  · intro t hl
    obtain rfl := Option.some.inj (hlast.symm.trans hl)
    refine ⟨?_, ?_⟩
    · rw [hsum]
      exact hall shown (List.mem_of_getLast? hshown)
    · rw [ht.birth, hborn, ho.birth hm.held]
  · intro t hl
    obtain rfl := Option.some.inj (hlast.symm.trans hl)
    exact ⟨shown, hmap ▸ hget, hsum⟩

/-- The memory is lawful after any inputs. -/
theorem lawful_after (files : Files.Node) (replies : ρ) (submissions : List (Submission ρ)) :
    (engine.after births (.fresh files replies) submissions).Lawful births := by
  induction submissions using List.reverseRecOn with
  | nil => exact lawful_fresh births files replies
  | append_singleton submissions submission ih =>
    rw [after_concat]
    exact engine.lawful_take births ih submission

end Engine

/-! ### Traces -/

/-- The law of traces.  Snapshots are numbered without gaps, and hold a pending question exactly while
an answer is awaited.  Each one follows the one before it, or else begins a new session where the one
before took no more input; and as long as sessions started one after the other have different ids, the
ids tell which of the two it is. -/
structure LawfulTrace (births : Births) (history : List Update) : Prop where
  numbered : history.map (·.sequence) = List.range history.length
  pending : ∀ u ∈ history, u.session.pending.isSome = true ↔ u.session.status = .awaitingClarification
  linked : history.IsChain fun earlier later =>
    earlier.session.Follows later.session ∨ earlier.session.Succeeds later.session
  renewed : history.IsChain fun earlier later =>
    later.session.id ≠ earlier.session.id → earlier.session.Succeeds later.session
  continued : (∀ n, (births n).1 ≠ (births (n + 1)).1) → history.IsChain fun earlier later =>
    later.session.id = earlier.session.id → earlier.session.Follows later.session

/-- Whatever the model answers and the user submits, the trace is lawful. -/
theorem Engine.lawfulTrace_after {ρ κ : Type} (engine : Engine ρ κ) (births : Births)
    (files : Files.Node) (replies : ρ) (submissions : List (Submission ρ)) :
    LawfulTrace births (engine.after births (.fresh files replies) submissions).history := by
  have hm := engine.lawful_after births files replies submissions
  have hl := (List.isChain_map _).mp hm.linked
  refine ⟨hm.numbered, ?_, ?_, ?_, ?_⟩
  · intro u hu
    exact (hm.consistent u.session (List.mem_map_of_mem hu)).symm
  · exact hl.imp fun _ _ h => h.imp_right And.left
  · refine hl.imp fun earlier later h hne => ?_
    rcases h with h | h
    · exact absurd h.id hne
    · exact h.1
  · intro hb
    refine hl.imp fun earlier later h he => ?_
    rcases h with h | ⟨-, n, hn, hn'⟩
    · exact h
    · exact absurd (hn.symm.trans (he.symm.trans hn')) (hb n)

end PlanAssistant
