import Mathlib.Data.List.Infix
import Mathlib.Data.List.TakeWhile
import PlanAssistant.Text.Blank

/-!
Stripped texts.  A text is bare of a class of characters when neither of its ends is in the class.
Stripping takes characters of the class off both ends and leaves a bare text; whatever stands between
characters of the class and is bare is what stripping leaves.
-/
namespace PlanAssistant.Text

/-- Neither end of a text is in the class. -/
structure Bare (drop : Char → Bool) (cs : List Char) : Prop where
  head : ∀ c ∈ cs.head?, drop c = false
  last : ∀ c ∈ cs.getLast?, drop c = false

section Strip

variable {drop : Char → Bool} {lead cs trail left right : List Char} {mark : Char}

theorem dropWhile_of_head (h : ∀ c ∈ cs.head?, drop c = false) : cs.dropWhile drop = cs := by
  cases cs with
  | nil => rfl
  | cons c rest => exact List.dropWhile_cons_of_neg (by simp [h c rfl])

theorem head?_dropWhile (drop : Char → Bool) (cs : List Char) :
    ∀ c ∈ (cs.dropWhile drop).head?, drop c = false := by
  intro c hc
  have hn := List.head?_dropWhile_not drop cs
  rw [hc] at hn
  simpa using hn

/-- Stripping takes characters of the class off both ends. -/
theorem exists_eq_stripWhile (drop : Char → Bool) (cs : List Char) :
    ∃ lead trail, cs = lead ++ stripWhile drop cs ++ trail ∧ (∀ c ∈ lead, drop c = true) ∧
      ∀ c ∈ trail, drop c = true := by
  refine ⟨cs.takeWhile drop, ((cs.dropWhile drop).reverse.takeWhile drop).reverse, ?_,
    fun c hc => List.mem_takeWhile_imp hc,
    fun c hc => List.mem_takeWhile_imp (List.mem_reverse.mp hc)⟩
  rw [stripWhile, List.append_assoc, ← List.reverse_append, List.takeWhile_append_dropWhile,
    List.reverse_reverse, List.takeWhile_append_dropWhile]

theorem bare_stripWhile (drop : Char → Bool) (cs : List Char) : Bare drop (stripWhile drop cs) where
  head := by
    obtain ⟨more, hm⟩ : stripWhile drop cs <+: cs.dropWhile drop := by
      rw [stripWhile, ← List.reverse_suffix, List.reverse_reverse]
      exact List.dropWhile_suffix drop
    intro c hc
    refine head?_dropWhile drop cs c ?_
    rw [← hm, List.head?_append, hc]
    rfl
  last := by
    intro c hc
    rw [stripWhile, List.getLast?_reverse] at hc
    exact head?_dropWhile _ _ c hc

/-- Of characters of the class around a bare text, stripping leaves the bare text. -/
theorem stripWhile_append_append (hl : ∀ c ∈ lead, drop c = true) (hc : Bare drop cs)
    (ht : ∀ c ∈ trail, drop c = true) : stripWhile drop (lead ++ cs ++ trail) = cs := by
  rw [stripWhile, List.append_assoc, List.dropWhile_append_of_pos hl]
  cases cs with
  | nil =>
    rw [List.nil_append, List.dropWhile_eq_nil_iff.mpr ht]
    rfl
  | cons c rest =>
    have hfirst : ¬ drop c = true := by simpa using hc.head c rfl
    have hlast : (c :: rest).reverse.dropWhile drop = (c :: rest).reverse :=
      dropWhile_of_head fun d hd => hc.last d (by rwa [List.head?_reverse] at hd)
    rw [List.cons_append, List.dropWhile_cons_of_neg hfirst, ← List.cons_append, List.reverse_append,
      List.dropWhile_append_of_pos (fun d hd => ht d (List.mem_reverse.mp hd)), hlast,
      List.reverse_reverse]

theorem stripWhile_of_bare (h : Bare drop cs) : stripWhile drop cs = cs := by
  simpa using stripWhile_append_append (List.forall_mem_nil _) h (List.forall_mem_nil _)

/-- Characters of the class around a text make no difference to what stripping leaves. -/
theorem stripWhile_around (hl : ∀ c ∈ lead, drop c = true) (ht : ∀ c ∈ trail, drop c = true) :
    stripWhile drop (lead ++ cs ++ trail) = stripWhile drop cs := by
  obtain ⟨first, last, hcs, hfirst, hlast⟩ := exists_eq_stripWhile drop cs
  have hsplit : lead ++ cs ++ trail = (lead ++ first) ++ stripWhile drop cs ++ (last ++ trail) := by
    conv_lhs => rw [hcs]
    simp
  rw [hsplit]
  refine stripWhile_append_append ?_ (bare_stripWhile drop cs) ?_
  · exact fun c hc => (List.mem_append.mp hc).elim (hl c) (hfirst c)
  · exact fun c hc => (List.mem_append.mp hc).elim (hlast c) (ht c)

theorem stripWhile_infix (drop : Char → Bool) (cs : List Char) : stripWhile drop cs <:+: cs := by
  obtain ⟨lead, trail, hcs, -, -⟩ := exists_eq_stripWhile drop cs
  exact ⟨lead, trail, hcs.symm⟩

/-! ### Marks outside of the class -/

theorem dropWhile_append_cons (hm : drop mark = false) :
    (left ++ mark :: right).dropWhile drop = left.dropWhile drop ++ mark :: right := by
  rw [List.dropWhile_append]
  split
  · next he =>
    rw [List.isEmpty_iff.mp he, List.nil_append, List.dropWhile_cons_of_neg (by simp [hm])]
  · rfl

/-- What stands before a mark outside of the class is stripped in front alone, and what stands after it
at the back alone. -/
theorem stripWhile_append_cons (hm : drop mark = false) : stripWhile drop (left ++ mark :: right) =
    left.dropWhile drop ++ mark :: (right.reverse.dropWhile drop).reverse := by
  rw [stripWhile, dropWhile_append_cons hm, List.reverse_append, List.reverse_cons, List.append_assoc,
    List.singleton_append, dropWhile_append_cons hm]
  simp

theorem stripWhile_dropWhile : stripWhile drop (cs.dropWhile drop) = stripWhile drop cs := by
  have h : stripWhile drop (cs.takeWhile drop ++ cs.dropWhile drop ++ []) =
      stripWhile drop (cs.dropWhile drop) :=
    stripWhile_around (fun c hc => List.mem_takeWhile_imp hc) (List.forall_mem_nil _)
  rw [List.append_nil, List.takeWhile_append_dropWhile] at h
  exact h.symm

theorem stripWhile_reverse_dropWhile :
    stripWhile drop (cs.reverse.dropWhile drop).reverse = stripWhile drop cs := by
  have h : stripWhile drop
        ([] ++ (cs.reverse.dropWhile drop).reverse ++ (cs.reverse.takeWhile drop).reverse) =
      stripWhile drop (cs.reverse.dropWhile drop).reverse :=
    stripWhile_around (List.forall_mem_nil _) fun c hc => List.mem_takeWhile_imp (List.mem_reverse.mp hc)
  rw [List.nil_append, ← List.reverse_append, List.takeWhile_append_dropWhile, List.reverse_reverse] at h
  exact h.symm

/-- Stripping at the back leaves the first character, if there is one outside of the class. -/
theorem head?_stripWhile : (stripWhile drop cs).head? = (cs.dropWhile drop).head? := by
  rw [stripWhile]
  cases hd : cs.dropWhile drop with
  | nil => rfl
  | cons c rest =>
    have hc : drop c = false := head?_dropWhile drop cs c (by rw [hd]; rfl)
    rw [List.reverse_cons, dropWhile_append_cons hc]
    simp

end Strip
end PlanAssistant.Text
