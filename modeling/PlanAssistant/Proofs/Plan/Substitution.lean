import PlanAssistant.Proofs.Plan.References

/-!
Resolving as a substitution.  A text is resolved piece by piece wherever no token lies across the cut, each
token becomes its output or stays, and what was put in is not looked at again; of a table of outputs only
the entries for the tokens of the text matter, each token with the whole run of its digits.
-/
namespace PlanAssistant.Outputs

/-- A token of the two texts together begins in the first and ends in the second: `#E` or its digits are
cut in two, or digits of the second text lengthen a token of the first. -/
def Straddled (left right : List Char) : Prop :=
  ∃ before number after, TokenAt before number after (left ++ right) ∧
    before.length < left.length ∧ left.length < (before ++ token number).length

section Cuts

variable {outputs : Outputs} {number after text left right : List Char} {c : Char}

/-- A character at which no token starts stays. -/
theorem resolveFrom_cons (h : ∀ number after, ¬ TokenAt [] number after (c :: text)) :
    outputs.resolveFrom (c :: text) = c :: outputs.resolveFrom text := by
  refine ((replaced_iff outputs).mp ?_).symm
  exact (replaced_resolveFrom outputs text).cons fun number after ht => absurd ht (h number after)

/-- A text that starts with a token still starts with one when there is more behind it, though perhaps
with a longer one. -/
theorem TokenAt.exists_append (h : TokenAt [] number after left) (right : List Char) :
    ∃ number after, TokenAt [] number after (left ++ right) := by
  have hs : left ++ right = '#' :: 'E' :: (number ++ (after ++ right)) := by simp [h.spelled, token]
  refine ⟨_, _, hs ▸ tokenAt_span ?_⟩
  obtain ⟨d, digits, rfl⟩ := List.exists_cons_of_ne_nil h.number_ne
  rw [List.cons_append, List.takeWhile_cons_of_pos (h.digits d List.mem_cons_self)]
  exact List.cons_ne_nil _ _

/-- The second text starts within a token, after its hash sign. -/
theorem Straddled.head (h : Straddled left right) :
    ∃ c ∈ right.head?, c = 'E' ∨ Text.isDigit c = true := by
  obtain ⟨before, number, after, ht, hb, he⟩ := h
  have hs : before ++ (token number ++ after) = left ++ right := by
    rw [ht.spelled, List.append_assoc]
  obtain ⟨front, rfl⟩ : before <+: left :=
    List.prefix_of_prefix_length_le ⟨_, hs⟩ (List.prefix_append left right) (Nat.le_of_lt hb)
  have htoken : token number ++ after = front ++ right := by simpa using hs
  obtain ⟨back, hback⟩ : front <+: token number :=
    List.prefix_of_prefix_length_le ⟨right, htoken.symm⟩ (List.prefix_append _ _) (by simp at he; omega)
  have hright : right = back ++ after := by simpa [← hback] using htoken.symm
  obtain ⟨c, inner, rfl⟩ := List.exists_cons_of_ne_nil (l := front) (by rintro rfl; simp at hb)
  obtain ⟨d, last, rfl⟩ := List.exists_cons_of_ne_nil (l := back) (by
    rintro rfl
    simp [← hback] at he)
  have hd : d ∈ 'E' :: number := by
    rw [← (List.cons.inj hback).2]
    simp
  refine ⟨d, by simp [hright], ?_⟩
  rcases List.mem_cons.mp hd with rfl | hd
  · exact .inl rfl
  · exact .inr (ht.digits d hd)

theorem Straddled.prepend (h : Straddled left right) (lead : List Char) :
    Straddled (lead ++ left) right := by
  obtain ⟨before, number, after, ht, hb, he⟩ := h
  refine ⟨lead ++ before, number, after, ?_, by simpa using hb, by simpa using he⟩
  rw [List.append_assoc]
  exact ht.prepend lead

/-- Two texts are resolved each on its own when no token lies across the cut between them. -/
theorem resolveFrom_append (h : ¬ Straddled left right) :
    outputs.resolveFrom (left ++ right) = outputs.resolveFrom left ++ outputs.resolveFrom right := by
  induction hn : left.length using Nat.strongRecOn generalizing left with
  | ind n ih =>
    cases left with
    | nil => simp [resolveFrom]
    | cons c rest =>
      by_cases hstart : ∃ number after, TokenAt [] number after (c :: rest ++ right)
      · obtain ⟨number, after, ht⟩ := hstart
        have hfits : ([] ++ token number).length ≤ (c :: rest).length :=
          Nat.not_lt.mp fun hlong => h ⟨[], number, after, ht, by simp, hlong⟩
        obtain ⟨more, hm⟩ := ht.within_left hfits
        have hrest : c :: rest = token number ++ more := hm.spelled
        have hafter : after = more ++ right := by
          have hs := ht.spelled
          rw [hrest] at hs
          simpa using hs.symm
        have hlt : more.length < n := by
          rw [← hn, hrest, List.length_append]
          simp only [token, List.length_cons]
          omega
        have hcut : ¬ Straddled more right := fun hs => h (hrest ▸ hs.prepend (token number))
        rw [resolveFrom_token outputs ht, resolveFrom_token outputs hm, hafter, ih _ hlt hcut rfl]
        simp
      · rw [not_exists] at hstart
        have hwhole : ∀ number after, ¬ TokenAt [] number after (c :: (rest ++ right)) :=
          fun number after ht => hstart number ⟨after, ht⟩
        have hleft : ∀ number after, ¬ TokenAt [] number after (c :: rest) := by
          intro number after ht
          obtain ⟨longer, behind, hl⟩ := ht.exists_append right
          exact hwhole longer behind hl
        have hcut : ¬ Straddled rest right := fun hs => h (hs.prepend [c])
        rw [List.cons_append, resolveFrom_cons hwhole, resolveFrom_cons hleft,
          ih _ (by rw [← hn]; simp) hcut rfl, List.cons_append]

end Cuts

/-! ### Tables -/

section Tables

variable {outputs others : Outputs} {text resolved : List Char}
  {output? other? : String → Option String}

/-- What a text is resolved to depends on the outputs for its own tokens alone. -/
theorem Replaced.congr (h : Replaced output? text resolved)
    (heq : ∀ before number after, TokenAt before number after text →
      other? (String.ofList number) = output? (String.ofList number)) : Replaced other? text resolved := by
  induction h with
  | kept free =>
    exact .kept fun before number after ht => (heq _ _ _ ht).trans (free _ _ _ ht)
  | @put text before number after resolved output found free known rest ih =>
    have hs : text = before ++ (token number ++ after) := by simp [found.spelled]
    refine .put found (fun first digits last ht => ?_) ((heq _ _ _ found).trans known)
      (ih fun first digits last ht => heq (before ++ token number ++ first) digits last ?_)
    · refine (heq first digits (last ++ (token number ++ after)) ?_).trans (free _ _ _ ht)
      rw [hs]
      exact ht.append (by simpa [token] using not_isDigit_hash)
    · rw [hs, ← List.append_assoc]
      exact ht.prepend _

theorem resolveFrom_congr (heq : ∀ before number after, TokenAt before number after text →
    others.get? (String.ofList number) = outputs.get? (String.ofList number)) :
    others.resolveFrom text = outputs.resolveFrom text :=
  ((replaced_iff others).mp ((replaced_resolveFrom outputs text).congr heq)).symm

end Tables

/-- Resolving puts in the outputs all at once: two texts are resolved each on its own unless a token lies
across the cut; a token alone becomes the output for its digits, as it stands, or stays; and entries for
other numbers than those of the text's tokens make no difference. -/
theorem resolve_simultaneous (outputs : Outputs) :
    (∀ left right : String, ¬ Straddled left.toList right.toList →
      outputs.resolve (left ++ right) = outputs.resolve left ++ outputs.resolve right) ∧
    (∀ number : String, number ≠ "" → (∀ c ∈ number.toList, Text.isDigit c = true) →
      outputs.resolve ("#E" ++ number) = (outputs.get? number).getD ("#E" ++ number)) ∧
    ∀ (others : Outputs) (argument : String),
      (∀ before number after, TokenAt before number after argument.toList →
        others.get? (String.ofList number) = outputs.get? (String.ofList number)) →
      others.resolve argument = outputs.resolve argument := by
  refine ⟨fun left right h => ?_, fun number hne hd => ?_, fun others argument heq => ?_⟩
  · rw [resolve, String.toList_append, resolveFrom_append h, String.ofList_append, resolve, resolve]
  · have ht : TokenAt [] number.toList [] ("#E" ++ number).toList :=
      ⟨by simp [token], by simpa using hne, hd, by simp⟩
    rw [resolve, resolveFrom_token outputs ht, replacement, String.ofList_toList]
    have hempty : outputs.resolveFrom [] = [] := resolveFrom.eq_1 outputs
    rw [hempty, List.nil_append, List.append_nil]
    cases outputs.get? number with
    | none => exact String.toList_inj.mp (by simp)
    | some output => exact String.ofList_toList
  · rw [resolve, resolve, resolveFrom_congr heq]

/-- The output of the first step is the token of the second, and stays as it is. -/
theorem resolve_simultaneous_outputToken :
    ¬ Straddled "#E1".toList "#E12".toList ∧
      (∀ before number after, TokenAt before number after "#E1#E12".toList →
        get? [("7", "c"), ("1", "#E12"), ("12", "b")] (String.ofList number) =
          get? [("1", "#E12"), ("12", "b")] (String.ofList number)) ∧
      resolve [("7", "c"), ("1", "#E12"), ("12", "b")] "#E1#E12" = "#E12b" := by
  have hcut : ¬ Straddled "#E1".toList "#E12".toList := by
    intro h
    obtain ⟨c, hc, hd⟩ := h.head
    obtain rfl : '#' = c := by simpa using hc
    exact absurd hd (by decide +kernel)
  have hother : ∀ before number after, TokenAt before number after "#E1#E12".toList →
      get? [("7", "c"), ("1", "#E12"), ("12", "b")] (String.ofList number) =
        get? [("1", "#E12"), ("12", "b")] (String.ofList number) := by
    intro before number after ht
    have hne : "7" ≠ String.ofList number := by
      intro h7
      have h7 : number = ['7'] := by rw [← String.toList_ofList (l := number), ← h7]; rfl
      have hmem : '7' ∈ "#E1#E12".toList := by simp [ht.spelled, h7, token]
      exact absurd hmem (by decide)
    simp [get?, hne]
  obtain ⟨happend, halone, hcongr⟩ := resolve_simultaneous [("1", "#E12"), ("12", "b")]
  refine ⟨hcut, hother, ?_⟩
  have hone : Text.isDigit '1' = true := by decide +kernel
  have htwo : Text.isDigit '2' = true := by decide +kernel
  have h1 : resolve [("1", "#E12"), ("12", "b")] "#E1" = "#E12" :=
    halone "1" (by decide) (by simp [hone])
  have h12 : resolve [("1", "#E12"), ("12", "b")] "#E12" = "b" :=
    halone "12" (by decide) (by simp [hone, htwo])
  calc resolve [("7", "c"), ("1", "#E12"), ("12", "b")] "#E1#E12"
      = resolve [("1", "#E12"), ("12", "b")] ("#E1" ++ "#E12") := hcongr _ _ hother
    _ = "#E12" ++ "b" := by rw [happend _ _ hcut, h1, h12]
    _ = "#E12b" := rfl

end PlanAssistant.Outputs
