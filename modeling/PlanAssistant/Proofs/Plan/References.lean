import PlanAssistant.Plan.Reference
import PlanAssistant.Proofs.Plan.Grammar

/-!
References and what becomes of them.  Each token of a known step is replaced once by the output of that
step, letter for letter, and everything around the tokens stays; what was put in is not looked at again,
so a token of a known step can be in the resolved text only where an output that was put in takes part in
it.  A token of any other step stays where it stood.
-/
namespace PlanAssistant

namespace Outputs

/-! ### Tokens in a text -/

/-- The token of a step, from the digits of its number. -/
def token (number : List Char) : List Char := '#' :: 'E' :: number

/-- The text has the token of a number between two parts of it; the number is the whole run of digits. -/
structure TokenAt (before number after text : List Char) : Prop where
  spelled : text = before ++ token number ++ after
  number_ne : number ≠ []
  digits : ∀ c ∈ number, Text.isDigit c = true
  whole : ∀ c ∈ after.head?, Text.isDigit c = false

/-- The text has no token of a step whose output is known. -/
def Free (output? : String → Option String) (text : List Char) : Prop :=
  ∀ before number after, TokenAt before number after text → output? (String.ofList number) = none

/-- The second text is the first with the tokens of known steps replaced by their outputs, from the first
of them on, which an output that was put in does not change. -/
inductive Replaced (output? : String → Option String) : List Char → List Char → Prop where
  | kept {text : List Char} (free : Free output? text) : Replaced output? text text
  | put {text before number after resolved : List Char} {output : String}
      (found : TokenAt before number after text) (free : Free output? before)
      (known : output? (String.ofList number) = some output) (rest : Replaced output? after resolved) :
      Replaced output? text (before ++ (output.toList ++ resolved))

/-- In the resolved text an output was put in between `left` and `right`, for a token of the text. -/
def PutIn (output? : String → Option String) (text left : List Char) (output : String)
    (right : List Char) : Prop :=
  ∃ before number after, TokenAt before number after text ∧
    output? (String.ofList number) = some output ∧ Replaced output? before left ∧
    Replaced output? after right

section Tokens

variable {output? : String → Option String} {before number after text : List Char}

theorem not_isDigit_hash : Text.isDigit '#' = false := by decide +kernel

theorem TokenAt.prepend (h : TokenAt before number after text) (lead : List Char) :
    TokenAt (lead ++ before) number after (lead ++ text) where
  spelled := by simp [h.spelled]
  number_ne := h.number_ne
  digits := h.digits
  whole := h.whole

theorem TokenAt.append (h : TokenAt before number after text) {trail : List Char}
    (ht : ∀ c ∈ trail.head?, Text.isDigit c = false) :
    TokenAt before number (after ++ trail) (text ++ trail) where
  spelled := by simp [h.spelled]
  number_ne := h.number_ne
  digits := h.digits
  whole := by
    cases after with
    | nil => simpa using ht
    | cons c after => simpa using h.whole

/-- A token that ends within the first of two texts is a token of that text. -/
theorem TokenAt.within_left {left right : List Char} (h : TokenAt before number after (left ++ right))
    (hl : (before ++ token number).length ≤ left.length) : ∃ more, TokenAt before number more left := by
  obtain ⟨more, rfl⟩ : before ++ token number <+: left :=
    List.prefix_of_prefix_length_le ⟨after, h.spelled.symm⟩ (List.prefix_append left right) hl
  have hs : more ++ right = after := by simpa using h.spelled
  refine ⟨more, rfl, h.number_ne, h.digits, fun c hc => h.whole c ?_⟩
  cases more with
  | nil => simp at hc
  | cons d more => rw [← hs]; exact hc

/-- A token that starts within the second of two texts is a token of that text. -/
theorem TokenAt.within_right {left right : List Char} (h : TokenAt before number after (left ++ right))
    (hl : left.length ≤ before.length) :
    ∃ more, before = left ++ more ∧ TokenAt more number after right := by
  have hp : before <+: left ++ right := ⟨token number ++ after, by rw [h.spelled, List.append_assoc]⟩
  obtain ⟨more, rfl⟩ := List.prefix_of_prefix_length_le (List.prefix_append left right) hp hl
  exact ⟨more, rfl, by simpa using h.spelled, h.number_ne, h.digits, h.whole⟩

/-- A token is one as well when the text after it ends in front of another token. -/
theorem TokenAt.shorten {first digits last : List Char} (h : TokenAt before number after text)
    (hn : TokenAt first digits last after) :
    TokenAt before number first (before ++ (token number ++ first)) where
  spelled := by simp
  number_ne := h.number_ne
  digits := h.digits
  whole := by
    cases first with
    | nil => simp
    | cons c first => simpa [hn.spelled] using h.whole

/-- The number of a token is the run of digits there is. -/
theorem TokenAt.span (h : TokenAt [] number after ('#' :: 'E' :: text)) :
    text.takeWhile Text.isDigit = number ∧ text.dropWhile Text.isDigit = after := by
  have hs : text = number ++ after := by simpa [token] using h.spelled
  rw [hs]
  exact span_append h.digits after h.whole

theorem tokenAt_span (h : text.takeWhile Text.isDigit ≠ []) :
    TokenAt [] (text.takeWhile Text.isDigit) (text.dropWhile Text.isDigit) ('#' :: 'E' :: text) where
  spelled := by simp [token]
  number_ne := h
  digits := fun _ => List.mem_takeWhile_imp
  whole := Text.head?_dropWhile _ _

theorem free_nil : Free output? [] := by
  intro before number after h
  have hs := h.spelled
  simp [token] at hs

/-- A text with one more character in front has a token there or later. -/
theorem Free.cons {c : Char} (hf : Free output? text)
    (hc : ∀ number after, TokenAt [] number after (c :: text) → output? (String.ofList number) = none) :
    Free output? (c :: text) := by
  intro before number after h
  cases before with
  | nil => exact hc number after h
  | cons b before =>
    have hcons : TokenAt (b :: before) number after ([c] ++ text) := h
    obtain ⟨more, -, hm⟩ := hcons.within_right (by simp)
    exact hf more number after hm

/-- Where no token of a known step starts, a character stays. -/
theorem Replaced.cons {c : Char} {resolved : List Char} (h : Replaced output? text resolved)
    (hc : ∀ number after, TokenAt [] number after (c :: text) → output? (String.ofList number) = none) :
    Replaced output? (c :: text) (c :: resolved) := by
  cases h with
  | kept free => exact .kept (free.cons hc)
  | @put _ before number after resolved output found free known rest =>
    refine .put (found.prepend [c]) (free.cons fun other more ho => ?_) known rest
    refine hc other (more ++ (token number ++ after)) ?_
    have hs : c :: text = c :: before ++ (token number ++ after) := by simp [found.spelled]
    rw [hs]
    exact ho.append (by simpa [token] using not_isDigit_hash)

/-- Text without a hash sign stays, whatever follows it. -/
theorem Replaced.append {resolved : List Char} (h : Replaced output? text resolved) (lead : List Char)
    (hl : '#' ∉ lead) : Replaced output? (lead ++ text) (lead ++ resolved) := by
  induction lead with
  | nil => exact h
  | cons c lead ih =>
    obtain ⟨hc, hlead⟩ := List.ne_and_not_mem_of_not_mem_cons hl
    exact (ih hlead).cons fun number after ht => absurd (List.cons.inj ht.spelled).1.symm hc

/-! ### Tokens of known steps -/

/-- A token of a known step in the resolved text comes with an output that was put in: the output begins
before the token ends, and ends after the token begins. -/
theorem Replaced.tokenAt {resolved : List Char} (h : Replaced output? text resolved)
    (ht : TokenAt before number after resolved) (hk : output? (String.ofList number) ≠ none) :
    ∃ left output right, resolved = left ++ output.toList ++ right ∧
      PutIn output? text left output right ∧
      left.length < (before ++ token number).length ∧ before.length < (left ++ output.toList).length := by
  induction h generalizing before with
  | kept free => exact absurd (free _ _ _ ht) hk
  | @put text lead other more resolved output found free known rest ih =>
    by_cases hl : (before ++ token number).length ≤ lead.length
    · obtain ⟨within, hw⟩ := ht.within_left hl
      exact absurd (free _ _ _ hw) hk
    by_cases hr : (lead ++ output.toList).length ≤ before.length
    · rw [← List.append_assoc] at ht
      obtain ⟨inside, rfl, hi⟩ := ht.within_right hr
      obtain ⟨left, put, right, rfl, ⟨first, digits, last, hat, hput, hleft, hright⟩, hstart, hend⟩ := ih hi
      refine ⟨lead ++ (output.toList ++ left), put, right, by simp, ?_, ?_, ?_⟩
      · refine ⟨lead ++ (token other ++ first), digits, last, ?_, hput, ?_, hright⟩
        · have hs : text = (lead ++ token other) ++ more := found.spelled
          rw [hs, ← List.append_assoc]
          exact hat.prepend _
        · exact .put (found.shorten hat) free known hleft
      · simp at hstart ⊢; omega
      · simp at hend ⊢; omega
    · refine ⟨lead, output, resolved, by simp, ?_, by omega, by omega⟩
      exact ⟨lead, other, more, found, known, .kept free, rest⟩

end Tokens

/-! ### Resolving -/

section Resolving

variable (outputs : Outputs)

/-- A hash sign ends a run of digits. -/
theorem span_append_hash (left right : List Char) :
    (left ++ '#' :: right).takeWhile Text.isDigit = left.takeWhile Text.isDigit ∧
      (left ++ '#' :: right).dropWhile Text.isDigit = left.dropWhile Text.isDigit ++ '#' :: right := by
  induction left with
  | nil => simp [not_isDigit_hash]
  | cons c left ih => cases hc : Text.isDigit c <;> simp [hc, ih]

theorem resolveFrom_of_number {rest : List Char} (h : rest.takeWhile Text.isDigit ≠ []) :
    outputs.resolveFrom ('#' :: 'E' :: rest) = outputs.replacement (rest.takeWhile Text.isDigit) ++
      outputs.resolveFrom (rest.dropWhile Text.isDigit) := by
  rw [resolveFrom]
  split
  · contradiction
  · rfl

theorem resolveFrom_of_no_number {rest : List Char} (h : rest.takeWhile Text.isDigit = []) :
    outputs.resolveFrom ('#' :: 'E' :: rest) = '#' :: 'E' :: outputs.resolveFrom rest := by
  rw [resolveFrom, h]

/-- What follows from a hash sign on is resolved on its own. -/
theorem resolveFrom_append_hash (left right : List Char) :
    outputs.resolveFrom (left ++ '#' :: right) =
      outputs.resolveFrom left ++ outputs.resolveFrom ('#' :: right) := by
  fun_induction resolveFrom outputs left with
  | case1 => rfl
  | case2 rest hnone ih =>
    have hn := (span_append_hash rest right).1.trans hnone
    rw [List.cons_append, List.cons_append, resolveFrom_of_no_number outputs hn, ih]
    rfl
  | case3 rest hsome ih =>
    obtain ⟨ht, hd⟩ := span_append_hash rest right
    have hne : (rest ++ '#' :: right).takeWhile Text.isDigit ≠ [] := ht.symm ▸ hsome
    rw [List.cons_append, List.cons_append, resolveFrom_of_number outputs hne, ht, hd, ih,
      List.append_assoc]
  | case4 c rest hother ih =>
    have hnext : ∀ more, c = '#' → rest ++ '#' :: right = 'E' :: more → False := by
      intro more hc hm
      cases rest with
      | nil => simp at hm
      | cons d rest =>
        obtain ⟨rfl, -⟩ := List.cons.inj hm
        exact hother rest hc rfl
    rw [List.cons_append, resolveFrom.eq_3 _ _ _ hnext, ih]
    rfl

/-- A token becomes its replacement, and what stands on either side of it is resolved on its own. -/
theorem resolveFrom_token {before number after text : List Char} (h : TokenAt before number after text) :
    outputs.resolveFrom text =
      outputs.resolveFrom before ++ (outputs.replacement number ++ outputs.resolveFrom after) := by
  obtain ⟨ht, hd⟩ := span_append h.digits after h.whole
  have hne : (number ++ after).takeWhile Text.isDigit ≠ [] := ht.symm ▸ h.number_ne
  have hs : text = before ++ '#' :: 'E' :: (number ++ after) := by simpa [token] using h.spelled
  rw [hs, resolveFrom_append_hash, resolveFrom_of_number outputs hne, ht, hd]

/-- Resolving replaces the tokens of the steps in the table. -/
theorem replaced_resolveFrom (text : List Char) :
    Replaced outputs.get? text (outputs.resolveFrom text) := by
  fun_induction resolveFrom outputs text with
  | case1 => exact .kept free_nil
  | case2 rest hnone ih =>
    refine (ih.append ['E'] (by decide)).cons fun number after ht => ?_
    exact absurd (ht.span.1.symm.trans hnone) ht.number_ne
  | case3 rest hsome ih =>
    have ht := tokenAt_span hsome
    unfold replacement
    split
    · next output hk => exact .put ht free_nil hk ih
    · next hunknown =>
      have hdigits : '#' ∉ 'E' :: rest.takeWhile Text.isDigit := by
        have hd : '#' ∉ rest.takeWhile Text.isDigit := fun hm =>
          absurd (ht.digits _ hm) (by simp [not_isDigit_hash])
        simpa using hd
      have hsplit : '#' :: 'E' :: rest =
          '#' :: ('E' :: rest.takeWhile Text.isDigit ++ rest.dropWhile Text.isDigit) := by simp
      rw [hsplit]
      refine (ih.append _ hdigits).cons fun number after hn => ?_
      rw [← hsplit] at hn
      rw [← hn.span.1]
      exact hunknown
  | case4 c rest hother ih =>
    refine ih.cons fun number after ht => ?_
    obtain ⟨rfl, hr⟩ := List.cons.inj ht.spelled
    exact (hother _ rfl hr).elim

/-- Text without tokens of the steps in the table stays as it is. -/
theorem resolveFrom_of_free {text : List Char} (h : Free outputs.get? text) :
    outputs.resolveFrom text = text := by
  have hr := replaced_resolveFrom outputs text
  generalize outputs.resolveFrom text = resolved at hr
  cases hr with
  | kept => rfl
  | put found _ known _ => exact absurd (h _ _ _ found) (by rw [known]; exact nofun)

/-- There is one way to replace the tokens: that of resolving. -/
theorem replaced_iff {text resolved : List Char} :
    Replaced outputs.get? text resolved ↔ resolved = outputs.resolveFrom text := by
  refine ⟨fun h => ?_, fun h => h ▸ replaced_resolveFrom outputs text⟩
  generalize hg : outputs.get? = output? at h
  induction h with
  | kept free => exact (resolveFrom_of_free outputs (hg ▸ free)).symm
  | @put text before number after resolved output found free known rest ih =>
    have hreplacement : outputs.replacement number = output.toList := by simp [replacement, hg, known]
    rw [resolveFrom_token outputs found, resolveFrom_of_free outputs (hg ▸ free), hreplacement, ← ih]

end Resolving
end Outputs
end PlanAssistant
