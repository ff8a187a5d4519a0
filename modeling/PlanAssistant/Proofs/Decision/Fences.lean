import PlanAssistant.Decision
import PlanAssistant.Proofs.Text.Stripping

/-!
Code fences around decisions.  Cleaning a text takes out every fence and the blanks at the ends, and what
it leaves needs no cleaning: neither removal joins two parts of a text to a new fence, since of each run
of backticks only what is too short for a fence stays.  So a text without backticks has the same decision
between blanks, between plain fences, and behind a fence that names JSON in any mix of letters.
-/
namespace PlanAssistant.Decision

/-- Three backticks. -/
def fence : List Char := ['`', '`', '`']

/-- A text without fences and without blanks at its ends. -/
structure Clean (text : String) : Prop where
  fenceless : ¬ fence <:+: text.toList
  bare : Text.Bare Text.isBlank text.toList

/-- The letters of a small word, each as it is or as a capital. -/
def IsCased (word cased : List Char) : Prop :=
  List.Forall₂ (fun letter c => c = letter ∨ c = letter.toUpper) word cased

/-- A text with blanks around it, or on lines of its own between fences. -/
inductive Wrapped (text : String) : String → Prop
  | blanks {lead trail : String} (leadBlank : ∀ c ∈ lead.toList, Text.isBlank c = true)
    (trailBlank : ∀ c ∈ trail.toList, Text.isBlank c = true) : Wrapped text (lead ++ text ++ trail)
  | named {name : String} (cased : IsCased ['j', 's', 'o', 'n'] name.toList) :
    Wrapped text ("```" ++ name ++ "\n" ++ text ++ "\n```")
  | plain : Wrapped text ("```\n" ++ text ++ "\n```")

/-! ### Removal -/

section Removal

variable {remove : List Char → List Char} {c : Char} {cs left name : List Char}

/-- A removal that leaves every character at which no fence starts. -/
structure OnlyAtFences (remove : List Char → List Char) : Prop where
  nil : remove [] = []
  cons : ∀ {c cs}, ¬ fence <+: c :: cs → remove (c :: cs) = c :: remove cs

theorem not_fence_prefix_cons (h : c ≠ '`') : ¬ fence <+: c :: cs := by
  rw [fence, List.cons_prefix_cons]
  exact fun hp => h hp.1.symm

theorem onlyAtFences_dropFences : OnlyAtFences dropFences where
  nil := dropFences.eq_3
  cons := by
    refine fun {c cs} h => dropFences.eq_2 c cs fun rest hc hcs => h ?_
    subst hc hcs
    exact ⟨rest, rfl⟩

theorem onlyAtFences_dropNamedFences : OnlyAtFences dropNamedFences where
  nil := dropNamedFences.eq_3
  cons := by
    refine fun {c cs} h => dropNamedFences.eq_2 c cs fun j s o n rest hc hcs => h ?_
    subst hc hcs
    exact ⟨j :: s :: o :: n :: rest, rfl⟩

namespace OnlyAtFences

variable (hr : OnlyAtFences remove)
include hr

theorem eq_self (h : ¬ fence <:+: cs) : remove cs = cs := by
  induction cs with
  | nil => exact hr.nil
  | cons c cs ih =>
    rw [hr.cons fun hp => h hp.isInfix, ih fun hi => h (List.infix_cons hi)]

theorem append (h : '`' ∉ left) : remove (left ++ cs) = left ++ remove cs := by
  induction left with
  | nil => rfl
  | cons c left ih =>
    obtain ⟨hc, hl⟩ := List.ne_and_not_mem_of_not_mem_cons h
    rw [List.cons_append, hr.cons (not_fence_prefix_cons hc.symm), ih hl, List.cons_append]

end OnlyAtFences

/-- Where two backticks do not start, they do not start either when the fences are gone. -/
theorem not_prefix_dropFences (h : ¬ ['`', '`'] <+: cs) : ¬ ['`', '`'] <+: dropFences cs := by
  have hhead : ∀ {cs}, ¬ ['`'] <+: cs → ¬ ['`'] <+: dropFences cs := by
    rintro (_ | ⟨c, cs⟩) h
    · exact h
    · have hc : c ≠ '`' := fun hc => h (hc ▸ ⟨cs, rfl⟩)
      rw [onlyAtFences_dropFences.cons (not_fence_prefix_cons hc)]
      simpa using hc.symm
  cases cs with
  | nil => exact h
  | cons c cs =>
    rw [onlyAtFences_dropFences.cons fun hp => h (.trans ⟨['`'], rfl⟩ hp), List.cons_prefix_cons]
    rw [List.cons_prefix_cons] at h
    exact fun hp => hhead (fun hcs => h ⟨hp.1, hcs⟩) hp.2

theorem fence_not_infix_dropFences (cs : List Char) : ¬ fence <:+: dropFences cs := by
  fun_induction dropFences cs with
  | case1 rest ih => exact ih
  | case2 c rest hother ih =>
    rw [List.infix_cons_iff, not_or]
    refine ⟨fun hp => ?_, ih⟩
    rw [fence, List.cons_prefix_cons] at hp
    refine not_prefix_dropFences (fun hrest => ?_) hp.2
    obtain ⟨more, rfl⟩ := hrest
    exact hother more hp.1.symm rfl
  | case3 => simp [fence]

theorem dropNamedFences_named (h : IsCased ['j', 's', 'o', 'n'] name) :
    dropNamedFences (fence ++ (name ++ cs)) = dropNamedFences cs := by
  have hspells : ∀ letter ∈ ['j', 's', 'o', 'n'], ∀ c, c = letter ∨ c = letter.toUpper →
      spells letter c = true := by
    have hl : ∀ letter ∈ ['j', 's', 'o', 'n'],
        spells letter letter = true ∧ spells letter letter.toUpper = true := by
      simp only [List.forall_mem_cons]
      exact ⟨by decide, by decide, by decide, by decide, List.forall_mem_nil _⟩
    rintro letter hm c (rfl | rfl)
    · exact (hl _ hm).1
    · exact (hl _ hm).2
  obtain _ | ⟨hj, _ | ⟨hs, _ | ⟨ho, _ | ⟨hn, _ | _⟩⟩⟩⟩ := h
  refine (dropNamedFences.eq_1 _ _ _ _ cs).trans (if_pos ?_)
  rw [hspells _ (by simp) _ hj, hspells _ (by simp) _ hs, hspells _ (by simp) _ ho,
    hspells _ (by simp) _ hn]
  rfl

/-- A fence in front of a line end names nothing. -/
theorem dropNamedFences_plain :
    dropNamedFences (fence ++ '\n' :: cs) = fence ++ dropNamedFences ('\n' :: cs) := by
  have hfirst : dropNamedFences ('`' :: '`' :: '`' :: '\n' :: cs) =
      '`' :: dropNamedFences ('`' :: '`' :: '\n' :: cs) := by
    obtain _ | ⟨s, _ | ⟨o, _ | ⟨n, rest⟩⟩⟩ := cs
    · rfl
    · rfl
    · rfl
    · exact (dropNamedFences.eq_1 _ _ _ _ rest).trans (if_neg (by simp [spells]))
  have hrest : ∀ {cs}, ¬ fence <+: '`' :: '`' :: '\n' :: cs ∧ ¬ fence <+: '`' :: '\n' :: cs := by
    simp [fence]
  change dropNamedFences ('`' :: '`' :: '`' :: '\n' :: cs) = _
  rw [hfirst, onlyAtFences_dropNamedFences.cons hrest.1, onlyAtFences_dropNamedFences.cons hrest.2]
  rfl

end Removal

/-! ### Cleaning -/

section Cleaning

variable {text wrapped : String}

theorem toList_sanitize (text : String) : (sanitize text).toList =
    Text.stripWhile Text.isBlank (dropFences (dropNamedFences text.toList)) :=
  String.toList_ofList

theorem clean_sanitize (text : String) : Clean (sanitize text) where
  fenceless := by
    rw [toList_sanitize]
    exact fun hi => fence_not_infix_dropFences _ (hi.trans (Text.stripWhile_infix _ _))
  bare := by
    rw [toList_sanitize]
    exact Text.bare_stripWhile _ _

/-- A clean text needs no cleaning. -/
theorem Clean.sanitize_eq (h : Clean text) : sanitize text = text := by
  rw [sanitize, onlyAtFences_dropNamedFences.eq_self h.fenceless,
    onlyAtFences_dropFences.eq_self h.fenceless, Text.stripWhile_of_bare h.bare, String.ofList_toList]

theorem backtick_notMem_of_blank {cs : List Char} (h : ∀ c ∈ cs, Text.isBlank c = true) : '`' ∉ cs :=
  fun hm => absurd (h _ hm) (by decide)

/-- In a text without backticks only the blanks at its ends are cleaned away. -/
theorem sanitize_of_notMem (h : '`' ∉ text.toList) : sanitize text = Text.strip text := by
  have hf : ¬ fence <:+: text.toList := fun hi => h (hi.subset (by simp [fence]))
  rw [sanitize, onlyAtFences_dropNamedFences.eq_self hf, onlyAtFences_dropFences.eq_self hf, Text.strip]

/-- What is left of the lines between two fences, once the fence in front is gone. -/
theorem strip_lines (h : '`' ∉ text.toList) :
    Text.stripWhile Text.isBlank
        (dropFences (dropNamedFences ('\n' :: (text.toList ++ '\n' :: fence)))) =
      Text.stripWhile Text.isBlank text.toList := by
  have hsplit : '\n' :: (text.toList ++ '\n' :: fence) = '\n' :: (text.toList ++ ['\n']) ++ fence := by
    simp
  have hb : '`' ∉ '\n' :: (text.toList ++ ['\n']) := by simpa using h
  rw [hsplit, onlyAtFences_dropNamedFences.append hb, onlyAtFences_dropFences.append hb]
  have hlast : dropFences (dropNamedFences fence) = [] := rfl
  rw [hlast, List.append_nil]
  have hblank : ∀ c ∈ ['\n'], Text.isBlank c = true :=
    List.forall_mem_singleton.mpr (by decide)
  have hlines : ∀ cs, Text.stripWhile Text.isBlank (['\n'] ++ cs ++ ['\n']) =
      Text.stripWhile Text.isBlank cs := fun cs => Text.stripWhile_around hblank hblank
  exact hlines text.toList

/-- What is wrapped around a text without backticks is cleaned away. -/
theorem Wrapped.sanitize_eq (hw : Wrapped text wrapped) (h : '`' ∉ text.toList) :
    sanitize wrapped = sanitize text := by
  rw [sanitize_of_notMem h, Text.strip]
  cases hw with
  | @blanks lead trail leadBlank trailBlank =>
    have hb : '`' ∉ (lead ++ text ++ trail).toList := by
      simpa [h] using ⟨backtick_notMem_of_blank leadBlank, backtick_notMem_of_blank trailBlank⟩
    rw [sanitize_of_notMem hb, Text.strip, String.toList_append, String.toList_append,
      Text.stripWhile_around leadBlank trailBlank]
  | @named name cased =>
    have hl : ("```" ++ name ++ "\n" ++ text ++ "\n```").toList =
        fence ++ (name.toList ++ '\n' :: (text.toList ++ '\n' :: fence)) := by simp [fence]
    rw [sanitize, hl, dropNamedFences_named cased, strip_lines h]
  | plain =>
    have hl : ("```\n" ++ text ++ "\n```").toList =
        fence ++ '\n' :: (text.toList ++ '\n' :: fence) := by simp [fence]
    have hfront : ∀ cs, dropFences (fence ++ cs) = dropFences cs := dropFences.eq_1
    rw [sanitize, hl, dropNamedFences_plain, hfront, strip_lines h]

/-- A decision depends on the cleaned text alone. -/
theorem parse_congr [Interpreter] {raw other : String} (h : sanitize raw = sanitize other) :
    parse raw = parse other := by
  unfold parse
  rw [h]

/-- A cleaned text is clean and cleaning it again changes nothing; and what is wrapped around a text
without backticks does not change its decision. -/
theorem clean_sanitize_and_parse_wrapped [Interpreter] (text : String) :
    Clean (sanitize text) ∧ sanitize (sanitize text) = sanitize text ∧
      ('`' ∉ text.toList → ∀ wrapped, Wrapped text wrapped → parse wrapped = parse text) := by
  have hc := clean_sanitize text
  exact ⟨hc, hc.sanitize_eq, fun h wrapped hw => parse_congr (hw.sanitize_eq h)⟩

theorem clean_sanitize_and_parse_wrapped_jsOn :
    '`' ∉ "\x7b\"action\":\"proceed\"\x7d".toList ∧
      Wrapped "\x7b\"action\":\"proceed\"\x7d" "```jSoN\n\x7b\"action\":\"proceed\"\x7d\n```" ∧
      parse "```jSoN\n\x7b\"action\":\"proceed\"\x7d\n```" =
        parse "\x7b\"action\":\"proceed\"\x7d" := by
  have hb : '`' ∉ "\x7b\"action\":\"proceed\"\x7d".toList := by decide
  have hw : Wrapped "\x7b\"action\":\"proceed\"\x7d"
      "```jSoN\n\x7b\"action\":\"proceed\"\x7d\n```" :=
    @Wrapped.named _ "jSoN" (.cons (by decide) (.cons (by decide) (.cons (by decide)
      (.cons (by decide) .nil))))
  exact ⟨hb, hw, (clean_sanitize_and_parse_wrapped _).2.2 hb _ hw⟩

end Cleaning
end PlanAssistant.Decision
