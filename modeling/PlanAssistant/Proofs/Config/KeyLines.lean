import PlanAssistant.Config.Keys
import PlanAssistant.Proofs.Plan.Grammar
import PlanAssistant.Proofs.Text.Stripping

/-!
Lines of key files.  `Assigns` says which value a line gives to which name; the reader finds an entry in a
line exactly where the line assigns, so a line assigns to one name at most, and one value.
-/
namespace PlanAssistant

namespace Text

theorem occursIn_singleton {c : Char} {cs : List Char} : occursIn [c] cs = true ↔ c ∈ cs := by
  induction cs with
  | nil => simp [occursIn]
  | cons d cs ih => simp [occursIn, ih, List.isPrefixOf]

theorem contains_mark {text : String} : contains text "=" = true ↔ '=' ∈ text.toList := by
  change occursIn ['='] text.toList = true ↔ _
  exact occursIn_singleton

theorem startsWith_hash {text : String} : startsWith text "#" = true ↔ text.toList.head? = some '#' := by
  change ['#'].isPrefixOf text.toList = true ↔ _
  cases text.toList with
  | nil => simp
  | cons c rest => simp [@eq_comm _ c]

end Text

namespace KeyFile

/-- A value without the quotes around it. -/
def unquoted (value : String) : String := String.ofList (Text.stripWhile isQuote value.toList)

/-- A line assigns a value to a name: they stand on the two sides of its first equals sign, where blanks
around either and quotes around the value do not count.  A line with a hash sign in front is a comment. -/
inductive Assigns : String → String → String → Prop
  | intro {left right : String} (first : '=' ∉ left.toList) (named : Text.strip left ≠ "")
    (uncommented : (Text.strip left).toList.head? ≠ some '#') :
    Assigns (left ++ "=" ++ right) (Text.strip left) (unquoted (Text.strip right))

section Lines

variable {left right line name value : String}

/-- A line that is stripped is stripped in front of what stands before its first equals sign, and behind
what stands after it. -/
theorem toList_strip_split (left right : String) :
    (Text.strip (left ++ "=" ++ right)).toList = left.toList.dropWhile Text.isBlank ++
      '=' :: (right.toList.reverse.dropWhile Text.isBlank).reverse := by
  rw [Text.strip, String.toList_ofList, ← Text.stripWhile_append_cons (by decide)]
  simp

theorem cut_strip_split (first : '=' ∉ left.toList) : Text.cut '=' (Text.strip (left ++ "=" ++ right)) =
    (String.ofList (left.toList.dropWhile Text.isBlank),
      String.ofList (right.toList.reverse.dropWhile Text.isBlank).reverse) := by
  have hrun : ∀ c ∈ left.toList.dropWhile Text.isBlank, (c != '=') = true := by
    intro c hc
    have hne : c ≠ '=' := fun he => first (he ▸ (List.dropWhile_suffix _).subset hc)
    simpa using hne
  obtain ⟨ht, hd⟩ := span_append hrun ('=' :: (right.toList.reverse.dropWhile Text.isBlank).reverse)
    (by simp)
  rw [Text.cut, toList_strip_split, ht, hd]
  rfl

/-- A stripped line is a comment when the name before its equals sign starts with a hash sign. -/
theorem startsWith_strip_split : Text.startsWith (Text.strip (left ++ "=" ++ right)) "#" = true ↔
    (Text.strip left).toList.head? = some '#' := by
  have hhead : (Text.strip left).toList.head? = (left.toList.dropWhile Text.isBlank).head? := by
    rw [Text.strip, String.toList_ofList, Text.head?_stripWhile]
  rw [hhead, Text.startsWith_hash, toList_strip_split]
  cases left.toList.dropWhile Text.isBlank with
  | nil => simp
  | cons c rest => simp

theorem entry?_of_split (first : '=' ∉ left.toList) : entry? (left ++ "=" ++ right) =
    if Text.strip left = "" ∨ (Text.strip left).toList.head? = some '#' then none
    else some (Text.strip left, unquoted (Text.strip right)) := by
  have hname : Text.strip (String.ofList (left.toList.dropWhile Text.isBlank)) = Text.strip left := by
    rw [Text.strip, String.toList_ofList, Text.stripWhile_dropWhile, Text.strip]
  have hvalue : Text.strip (String.ofList (right.toList.reverse.dropWhile Text.isBlank).reverse) =
      Text.strip right := by
    rw [Text.strip, String.toList_ofList, Text.stripWhile_reverse_dropWhile, Text.strip]
  have hmark : Text.contains (Text.strip (left ++ "=" ++ right)) "=" = true :=
    Text.contains_mark.mpr (by simp [toList_strip_split])
  have hne : (Text.strip (left ++ "=" ++ right)).isEmpty = false := by
    rw [Bool.eq_false_iff]
    intro he
    have hl := toList_strip_split left right
    rw [String.isEmpty_iff.mp he] at hl
    simp at hl
  rw [ entry?, cut_strip_split first]
  dsimp only
  rw [hname, hvalue, hmark, hne, unquoted]
  by_cases hc : (Text.strip left).toList.head? = some '#'
  · rw [startsWith_strip_split.mpr hc]
    simp [hc]
  · rw [Bool.eq_false_iff.mpr (mt startsWith_strip_split.mp hc)]
    simp [hc]

theorem entry?_of_notMem (h : '=' ∉ line.toList) : entry? line = none := by
  have hmark : Text.contains (Text.strip line) "=" = false := by
    rw [Bool.eq_false_iff]
    intro hm
    have hmem := Text.contains_mark.mp hm
    rw [Text.strip, String.toList_ofList] at hmem
    exact h ((Text.stripWhile_infix _ _).subset hmem)
  rw [ entry?, hmark]
  simp

theorem entry?_eq_some_iff : entry? line = some (name, value) ↔ Assigns line name value := by
  constructor
  · intro h
    by_cases hm : '=' ∈ line.toList
    · obtain ⟨left, right, hl, first⟩ := List.eq_append_cons_of_mem hm
      obtain rfl : line = String.ofList left ++ "=" ++ String.ofList right :=
        String.toList_inj.mp (by simp [hl])
      have first : '=' ∉ (String.ofList left).toList := by rwa [String.toList_ofList]
      rw [entry?_of_split first] at h
      split at h
      · contradiction
      · next hname =>
        obtain ⟨rfl, rfl⟩ := Prod.mk.inj (Option.some.inj h)
        exact .intro first (fun he => hname (.inl he)) fun he => hname (.inr he)
    · rw [entry?_of_notMem hm] at h
      contradiction
  · rintro ⟨first, named, uncommented⟩
    rw [entry?_of_split first, if_neg (by simp [named, uncommented])]

/-- A line assigns to one name at most, and one value. -/
theorem Assigns.unique {other : String} {value' : String} (h : Assigns line name value)
    (h' : Assigns line other value') : name = other ∧ value = value' :=
  Prod.mk.inj (Option.some.inj
    ((entry?_eq_some_iff.mpr h).symm.trans (entry?_eq_some_iff.mpr h')))

/-- What is assigned stands in the line. -/
theorem Assigns.mem_of_mem {c : Char} (h : Assigns line name value)
    (hc : c ∈ name.toList ∨ c ∈ value.toList) : c ∈ line.toList := by
  obtain @⟨left, right, -, -, -⟩ := h
  have hstrip : ∀ {text : String}, c ∈ (Text.strip text).toList → c ∈ text.toList := fun hm => by
    rw [Text.strip, String.toList_ofList] at hm
    exact (Text.stripWhile_infix _ _).subset hm
  rcases hc with hc | hc
  · simp [hstrip hc]
  · rw [unquoted, String.toList_ofList] at hc
    simp [hstrip ((Text.stripWhile_infix _ _).subset hc)]

end Lines
end KeyFile
end PlanAssistant
