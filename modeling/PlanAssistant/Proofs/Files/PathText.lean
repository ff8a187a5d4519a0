import PlanAssistant.Files.Path
import PlanAssistant.Text.Blank

/-!
Paths as texts.  The names read from a text hold no slash, and every list of proper names is read back
from the text that puts a slash before and after each of them.
-/
namespace PlanAssistant.Files

/-- A path cut short has no more bytes than before. -/
theorem byteSize_text_le [Interpreter] {part names : List String} (h : part <+: names) :
    Text.byteSize (FilePath.text ⟨.root, part⟩) ≤ Text.byteSize (FilePath.text ⟨.root, names⟩) := by
  obtain ⟨more, rfl⟩ := h
  by_cases hp : part = []
  · subst hp
    simp [FilePath.text, Anchor.text, Text.byteSize_append]
  · by_cases hm : more = []
    · simp [hm]
    · simp only [FilePath.text, String.intercalate_append_of_ne_nil hp hm]
      simp [Anchor.text, Text.byteSize_append, Nat.add_assoc]

/-- A name that a text can spell: not empty, not a dot, without slash. -/
def Nameable (name : String) : Prop := isPlainName name = true ∧ '/' ∉ name.toList

instance (name : String) : Decidable (Nameable name) :=
  inferInstanceAs (Decidable (isPlainName name = true ∧ '/' ∉ name.toList))

theorem slash_notMem_splitOn (cs : List Char) : ∀ piece ∈ Text.splitOn '/' cs, '/' ∉ piece := by
  induction cs with
  | nil => simp [Text.splitOn]
  | cons c cs ih =>
    rw [Text.splitOn]
    split
    · exact List.forall_mem_cons.mpr ⟨List.not_mem_nil, ih⟩
    next hc =>
    have hc : '/' ≠ c := fun he => hc (beq_iff_eq.mpr he.symm)
    split
    · simpa using hc
    · next piece pieces he =>
      rw [he] at ih
      obtain ⟨hp, hps⟩ := List.forall_mem_cons.mp ih
      refine List.forall_mem_cons.mpr ⟨fun hm => ?_, hps⟩
      rcases List.mem_cons.mp hm with hm | hm
      · exact hc hm
      · exact hp hm

theorem slash_notMem_pieces (text : String) : ∀ name ∈ pieces text, '/' ∉ name.toList := by
  intro name hn
  obtain ⟨piece, hp, rfl⟩ := List.mem_map.mp hn
  rw [String.toList_ofList]
  exact slash_notMem_splitOn _ piece hp

/-- Names that are read from a text are proper. -/
theorem nameable_ofText (text : String) : ∀ name ∈ (FilePath.ofText text).names, Nameable name := by
  intro name hn
  obtain ⟨hm, hp⟩ := List.mem_filter.mp hn
  exact ⟨hp, slash_notMem_pieces text name hm⟩

theorem nameable_join_ofText {base : FilePath} (hb : ∀ name ∈ base.names, Nameable name)
    (text : String) : ∀ name ∈ (base.join (.ofText text)).names, Nameable name := by
  unfold FilePath.join
  split
  · exact nameable_ofText text
  · exact List.forall_mem_append.mpr ⟨hb, nameable_ofText text⟩

theorem splitOn_eq (mark : Char) (cs : List Char) : Text.splitOn mark cs = cs.splitOn mark := by
  induction cs with
  | nil => rfl
  | cons c cs ih =>
    rw [Text.splitOn, List.splitOn_cons_eq_if_modifyHead, ih]
    split
    · rfl
    · split
      · next he => exact absurd he (List.splitOn_ne_nil mark cs)
      · next he =>
        rw [he]
        rfl

/-- All characters but the marks are in the pieces. -/
theorem mem_splitOn_iff {c mark : Char} (hc : c ≠ mark) (cs : List Char) :
    (∃ piece ∈ Text.splitOn mark cs, c ∈ piece) ↔ c ∈ cs := by
  induction cs with
  | nil => simp [Text.splitOn]
  | cons first cs ih =>
    rw [Text.splitOn, List.mem_cons, ← ih]
    split
    · next hm =>
      have hne : c ≠ first := fun he => hc (he.trans (beq_iff_eq.mp hm))
      simp [hne]
    · split
      · next he => simp [he]
      · next he => simp [he, or_assoc]

/-- A character that is neither slash nor dot is in a name if it is in the text. -/
theorem exists_mem_ofText_iff {c : Char} (hs : c ≠ '/') (hd : c ≠ '.') (text : String) :
    (∃ name ∈ (FilePath.ofText text).names, c ∈ name.toList) ↔ c ∈ text.toList := by
  rw [← mem_splitOn_iff hs]
  constructor
  · rintro ⟨name, hn, hc⟩
    obtain ⟨piece, hp, rfl⟩ := List.mem_map.mp (List.mem_filter.mp hn).1
    rw [String.toList_ofList] at hc
    exact ⟨piece, hp, hc⟩
  · rintro ⟨piece, hp, hc⟩
    have hplain : isPlainName (String.ofList piece) = true := by
      rw [isPlainName, Bool.and_eq_true, bne_iff_ne, bne_iff_ne, Ne, Ne, ← String.toList_inj,
        ← String.toList_inj, String.toList_ofList]
      refine ⟨fun he => ?_, fun he => ?_⟩
      · rw [he] at hc
        exact absurd hc List.not_mem_nil
      · rw [he] at hc
        exact hd (List.mem_singleton.mp hc)
    refine ⟨_, List.mem_filter.mpr ⟨List.mem_map_of_mem hp, hplain⟩, ?_⟩
    rwa [String.toList_ofList]

/-! ### Refusals -/

section

variable [Interpreter]

/-- A character that the system takes in a path. -/
def isPathCharacter (c : Char) : Bool := Text.isNameCharacter c && c != '\x00'

theorem isPathCharacter_of_lt {c : Char} (hn : c ≠ '\x00') (h : c.toNat < 0xE000) :
    isPathCharacter c = true := by
  rw [isPathCharacter, Bool.and_eq_true, bne_iff_ne]
  exact ⟨Text.isNameCharacter_of_isProper (Text.isProper_of_lt h), hn⟩

theorem refusal?_eq_none_iff {cs : List Char} :
    refusal? cs = none ↔ ∀ c ∈ cs, isPathCharacter c = true := by
  have hsplit : (∀ c ∈ cs, isPathCharacter c = true) ↔
      cs.all Text.isNameCharacter = true ∧ cs.contains '\x00' = false := by
    simp only [isPathCharacter, Bool.and_eq_true, bne_iff_ne, List.all_eq_true,
      ← Bool.not_eq_true, List.contains_iff_mem]
    exact ⟨fun h => ⟨fun c hc => (h c hc).1, fun hn => (h _ hn).2 rfl⟩,
      fun h c hc => ⟨h.1 c hc, fun he => h.2 (he ▸ hc)⟩⟩
  rw [hsplit, refusal?]
  cases cs.all Text.isNameCharacter <;> cases cs.contains '\x00' <;> simp

/-- What is refused hangs on the characters alone that no path may hold. -/
theorem refusal?_congr {a b : List Char} (h : ∀ c, isPathCharacter c = false → (c ∈ a ↔ c ∈ b)) :
    refusal? a = refusal? b := by
  have hname : a.all Text.isNameCharacter = b.all Text.isNameCharacter := by
    rw [Bool.eq_iff_iff, List.all_eq_true, List.all_eq_true]
    have hbad : ∀ c, Text.isNameCharacter c = false → (c ∈ a ↔ c ∈ b) := fun c hc =>
      h c (by rw [isPathCharacter, hc, Bool.false_and])
    constructor <;> intro hall c hc <;> refine Bool.of_not_eq_false fun hn => ?_
    · exact nomatch hn.symm.trans (hall c ((hbad c hn).mpr hc))
    · exact nomatch hn.symm.trans (hall c ((hbad c hn).mp hc))
  have hnul : a.contains '\x00' = b.contains '\x00' := by
    rw [Bool.eq_iff_iff, List.contains_iff_mem, List.contains_iff_mem]
    exact h _ (by simp [isPathCharacter])
  rw [refusal?, refusal?, hname, hnul]

/-- A path is taken when its names are. -/
theorem FilePath.refusal?_eq_none_iff {path : FilePath} :
    path.refusal? = none ↔ ∀ name ∈ path.names, Files.refusal? name.toList = none := by
  simp only [FilePath.refusal?, Files.refusal?_eq_none_iff, List.mem_flatMap]
  exact ⟨fun h name hn c hc => h c ⟨name, hn, hc⟩, fun h c ⟨name, hn, hc⟩ => h name hn c hc⟩

/-- A path is refused for what its text is refused for. -/
theorem refusal?_ofText (text : String) : (FilePath.ofText text).refusal? = refusal? text.toList := by
  refine refusal?_congr fun c hc => ?_
  have hne : ∀ d : Char, isPathCharacter d = true → c ≠ d := fun d hd he => by
    rw [he, hd] at hc
    contradiction
  rw [List.mem_flatMap]
  exact exists_mem_ofText_iff (hne '/' (isPathCharacter_of_lt (by decide) (by decide)))
    (hne '.' (isPathCharacter_of_lt (by decide) (by decide))) text

end

/-- A proper name begins with a character, and that is no slash. -/
theorem exists_toList_of_nameable {name : String} (h : Nameable name) :
    ∃ c cs, name.toList = c :: cs ∧ c ≠ '/' := by
  cases hl : name.toList with
  | nil =>
    obtain ⟨hp, -⟩ := h
    rw [String.toList_eq_nil_iff.mp hl] at hp
    exact absurd hp (by decide)
  | cons c cs =>
    refine ⟨c, cs, rfl, fun he => h.2 ?_⟩
    rw [hl, he]
    exact List.mem_cons_self

/-- A proper name is read as the path of that name. -/
theorem ofText_of_nameable {name : String} (h : Nameable name) :
    FilePath.ofText name = ⟨.here, [name]⟩ := by
  have hnames : (pieces name).filter isPlainName = [name] := by
    rw [pieces, splitOn_eq, List.splitOn_eq_singleton h.2, List.map_singleton, String.ofList_toList,
      List.filter_cons_of_pos h.1]
    rfl
  have hanchor : FilePath.anchorOf name.toList = .here := by
    have hs := h.2
    unfold FilePath.anchorOf
    split <;> simp_all
  rw [FilePath.ofText, hnames, hanchor]

/-! ### Texts of names -/

/-- The names between slashes are read back. -/
theorem splitOn_intercalate {names : List String} (hne : names ≠ [])
    (hn : ∀ name ∈ names, '/' ∉ name.toList) :
    Text.splitOn '/' ("/".intercalate names).toList = names.map String.toList := by
  rw [splitOn_eq, String.toList_intercalate]
  refine List.splitOn_intercalate '/' ?_ (by simpa using hne)
  simpa using hn

/-- An absolute path of proper names is read back from its text. -/
theorem ofText_text {path : FilePath} (ha : path.isAbsolute = true) (hne : path.names ≠ [])
    (hn : ∀ name ∈ path.names, Nameable name) : FilePath.ofText path.text = path := by
  obtain ⟨anchor, names⟩ := path
  dsimp only at hne hn
  have hsplit := splitOn_intercalate hne fun name hm => (hn name hm).2
  have hall : names.filter isPlainName = names := List.filter_eq_self.mpr fun name hm => (hn name hm).1
  have hid : (names.map String.toList).map String.ofList = names := by simp
  obtain ⟨c, rest, htext, hc⟩ : ∃ c rest, ("/".intercalate names).toList = c :: rest ∧ c ≠ '/' := by
    obtain ⟨name, more, rfl⟩ := List.exists_cons_of_ne_nil hne
    obtain ⟨c, cs, hl, hc⟩ := exists_toList_of_nameable (hn name List.mem_cons_self)
    cases more with
    | nil => exact ⟨c, cs, by rw [String.intercalate_singleton, hl], hc⟩
    | cons second more =>
      refine ⟨c, cs ++ ("/" ++ "/".intercalate (second :: more)).toList, ?_, hc⟩
      rw [String.intercalate_cons_cons, String.append_assoc, String.toList_append, hl, List.cons_append]
  -- the slashes of the anchor give empty pieces, which are no names
  cases anchor with
  | here => contradiction
  | root =>
    have hl : (FilePath.text ⟨.root, names⟩).toList = '/' :: ("/".intercalate names).toList := by
      simp [FilePath.text, Anchor.text]
    rw [FilePath.ofText, pieces, hl, Text.splitOn, if_pos (beq_self_eq_true _), hsplit, List.map_cons, hid,
      List.filter_cons_of_neg (by decide), hall, htext]
    simp [FilePath.anchorOf, hc]
  | doubleRoot =>
    have hl : (FilePath.text ⟨.doubleRoot, names⟩).toList =
        '/' :: '/' :: ("/".intercalate names).toList := by
      simp [FilePath.text, Anchor.text]
    rw [FilePath.ofText, pieces, hl, Text.splitOn, if_pos (beq_self_eq_true _), Text.splitOn,
      if_pos (beq_self_eq_true _), hsplit, List.map_cons, List.map_cons, hid,
      List.filter_cons_of_neg (by decide), List.filter_cons_of_neg (by decide), hall, htext]
    simp [FilePath.anchorOf, hc]

/-- The text of an absolute path, with a slash at its end as well. -/
def closedText (names : List String) : String :=
  String.ofList (names.flatMap (fun name => '/' :: name.toList) ++ ['/'])

theorem splitOn_append {piece rest : List Char} {pieces : List (List Char)} (hp : '/' ∉ piece)
    (hr : Text.splitOn '/' rest = [] :: pieces) :
    Text.splitOn '/' (piece ++ rest) = piece :: pieces := by
  induction piece with
  | nil => exact hr
  | cons c piece ih =>
    have hc : ¬ (c == '/') = true := fun he => hp (by rw [beq_iff_eq.mp he]; exact List.mem_cons_self)
    rw [List.cons_append, Text.splitOn, if_neg hc, ih fun hm => hp (List.mem_cons_of_mem _ hm)]

theorem splitOn_closedText {names : List String} (hn : ∀ name ∈ names, Nameable name) :
    Text.splitOn '/' (closedText names).toList = [] :: (names.map String.toList ++ [[]]) := by
  unfold closedText
  rw [String.toList_ofList]
  induction names with
  | nil => rfl
  | cons name names ih =>
    obtain ⟨⟨-, hs⟩, hrest⟩ := List.forall_mem_cons.mp hn
    rw [List.flatMap_cons, List.append_assoc, List.cons_append, Text.splitOn,
      if_pos (beq_self_eq_true _), splitOn_append hs (ih hrest)]
    rfl

/-- Proper names are read back from their text. -/
theorem ofText_closedText {names : List String} (hne : names ≠ []) (hn : ∀ name ∈ names, Nameable name) :
    FilePath.ofText (closedText names) = ⟨.root, names⟩ := by
  have hnames : (pieces (closedText names)).filter isPlainName = names := by
    rw [pieces, splitOn_closedText hn, List.map_cons, List.map_append, List.map_map]
    have hid : names.map (String.ofList ∘ String.toList) = names := by
      simp
    rw [hid, List.filter_cons_of_neg (by decide), List.filter_append]
    have hall : names.filter isPlainName = names := List.filter_eq_self.mpr fun n hm => (hn n hm).1
    rw [hall]
    exact List.append_nil names
  have hanchor : FilePath.anchorOf (closedText names).toList = .root := by
    cases names with
    | nil => exact absurd rfl hne
    | cons name names =>
      obtain ⟨c, cs, hl, hc⟩ := exists_toList_of_nameable (hn name List.mem_cons_self)
      unfold closedText
      rw [String.toList_ofList, List.flatMap_cons, List.append_assoc, List.cons_append, hl]
      simp [FilePath.anchorOf, hc]
  rw [FilePath.ofText, hnames, hanchor]

/-- A closed text has no blanks to strip. -/
theorem strip_closedText {names : List String} (hne : names ≠ []) :
    Text.strip (closedText names) = closedText names := by
  have hb : Text.isBlank '/' = false := by decide
  have hl : (closedText names).toList =
      names.flatMap (fun name => '/' :: name.toList) ++ ['/'] := String.toList_ofList
  have hfront : (closedText names).toList.dropWhile Text.isBlank = (closedText names).toList := by
    rw [hl]
    cases names with
    | nil => exact absurd rfl hne
    | cons name names =>
      rw [List.flatMap_cons, List.append_assoc, List.cons_append, List.dropWhile_cons_of_neg]
      rw [hb]
      decide
  have hback : (closedText names).toList.reverse.dropWhile Text.isBlank =
      (closedText names).toList.reverse := by
    rw [hl, List.reverse_append, List.reverse_singleton, List.singleton_append,
      List.dropWhile_cons_of_neg]
    rw [hb]
    decide
  rw [Text.strip, Text.stripWhile, hfront, hback, List.reverse_reverse, String.ofList_toList]

end PlanAssistant.Files
