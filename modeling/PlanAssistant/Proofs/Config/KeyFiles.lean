import PlanAssistant.Proofs.Config.KeyLoading
import PlanAssistant.Proofs.Text.Encoding
import PlanAssistant.Proofs.Text.LineEnds

/-!
Key files.  The lines of the user's file and those of the project's are carried out one after the other,
so of two files in UTF-8 without NUL characters every variable is settled by the lines of both.  Loading
breaks off at a file that is not UTF-8 and at a line that breaks, and nowhere else; what no line assigns to
keeps its binding all the same.
-/
namespace PlanAssistant

namespace Text

/-- The lines of a text. -/
def LinesOf (text : String) (lines : List String) : Prop := CutAs text.toList (lines.map String.toList)

theorem linesOf_iff {text : String} {lines : List String} : LinesOf text lines ↔ splitAll text = lines := by
  have hback : (splitAllFrom [] text.toList).map String.ofList = lines ↔
      splitAllFrom [] text.toList = lines.map String.toList := by
    constructor <;> intro h
    · simp [← h, Function.comp_def]
    · simp [h, Function.comp_def]
  rw [LinesOf, ← splitAllFrom_eq_iff, splitAll, hback]

theorem linesOf_splitAll (text : String) : LinesOf text (splitAll text) := linesOf_iff.mpr rfl

theorem mem_of_mem_splitAll {c : Char} {line text : String} (hl : line ∈ splitAll text)
    (hc : c ∈ line.toList) : c ∈ text.toList :=
  (linesOf_splitAll text).mem_of_mem (List.mem_map_of_mem hl) hc

end Text

namespace KeyFile

section Files

variable {env : Environment} {content home project : Option ByteArray} {bytes : ByteArray}
  {name : String} {lines more : List String}

/-! ### Lines of files -/

theorem lines?_toUTF8 (text : String) : lines? text.toUTF8 = some (Text.splitAll text) := by
  rw [lines?, Text.decode?_eq_some_iff.mpr rfl, Option.map_some, Text.splitAll, String.toList_ofList,
    Text.splitAllFrom_normalizeNewlines, Text.splitAll]

theorem lines?_eq_none_iff : lines? bytes = none ↔ ¬ bytes.IsValidUTF8 := by
  rw [lines?, Option.map_eq_none_iff, Text.decode?_eq_none_iff]

/-- The lines of a file; there are none when it is not there or not UTF-8. -/
def linesOf (content : Option ByteArray) : List String := (content.bind lines?).getD []

/-- A file is UTF-8, if it is there. -/
def Readable (content : Option ByteArray) : Prop := ∀ bytes ∈ content, bytes.IsValidUTF8

theorem apply_of_readable (h : Readable content) : apply env content = applyLines env (linesOf content) := by
  cases content with
  | none => rfl
  | some bytes =>
    cases hl : lines? bytes with
    | none => exact absurd (h bytes rfl) (lines?_eq_none_iff.mp hl)
    | some lines => simp [apply, linesOf, hl]

theorem of_not_readable (h : ¬ Readable content) :
    apply env content = (env, some .notUtf8) ∧ linesOf content = [] := by
  cases content with
  | none => exact absurd (fun bytes hb => nomatch hb) h
  | some bytes =>
    have hl : lines? bytes = none := lines?_eq_none_iff.mpr fun hv => h fun other ho => by
      obtain rfl := Option.some.inj ho
      exact hv
    simp [apply, linesOf, hl]

theorem applyLines_append : applyLines env (lines ++ more) =
    match applyLines env lines with
    | (next, none) => applyLines next more
    | broken => broken := by
  induction lines generalizing env with
  | nil => rfl
  | cons line lines ih =>
    rw [List.cons_append, applyLines_cons, applyLines_cons]
    cases applyLine env line with
    | ok next => exact ih
    | error fault => rfl

/-- Two files are carried out like the lines of both. -/
theorem applyBoth_of_readable (hh : Readable home) (hp : Readable project) :
    applyBoth env home project = applyLines env (linesOf home ++ linesOf project) := by
  rw [applyBoth, apply_of_readable hh, applyLines_append]
  obtain ⟨next, _ | fault⟩ := applyLines env (linesOf home)
  · exact apply_of_readable hp
  · rfl

/-! ### Outcomes of lines -/

theorem applyLines_returns_iff : (applyLines env lines).2 = none ↔ Unbroken env lines := by
  have h := loaded_applyLines env lines
  generalize applyLines env lines = outcome at h
  cases h with
  | whole unbroken => exact iff_of_true rfl unbroken
  | broken split unbroken breaks => exact iff_of_false nofun fun hu => hu _ _ _ split breaks

theorem Settled.eq_of_unassigned {bound : Option String} (h : Settled env lines name bound)
    (hn : ∀ line ∈ lines, ∀ value, ¬ Assigns line name value) : bound = env.get? name := by
  cases h with
  | kept => rfl
  | @filled before after line value unvalued split assigned =>
    exact absurd assigned (hn line (by simp [split]) value)
  | emptied unvalued mem assigned => exact absurd assigned (hn _ mem _)
  | untouched => rfl

/-- Lines that do not assign to a variable leave it as it is, though they may break off. -/
theorem get?_applyLines (hn : ∀ line ∈ lines, ∀ value, ¬ Assigns line name value) :
    (applyLines env lines).1.get? name = env.get? name := by
  have h := loaded_applyLines env lines
  generalize applyLines env lines = outcome at h
  cases h with
  | whole unbroken settled => exact (settled name).eq_of_unassigned hn
  | broken split unbroken breaks settled =>
    exact (settled name).eq_of_unassigned fun line hl => hn line (split ▸ List.mem_append_left _ hl)

/-- Lines without NUL characters do not break. -/
theorem unbroken_of_notMem (h : ∀ line ∈ lines, '\x00' ∉ line.toList) : Unbroken env lines := by
  rintro before line after rfl ⟨assigned, -, -, nul⟩
  exact h line (by simp) (assigned.mem_of_mem nul)

/-! ### Files in UTF-8 without NUL -/

theorem readable_toUTF8 (text : Option String) : Readable (text.map String.toUTF8) := by
  intro bytes hb
  obtain ⟨text, -, rfl⟩ := Option.map_eq_some_iff.mp hb
  exact text.isValidUTF8

theorem linesOf_toUTF8 (text : Option String) :
    linesOf (text.map String.toUTF8) = Text.splitAll (text.getD "") := by
  cases text with
  | none => rfl
  | some text => rw [linesOf, Option.map_some, Option.bind_some, lines?_toUTF8]; rfl

/-- Every variable is settled by the lines of the user's file and, after them, of the project's. -/
theorem settled_applyBoth (env : Environment) (home project : Option String)
    (hh : '\x00' ∉ (home.getD "").toList) (hp : '\x00' ∉ (project.getD "").toList) :
    ∃ final homeLines projectLines,
      applyBoth env (home.map String.toUTF8) (project.map String.toUTF8) = (final, none) ∧
      Text.LinesOf (home.getD "") homeLines ∧ Text.LinesOf (project.getD "") projectLines ∧
      ∀ name, Settled env (homeLines ++ projectLines) name (final.get? name) ∧
        ((∀ line ∈ homeLines ++ projectLines, ∀ value, ¬ Assigns line name value) →
          final.get? name = env.get? name) := by
  have hnul : ∀ line ∈ Text.splitAll (home.getD "") ++ Text.splitAll (project.getD ""),
      '\x00' ∉ line.toList := by
    intro line hl
    rcases List.mem_append.mp hl with hl | hl
    · exact fun hc => hh (Text.mem_of_mem_splitAll hl hc)
    · exact fun hc => hp (Text.mem_of_mem_splitAll hl hc)
  have hload := loaded_applyLines env
    (Text.splitAll (home.getD "") ++ Text.splitAll (project.getD ""))
  rw [applyBoth_of_readable (readable_toUTF8 home) (readable_toUTF8 project), linesOf_toUTF8,
    linesOf_toUTF8]
  generalize applyLines env _ = outcome at hload
  cases hload with
  | whole unbroken settled =>
    exact ⟨_, _, _, rfl, Text.linesOf_splitAll _, Text.linesOf_splitAll _, fun name =>
      ⟨settled name, (settled name).eq_of_unassigned⟩⟩
  | broken split unbroken breaks => exact absurd breaks (unbroken_of_notMem hnul _ _ _ split)

/-- Two files with repeated and empty values, a comment and several line ends. -/
theorem settled_applyBoth_twoFiles :
    let env : Environment := [("A", "old"), ("B", "")]
    let final : Environment := [("A", "old"), ("B", "2"), ("C", "x"), ("E", "")]
    let lines := ["A=1", "B=", "C='x'", "B=2", "C=3", "#D=4", "E="]
    '\x00' ∉ ((some "A=1\r\nB=\nC='x'").getD "").toList ∧
      '\x00' ∉ ((some "B=2\nC=3\n#D=4\nE=\n").getD "").toList ∧
      applyBoth env (some "A=1\r\nB=\nC='x'".toUTF8) (some "B=2\nC=3\n#D=4\nE=\n".toUTF8) =
        (final, none) ∧
      Text.LinesOf "A=1\r\nB=\nC='x'" (lines.take 3) ∧
      Text.LinesOf "B=2\nC=3\n#D=4\nE=\n" (lines.drop 3) ∧
      ∀ name, Settled env lines name (final.get? name) ∧
        ((∀ line ∈ lines, ∀ value, ¬ Assigns line name value) → final.get? name = env.get? name) := by
  intro env final lines
  have hh : '\x00' ∉ ((some "A=1\r\nB=\nC='x'").getD "").toList := by decide
  have hp : '\x00' ∉ ((some "B=2\nC=3\n#D=4\nE=\n").getD "").toList := by decide
  have hend : applyBoth env (some "A=1\r\nB=\nC='x'".toUTF8) (some "B=2\nC=3\n#D=4\nE=\n".toUTF8) =
      (final, none) := by decide +kernel
  have hhome : Text.LinesOf "A=1\r\nB=\nC='x'" (lines.take 3) := Text.linesOf_iff.mpr (by decide +kernel)
  have hproject : Text.LinesOf "B=2\nC=3\n#D=4\nE=\n" (lines.drop 3) :=
    Text.linesOf_iff.mpr (by decide +kernel)
  obtain ⟨found, homeLines, projectLines, happly, hh', hp', hsettled⟩ :=
    settled_applyBoth env (some "A=1\r\nB=\nC='x'") (some "B=2\nC=3\n#D=4\nE=\n") hh hp
  obtain rfl : found = final := (Prod.mk.inj (happly.symm.trans hend)).1
  obtain rfl := (Text.linesOf_iff.mp hh').symm.trans (Text.linesOf_iff.mp hhome)
  obtain rfl := (Text.linesOf_iff.mp hp').symm.trans (Text.linesOf_iff.mp hproject)
  exact ⟨hh, hp, hend, hhome, hproject, hsettled⟩

/-! ### Any files -/

/-- The variables that a file does not define are the same in both environments. -/
def Spares (content : Option ByteArray) (env final : Environment) : Prop :=
  ∀ name, (∀ line ∈ linesOf content, ∀ value, ¬ Assigns line name value) →
    final.get? name = env.get? name

/-- Loading the keys returns, and neither file touches a variable that it does not define. -/
structure Harmless (env : Environment) (home project : Option ByteArray) : Prop where
  returns : (applyBoth env home project).2 = none
  homeSpares : Spares home env (apply env home).1
  projectSpares : Spares project (apply env home).1 (applyBoth env home project).1

/-- A file spares the variables that it does not define, whether or not it is read to its end. -/
theorem spares_apply (env : Environment) (content : Option ByteArray) :
    Spares content env (apply env content).1 := by
  intro name hn
  by_cases hr : Readable content
  · rw [apply_of_readable hr]
    exact get?_applyLines hn
  · rw [(of_not_readable hr).1]

/-- The project's file is not looked at when the user's breaks off. -/
theorem spares_applyBoth (env : Environment) (home project : Option ByteArray) :
    Spares project (apply env home).1 (applyBoth env home project).1 := by
  rw [applyBoth]
  obtain ⟨next, _ | fault⟩ := apply env home
  · exact spares_apply next project
  · exact fun name hn => rfl

theorem apply_returns_iff :
    (apply env content).2 = none ↔ Readable content ∧ Unbroken env (linesOf content) := by
  by_cases hr : Readable content
  · rw [apply_of_readable hr, applyLines_returns_iff, and_iff_right hr]
  · rw [(of_not_readable hr).1]
    exact iff_of_false nofun fun hc => hr hc.1

theorem applyBoth_returns_iff : (applyBoth env home project).2 = none ↔
    (Readable home ∧ Readable project) ∧ Unbroken env (linesOf home ++ linesOf project) := by
  by_cases hr : Readable home ∧ Readable project
  · rw [applyBoth_of_readable hr.1 hr.2, applyLines_returns_iff, and_iff_right hr]
  · refine iff_of_false (fun hb => hr ?_) fun hc => hr hc.1
    rw [applyBoth] at hb
    cases ha : apply env home with
    | mk next fault =>
      rw [ha] at hb
      cases fault with
      | none => exact ⟨(apply_returns_iff.mp (congrArg Prod.snd ha)).1, (apply_returns_iff.mp hb).1⟩
      | some fault => contradiction

theorem harmless_iff_returns : Harmless env home project ↔ (applyBoth env home project).2 = none :=
  ⟨Harmless.returns, fun h => ⟨h, spares_apply env home, spares_applyBoth env home project⟩⟩

/-- Loading is harmless when both files are UTF-8, as far as they are there, and no line of them breaks;
the variables that a file does not define are spared even when it is not. -/
theorem harmless_iff (env : Environment) (home project : Option ByteArray) :
    (Harmless env home project ↔
      (Readable home ∧ Readable project) ∧ Unbroken env (linesOf home ++ linesOf project)) ∧
    Spares home env (apply env home).1 ∧
    Spares project (apply env home).1 (applyBoth env home project).1 :=
  ⟨harmless_iff_returns.trans applyBoth_returns_iff, spares_apply env home,
    spares_applyBoth env home project⟩

/-- A byte that is no UTF-8, and a NUL character in a value. -/
theorem not_harmless_badFiles : ¬ Harmless [] none (some ⟨#[0x4b, 0x3d, 0x61, 0xff, 0x0a]⟩) ∧
    ¬ Harmless [] (some "A=\x00\n".toUTF8) none := by
  have hbyte : (applyBoth [] none (some ⟨#[0x4b, 0x3d, 0x61, 0xff, 0x0a]⟩)).2 = some .notUtf8 := by
    decide +kernel
  have hnul : (applyBoth [] (some "A=\x00\n".toUTF8) none).2 = some .nulCharacter := by
    decide +kernel
  exact ⟨fun h => absurd (hbyte.symm.trans h.returns) nofun,
    fun h => absurd (hnul.symm.trans h.returns) nofun⟩

end Files
end KeyFile
end PlanAssistant
