import PlanAssistant.Proofs.Files.Inside
import PlanAssistant.Workspace

/-!
Paths as seen from a root.  The text of a path from the root on is read back as the names that it puts
after those of the root, and so are texts with further names after it; a workspace that is asked for such
a text resolves the path with all these names.
-/
namespace PlanAssistant

open Files

namespace Files

/-- The names on both sides of a slash are read one after the other. -/
theorem names_ofText_append (a b : String) :
    (FilePath.ofText (a ++ "/" ++ b)).names = (FilePath.ofText a).names ++ (FilePath.ofText b).names := by
  have hl : (a ++ "/" ++ b).toList = a.toList ++ '/' :: b.toList := by simp
  have hsplit : Text.splitOn '/' (a ++ "/" ++ b).toList =
      Text.splitOn '/' a.toList ++ Text.splitOn '/' b.toList := by
    simp only [splitOn_eq, hl]
    exact List.splitOnP_append_cons _ _ (beq_self_eq_true _)
  simp only [FilePath.ofText, pieces, hsplit, List.map_append, List.filter_append]

theorem anchor_ofText_append {a : String} {c : Char} {cs : List Char} (ha : a.toList = c :: cs)
    (hc : c ≠ '/') (b : String) : (FilePath.ofText (a ++ b)).anchor = .here := by
  simp only [FilePath.ofText, String.toList_append, ha, List.cons_append]
  unfold FilePath.anchorOf
  split <;> simp_all

section Relative

variable {names : List String}

/-- The text of names from a directory on does not begin with a slash. -/
theorem exists_toList_text_here (hn : ∀ name ∈ names, Nameable name) :
    ∃ c cs, (FilePath.text ⟨.here, names⟩).toList = c :: cs ∧ c ≠ '/' := by
  cases names with
  | nil => exact ⟨'.', [], rfl, by decide⟩
  | cons name more =>
    obtain ⟨c, cs, hl, hc⟩ := exists_toList_of_nameable (hn name List.mem_cons_self)
    cases more with
    | nil => exact ⟨c, cs, by simp [FilePath.text, Anchor.text, hl], hc⟩
    | cons second more =>
      refine ⟨c, cs ++ ("/" ++ "/".intercalate (second :: more)).toList, ?_, hc⟩
      simp [FilePath.text, Anchor.text, hl]

theorem names_ofText_text_here (hn : ∀ name ∈ names, Nameable name) :
    (FilePath.ofText (FilePath.text ⟨.here, names⟩)).names = names := by
  cases names with
  | nil => rfl
  | cons name more =>
    have ht : FilePath.text ⟨.here, name :: more⟩ = "/".intercalate (name :: more) := by
      simp [FilePath.text, Anchor.text]
    have hid : (name :: more).map (String.ofList ∘ String.toList) = name :: more := by simp
    rw [ht, FilePath.ofText, pieces,
      splitOn_intercalate (List.cons_ne_nil _ _) fun n hm => (hn n hm).2, List.map_map, hid]
    exact List.filter_eq_self.mpr fun n hm => (hn n hm).1

/-- Names from a directory on are read back from their text. -/
theorem ofText_text_here (hn : ∀ name ∈ names, Nameable name) :
    FilePath.ofText (FilePath.text ⟨.here, names⟩) = ⟨.here, names⟩ := by
  obtain ⟨c, cs, hl, hc⟩ := exists_toList_text_here hn
  have ha := anchor_ofText_append hl hc ""
  rw [String.append_empty] at ha
  exact congr (congrArg FilePath.mk ha) (names_ofText_text_here hn)

/-- What follows after a slash adds its names. -/
theorem ofText_text_here_append (hn : ∀ name ∈ names, Nameable name) (below : String) :
    FilePath.ofText (FilePath.text ⟨.here, names⟩ ++ "/" ++ below) =
      ⟨.here, names ++ (FilePath.ofText below).names⟩ := by
  obtain ⟨c, cs, hl, hc⟩ := exists_toList_text_here hn
  have ha := anchor_ofText_append hl hc ("/" ++ below)
  rw [← String.append_assoc] at ha
  have hnames := names_ofText_append (FilePath.text ⟨.here, names⟩) below
  rw [names_ofText_text_here hn] at hnames
  exact congr (congrArg FilePath.mk ha) hnames

/-- A slash at the end of a name adds nothing. -/
theorem names_ofText_slash {name : String} (h : Nameable name) :
    (FilePath.ofText (name ++ "/")).names = [name] := by
  have hl := names_ofText_append name ""
  rw [String.append_empty, ofText_of_nameable h] at hl
  exact hl

end Relative

namespace FilePath

/-- A path within a root has the names of the root, and those of its text from the root on. -/
theorem relativeText_eq {path root : FilePath} (h : path.isWithin root = true) :
    ∃ below, path = ⟨root.anchor, root.names ++ below⟩ ∧ path.relativeText root = text ⟨.here, below⟩ := by
  obtain ⟨ha, below, hb⟩ := isWithin_iff.mp h
  refine ⟨below, ?_, ?_⟩
  · rw [hb, ← ha]
  · rw [relativeText, if_pos h, ← hb, List.drop_left]

end FilePath

end Files

namespace Workspace

variable [Interpreter] {tree : Node} {root : FilePath}

/-- The workspace lets a path through by its real path, if that is within the root. -/
theorem resolve?_eq (root : FilePath) (tree : Node) (requested : String) :
    resolve? ⟨some root⟩ tree requested =
      (resolve tree (root.join (.ofText (Text.strip requested)))).toOption.filter (·.isWithin root) := by
  have hdot : FilePath.ofText (if (Text.strip requested).isEmpty then "." else Text.strip requested) =
      FilePath.ofText (Text.strip requested) := by
    split
    · next he =>
      rw [String.isEmpty_iff.mp he]
      rfl
    · rfl
  simp only [resolve?, Option.bind_eq_bind, Option.bind_some, hdot]
  cases (resolve tree (root.join (.ofText (Text.strip requested)))).toOption with
  | none => rfl
  | some real => cases hc : real.isWithin root <;> simp [contains, Option.filter_some, hc]

/-- Asked for a text without blanks at its ends, the workspace puts its names after those of the root. -/
theorem resolve?_of_here {text : String} {below : List String} (hs : Text.strip text = text)
    (ht : FilePath.ofText text = ⟨.here, below⟩) :
    resolve? ⟨some root⟩ tree text =
      (resolve tree ⟨root.anchor, root.names ++ below⟩).toOption.filter (·.isWithin root) := by
  have hjoin : root.join (.ofText (Text.strip text)) = ⟨root.anchor, root.names ++ below⟩ := by
    rw [hs, ht]
    rfl
  rw [resolve?_eq, hjoin]

end Workspace
end PlanAssistant
