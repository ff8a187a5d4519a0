import PlanAssistant.Files.Operations
import PlanAssistant.Proofs.Files.Growth

/-!
Directories that are made and files that are written.  Making a directory with its parents changes nothing
that is there, and each directory it makes is one that a beginning of the path leads to from then on.
Writing a file changes one place, to which the path leads from then on.
-/
namespace PlanAssistant.Files

variable {before middle after : Node} {path : FilePath}

theorem at?_eq_none_below {tree : Node} {place more : List String} (h : tree.at? place = none)
    (hp : place <+: more) : tree.at? more = none := by
  obtain ⟨rest, rfl⟩ := hp
  rw [Node.at?_append, h]
  rfl

/-! ### Files -/

/-- One place has a file with the content, where there was one before or nothing. -/
structure Writes (place : List String) (content : ByteArray) (before after : Node) : Prop where
  held : after.mark? place = some (.file content)
  free : before.mark? place = none ∨ ∃ old, before.mark? place = some (.file old)
  others : ∀ other, other ≠ place → after.mark? other = before.mark? other

theorem Writes.grows {place : List String} {content : ByteArray}
    (h : Writes place content before after) : Grows before after := by
  have hsame : ∀ other mark, before.mark? other = some mark → (∀ old, mark ≠ .file old) →
      after.mark? other = some mark := by
    intro other mark hm hne
    by_cases ho : other = place
    · subst ho
      rcases h.free with hn | ⟨old, hf⟩
      · rw [hn] at hm
        contradiction
      · exact absurd (Option.some.inj (hm.symm.trans hf)) (hne old)
    · rw [h.others other ho]
      exact hm
  refine ⟨fun other hm => ?_, fun other target hm => ?_, fun other old hm => ?_⟩
  · exact hsame other _ hm fun _ he => (nomatch he)
  · exact hsame other _ hm fun _ he => (nomatch he)
  · by_cases ho : other = place
    · subst ho
      exact ⟨content, h.held⟩
    · exact ⟨old, (h.others other ho).trans hm⟩

/-- A file put under a name of a directory, where nothing is below that name. -/
theorem writes_put {directory : List String} {name : String} {entries : Entries} (content : ByteArray)
    (hd : before.at? directory = some (.directory entries))
    (hf : lookup name entries = none ∨ ∃ old, lookup name entries = some (.file old)) :
    Writes (directory ++ [name]) content before (before.put (directory ++ [name]) (.file content)) := by
  have hat := Node.at?_concat hd name
  have hself := at?_put_self name (.file content) hd
  refine ⟨mark?_of_at? hself, ?_, fun other ho => ?_⟩
  · rcases hf with hn | ⟨old, hf⟩
    · exact .inl (mark?_eq_none.mpr (hat.trans hn))
    · exact .inr ⟨old, mark?_of_at? (hat.trans hf)⟩
  · by_cases hp : directory ++ [name] <+: other
    · obtain ⟨more, rfl⟩ := hp
      cases more with
      | nil => exact absurd (List.append_nil _) ho
      | cons first more =>
        rw [Node.mark?, Node.mark?, Node.at?_append, hself, Node.at?_append, hat]
        rcases hf with hn | ⟨old, hf⟩
        · rw [hn]
          rfl
        · rw [hf]
          rfl
    · exact mark?_put hd hp

/-- A file that is there is given another content. -/
theorem writes_put_file {place : List String} {old : ByteArray} (content : ByteArray)
    (h : before.at? place = some (.file old)) :
    Writes place content before (before.put place (.file content)) := by
  rcases List.eq_nil_or_concat place with rfl | ⟨directory, name, rfl⟩
  · obtain rfl := Option.some.inj h
    refine ⟨rfl, .inr ⟨old, rfl⟩, fun other ho => ?_⟩
    cases other with
    | nil => exact absurd rfl ho
    | cons first other => rfl
  · rw [List.concat_eq_append] at h ⊢
    rw [Node.at?_append] at h
    obtain ⟨parent, hp, hc⟩ := Option.bind_eq_some_iff.mp h
    obtain ⟨child, hc, hr⟩ := Option.bind_eq_some_iff.mp hc
    obtain rfl := Option.some.inj hr
    cases parent with
    | directory entries => exact writes_put content hp (.inr ⟨old, hc⟩)
    | file content => cases hc
    | link target => cases hc

/-! ### Directories on a way -/

variable [Interpreter]

/-- Some beginning of the path leads to the place. -/
def OnWay (tree : Node) (path : FilePath) (place : List String) : Prop :=
  ∃ part, part <+: path.names ∧ place? tree ⟨path.anchor, part⟩ = some place

theorem Grows.onWay (hg : Grows before after) {place : List String} (h : OnWay before path place) :
    OnWay after path place :=
  have ⟨part, hp, hw⟩ := h
  ⟨part, hp, hg.place? hw⟩

/-- Everything stays as it was, and what is new are directories on the way. -/
structure MakesAlong (path : FilePath) (before after : Node) : Prop where
  kept : ∀ place mark, before.mark? place = some mark → after.mark? place = some mark
  made : ∀ place, before.mark? place = none → after.mark? place ≠ none →
    after.mark? place = some .directory ∧ OnWay after path place

namespace MakesAlong

theorem grows (h : MakesAlong path before after) : Grows before after := .of_kept h.kept

theorem refl (path : FilePath) (tree : Node) : MakesAlong path tree tree :=
  ⟨fun _ _ h => h, fun _ h hne => absurd h hne⟩

theorem trans (h : MakesAlong path before middle) (h' : MakesAlong path middle after) :
    MakesAlong path before after where
  kept := fun place mark hm => h'.kept place mark (h.kept place mark hm)
  made := by
    intro place hb ha
    cases hm : middle.mark? place with
    | none => exact h'.made place hm ha
    | some mark =>
      obtain ⟨hd, hw⟩ := h.made place hb (by rw [hm]; exact Option.some_ne_none mark)
      exact ⟨h'.kept place _ hd, h'.grows.onWay hw⟩

theorem mono {names more : List String} {anchor : Anchor}
    (h : MakesAlong ⟨anchor, names⟩ before after) (hp : names <+: more) :
    MakesAlong ⟨anchor, more⟩ before after where
  kept := h.kept
  made := fun place hb ha =>
    have ⟨hd, part, hpart, hw⟩ := h.made place hb ha
    ⟨hd, part, hpart.trans hp, hw⟩

/-- What has changed was not there. -/
theorem mark?_eq_none_of_ne (h : MakesAlong path before after) {place : List String}
    (hne : after.mark? place ≠ before.mark? place) : before.mark? place = none := by
  cases hb : before.mark? place with
  | none => rfl
  | some mark => exact absurd ((h.kept place mark hb).trans hb.symm) hne

/-- What has changed is on the way. -/
theorem onWay (h : MakesAlong path before after) {place : List String}
    (hne : after.mark? place ≠ before.mark? place) : OnWay after path place :=
  have hb := h.mark?_eq_none_of_ne hne
  (h.made place hb (hb ▸ hne)).2

theorem mark?_of_ne_directory (h : MakesAlong path before after) {place : List String} {mark : Mark}
    (hm : after.mark? place = some mark) (hne : mark ≠ .directory) : before.mark? place = some mark := by
  cases hb : before.mark? place with
  | none =>
    obtain ⟨hd, -⟩ := h.made place hb (by rw [hm]; exact Option.some_ne_none mark)
    exact absurd (Option.some.inj (hm.symm.trans hd)) hne
  | some mark' => exact (h.kept place mark' hb).symm.trans hm

end MakesAlong

/-- A directory is made where the path leads from then on. -/
theorem makesAlong_makeDirectory (h : makeDirectory before path = .ok after) :
    MakesAlong path before after := by
  unfold makeDirectory at h
  split at h
  · contradiction
  · next directory name slash hw =>
    obtain rfl := Except.ok.inj h
    obtain ⟨entries, hd, hk⟩ := directory_of_walk hw
    have hnone : before.at? (directory ++ [name]) = none := (Node.at?_concat hd name).trans hk
    have hkept : ∀ place mark, before.mark? place = some mark →
        (before.put (directory ++ [name]) .empty).mark? place = some mark := by
      intro place mark hm
      by_cases hp : directory ++ [name] <+: place
      · rw [mark?_eq_none.mpr (at?_eq_none_below hnone hp)] at hm
        contradiction
      · rw [mark?_put hd hp]
        exact hm
    refine ⟨hkept, fun place hb ha => ?_⟩
    by_cases hp : directory ++ [name] <+: place
    · obtain ⟨more, rfl⟩ := hp
      have hself := at?_put_self name .empty hd
      cases more with
      | nil =>
        rw [List.append_nil]
        have hplace := (Grows.of_kept hkept).place?_of_walk
          (.absent hself (fun _ he => nomatch he) fun _ => ⟨_, rfl⟩) hw
        exact ⟨mark?_of_at? hself, path.names, List.prefix_rfl, hplace⟩
      | cons first more =>
        rw [Node.mark?, Node.at?_append, hself] at ha
        exact absurd rfl ha
    · rw [mark?_put hd hp] at ha
      exact absurd hb ha
  · contradiction

theorem makesAlong_makeLast (tree : Node) (path : FilePath) :
    MakesAlong path tree (makeLast tree path).1 := by
  unfold makeLast
  split
  · next h => exact makesAlong_makeDirectory h
  · exact .refl path tree
  · unfold toleratePresent
    split <;> exact .refl path tree

theorem makesAlong_makeDirectoriesFrom (anchor : Anchor) (tree : Node) (room : Nat)
    (names : List String) :
    MakesAlong ⟨anchor, names.reverse⟩ tree (makeDirectoriesFrom anchor tree room names).1 := by
  induction names generalizing room with
  | nil =>
    cases room with
    | zero => exact .refl _ tree
    | succ room => exact makesAlong_makeLast tree _
  | cons name above ih =>
    cases room with
    | zero => exact .refl _ tree
    | succ room =>
      have habove := (ih room).mono (List.reverse_prefix.mpr (List.suffix_cons name above))
      rw [makeDirectoriesFrom]
      split
      · next h => exact makesAlong_makeDirectory h
      · split
        · next made hm =>
          rw [hm] at habove
          exact habove.trans (makesAlong_makeLast made _)
        · exact habove
      · unfold toleratePresent
        split <;> exact .refl _ tree

/-- Making directories makes directories on the way, and nothing else. -/
theorem makesAlong_makeDirectories (tree : Node) (path : FilePath) :
    MakesAlong path tree (makeDirectories tree path).1 := by
  have h := makesAlong_makeDirectoriesFrom path.anchor tree Interpreter.directoryDepth path.names.reverse
  rwa [List.reverse_reverse] at h

/-! ### Too many missing directories -/

/-- So many of the last directories on a way are missing that they cannot be made at once. -/
def TooDeep (tree : Node) (path : FilePath) : Prop :=
  Interpreter.directoryDepth ≤ path.names.length ∧
    ∀ part, part <+: path.names → path.names.length < part.length + Interpreter.directoryDepth →
      walk tree false ⟨path.anchor, part⟩ = .error .noEntry

theorem makeDirectory_eq_noEntry_iff {tree : Node} :
    makeDirectory tree path = .error .noEntry ↔ walk tree false path = .error .noEntry := by
  unfold makeDirectory
  split <;> simp_all

theorem toleratePresent_ne_tooDeep (tree : Node) (path : FilePath) (fault : Fault) :
    (toleratePresent tree path fault).2 ≠ some .tooDeep := by
  unfold toleratePresent
  split <;> simp

theorem makeLast_ne_tooDeep (tree : Node) (path : FilePath) :
    (makeLast tree path).2 ≠ some .tooDeep := by
  unfold makeLast
  split
  · simp
  · simp
  · exact toleratePresent_ne_tooDeep tree path _

/-- The last directories of a way, as many as there is room for, are all missing. -/
def Missing (tree : Node) (anchor : Anchor) (room : Nat) (names : List String) : Prop :=
  room ≤ names.length ∧ ∀ above, above <:+ names → names.length < above.length + room →
    makeDirectory tree ⟨anchor, above.reverse⟩ = .error .noEntry

theorem missing_zero (tree : Node) (anchor : Anchor) (names : List String) :
    Missing tree anchor 0 names := by
  refine ⟨Nat.zero_le _, fun above hs hl => ?_⟩
  have := hs.length_le
  omega

/-- The way itself is one of those that are missing. -/
theorem Missing.self {tree : Node} {anchor : Anchor} {room : Nat} {names : List String}
    (h : Missing tree anchor (room + 1) names) :
    makeDirectory tree ⟨anchor, names.reverse⟩ = .error .noEntry :=
  h.2 names List.suffix_rfl (by omega)

theorem missing_cons_iff {tree : Node} {anchor : Anchor} {room : Nat} {name : String} {above : List String}
    (h : makeDirectory tree ⟨anchor, (name :: above).reverse⟩ = .error .noEntry) :
    Missing tree anchor (room + 1) (name :: above) ↔ Missing tree anchor room above := by
  simp only [Missing, List.suffix_cons_iff, forall_eq_or_imp, List.length_cons, h, implies_true, true_and]
  refine and_congr (by omega) (forall_congr' fun part => imp_congr_right fun _ => ?_)
  exact imp_congr_left (by omega)

theorem makeDirectoriesFrom_eq_tooDeep_iff {anchor : Anchor} {tree : Node} {room : Nat}
    {names : List String} :
    (makeDirectoriesFrom anchor tree room names).2 = some .tooDeep ↔ Missing tree anchor room names := by
  induction names generalizing room with
  | nil =>
    cases room with
    | zero => exact iff_of_true rfl (missing_zero tree anchor [])
    | succ room => simp [makeDirectoriesFrom, makeLast_ne_tooDeep, Missing]
  | cons name above ih =>
    cases room with
    | zero => exact iff_of_true rfl (missing_zero tree anchor (name :: above))
    | succ room =>
      rw [makeDirectoriesFrom]
      split
      · next h =>
        refine iff_of_false (by simp) fun hm => ?_
        rw [hm.self] at h
        contradiction
      · next h =>
        rw [missing_cons_iff h, ← ih]
        split
        · next made hm =>
          rw [hm]
          simp [makeLast_ne_tooDeep]
        · exact Iff.rfl
      · next fault h hf =>
        refine iff_of_false (toleratePresent_ne_tooDeep _ _ _) fun hm => h ?_
        exact Except.error.inj (hf.symm.trans hm.self)

/-- Directories are made unless so many are missing, or something is in the way. -/
theorem makeDirectories_eq_tooDeep_iff {tree : Node} :
    (makeDirectories tree path).2 = some .tooDeep ↔ TooDeep tree path := by
  rw [makeDirectories, makeDirectoriesFrom_eq_tooDeep_iff, Missing, TooDeep, List.length_reverse]
  refine and_congr_right fun _ => ⟨fun h part hp hl => ?_, fun h above hs hl => ?_⟩
  · rw [← makeDirectory_eq_noEntry_iff]
    have hm := h part.reverse (List.reverse_suffix.mpr hp) (by rwa [List.length_reverse])
    rwa [List.reverse_reverse] at hm
  · rw [makeDirectory_eq_noEntry_iff]
    refine h above.reverse ?_ (by rwa [List.length_reverse])
    rwa [← List.reverse_suffix, List.reverse_reverse]

/-! ### Writing -/

/-- A file that is written is where the path leads from then on. -/
theorem writes_writeBytes {content : ByteArray} (h : writeBytes before path content = .ok after) :
    ∃ place, Writes place content before after ∧ place? after path = some place := by
  unfold writeBytes at h
  split at h
  · next place old hw =>
    obtain rfl := Except.ok.inj h
    have hwrites := writes_put_file content (at?_of_walk hw)
    exact ⟨place, hwrites, hwrites.grows.place? (place?_of_walk hw)⟩
  · contradiction
  · next directory name hw =>
    obtain rfl := Except.ok.inj h
    obtain ⟨entries, hd, hk⟩ := directory_of_walk hw
    have hwrites := writes_put content hd (.inl hk)
    have hplace := hwrites.grows.place?_of_walk
      (.absent (at?_put_self _ _ hd) (fun _ he => nomatch he) Bool.noConfusion) hw
    exact ⟨_, hwrites, hplace⟩
  · contradiction
  · contradiction

end PlanAssistant.Files
