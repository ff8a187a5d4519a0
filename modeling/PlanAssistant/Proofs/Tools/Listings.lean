import PlanAssistant.Proofs.Files.Inventory
import PlanAssistant.Proofs.Tools.Confinement

/-!
What a listing shows.  The lines of a directory tell its entries in order of their names, and which of
them lead to directories; nothing else is looked at.  A listing fails exactly when one of the entries
cannot be looked at, since its path or a name on the way is too long.
-/
namespace PlanAssistant

open Files

variable [Interpreter]

namespace Files

/-! ### Looking where a path leads -/

section Looking

variable {tree : Node} {follow : Bool} {path : FilePath} {fault : Fault}

/-- The faults of following a path: nothing usable is there, or something is too long. -/
def Fault.OfWalk (fault : Fault) : Prop := fault.isAbsence = true ∨ fault = .nameTooLong

theorem ofWalk_walkAlong {onLink : List String → List String → Except Fault Place}
    (hon : ∀ here rest fault, onLink here rest = .error fault → fault.OfWalk) {here rest : List String}
    (h : walkAlong tree follow onLink here rest = .error fault) : fault.OfWalk := by
  induction rest generalizing here with
  | nil =>
    rw [walkAlong] at h
    split at h
    · contradiction
    · obtain rfl := Except.error.inj h
      exact .inl rfl
  | cons name rest ih =>
    rw [walkAlong] at h
    split at h
    · split at h
      · exact ih h
      split at h
      · exact ih h
      split at h
      · obtain rfl := Except.error.inj h
        exact .inr rfl
      split at h
      · split at h
        · contradiction
        · obtain rfl := Except.error.inj h
          exact .inl rfl
      · split at h
        · contradiction
        · exact hon _ _ _ h
      · exact ih h
    · obtain rfl := Except.error.inj h
      exact .inl rfl
    · obtain rfl := Except.error.inj h
      exact .inl rfl

theorem ofWalk_walkThrough (links : Nat) {here rest : List String}
    (h : walkThrough tree follow links here rest = .error fault) : fault.OfWalk := by
  induction links generalizing here rest fault with
  | zero =>
    refine ofWalk_walkAlong (fun _ _ _ hl => ?_) h
    obtain rfl := Except.error.inj hl
    exact .inl rfl
  | succ links ih => exact ofWalk_walkAlong (fun _ _ _ => ih) h

theorem ofWalk_status (h : status tree path = .error fault) : fault.OfWalk := by
  unfold status at h
  split at h
  · contradiction
  · obtain rfl := Except.error.inj h
    exact .inl rfl
  · next hw =>
    obtain rfl := Except.error.inj h
    unfold walk at hw
    split at hw
    · obtain rfl := Except.error.inj hw
      exact .inr rfl
    · exact ofWalk_walkThrough linkLimit hw

/-- What lies at the end of a path cannot be looked at, since something on the way is too long. -/
def Overlong (tree : Node) (path : FilePath) : Prop := status tree path = .error .nameTooLong

theorem overlong_of_walk (h : walk tree true path = .error .nameTooLong) : Overlong tree path := by
  unfold Overlong status
  rw [h]

theorem isDirectoryAt_eq_error_iff {e : FileError} :
    isDirectoryAt tree path = .error e ↔ Overlong tree path ∧ e = ⟨.nameTooLong, path.text⟩ := by
  unfold isDirectoryAt leadsTo Overlong
  cases hs : status tree path with
  | ok node => simp
  | error fault =>
    rcases ofWalk_status hs with ha | rfl
    · have hne : fault ≠ .nameTooLong := by
        rintro rfl
        contradiction
      simp [ha, hne]
    · simp [Fault.isAbsence, eq_comm]

end Looking

/-- In a well-formed directory the sorted names increase strictly. -/
theorem pairwise_sortedNames {entries : Entries} (h : (entries.map (·.1)).Nodup) :
    (sortedNames entries).Pairwise fun a b => Text.precedes a b = true := by
  have hsorted : (sortedNames entries).Pairwise fun a b => (!Text.precedes b a) = true := by
    refine List.pairwise_mergeSort (fun a b c hab hbc => ?_) (fun a b => ?_) _
    · rw [Bool.not_eq_true'] at hab hbc ⊢
      exact Text.not_precedes_trans hab hbc
    · rw [Bool.or_eq_true, Bool.not_eq_true', Bool.not_eq_true']
      cases hba : Text.precedes b a with
      | false => exact .inl rfl
      | true => exact .inr (Text.precedes_asymm hba)
  have hnodup : (sortedNames entries).Nodup := (List.mergeSort_perm _ _).nodup_iff.mpr h
  refine (hsorted.and hnodup).imp fun ⟨hle, hne⟩ => Bool.of_not_eq_false fun hn => ?_
  exact hne (Text.eq_of_not_precedes hn (by rwa [Bool.not_eq_true'] at hle))

end Files

namespace Tools

/-! ### The lines of a listing -/

section Lines

variable {tree tree' : Node} {directory : FilePath} {base : String} {names lines : List String}

/-- An entry as it is printed, after the text of its directory. -/
def entryText (base name : String) : String := base ++ "/" ++ name

/-- The line of an entry: with a slash at its end for a directory. -/
def entryLine (base name : String) (isDirectory : Bool) : String :=
  entryText base name ++ if isDirectory then "/" else ""

/-- The line is that of the name, as far as one can look where the name leads. -/
def Shows (tree : Node) (directory : FilePath) (base name line : String) : Prop :=
  ∃ isDirectory, isDirectoryAt tree (directory.child name) = .ok isDirectory ∧
    line = entryLine base name isDirectory

/-- There are lines exactly when one can look at all names, and then they are the lines of these. -/
theorem entryLines_eq_ok_iff :
    entryLines tree directory base names = .ok lines ↔
      List.Forall₂ (Shows tree directory base) names lines := by
  induction names generalizing lines with
  | nil =>
    rw [List.forall₂_nil_left_iff]
    exact ⟨fun h => (Except.ok.inj h).symm, fun h => by rw [h]; rfl⟩
  | cons name rest ih =>
    rw [entryLines]
    cases hd : isDirectoryAt tree (directory.child name) with
    | error e =>
      constructor
      · intro h
        cases h
      · intro h
        cases h with
        | cons hfirst _ =>
          obtain ⟨isDirectory, ho, -⟩ := hfirst
          rw [hd] at ho
          contradiction
    | ok isDirectory =>
      cases hl : entryLines tree directory base rest with
      | error e =>
        constructor
        · intro h
          cases h
        · intro h
          cases h with
          | cons _ hrest =>
            rw [ih.mpr hrest] at hl
            contradiction
      | ok later =>
        constructor
        · intro h
          obtain rfl := Except.ok.inj h
          exact .cons ⟨isDirectory, hd, rfl⟩ (ih.mp hl)
        · intro h
          cases h with
          | cons hfirst hrest =>
            obtain ⟨other, ho, rfl⟩ := hfirst
            obtain rfl := Except.ok.inj (hd.symm.trans ho)
            obtain rfl := Except.ok.inj (hl.symm.trans (ih.mpr hrest))
            rfl

theorem exists_ok_of_entryLines (h : entryLines tree directory base names = .ok lines) :
    ∀ name ∈ names, ∃ isDirectory, isDirectoryAt tree (directory.child name) = .ok isDirectory :=
  have hall := (entryLines_eq_ok_iff.mp h).imp (S := fun name _ =>
    (∃ isDirectory, isDirectoryAt tree (directory.child name) = .ok isDirectory) ∧ True)
    fun _ _ ⟨isDirectory, hok, _⟩ => ⟨⟨isDirectory, hok⟩, trivial⟩
  ((List.forall₂_and_left _ _).mp hall).1

/-- Otherwise the first name that one cannot look at is told of. -/
theorem entryLines_eq_error {e : FileError} (h : entryLines tree directory base names = .error e) :
    ∃ name ∈ names, isDirectoryAt tree (directory.child name) = .error e := by
  induction names with
  | nil => cases h
  | cons name rest ih =>
    rw [entryLines] at h
    cases hd : isDirectoryAt tree (directory.child name) with
    | error e' =>
      rw [hd] at h
      obtain rfl := Except.error.inj h
      exact ⟨name, List.mem_cons_self, hd⟩
    | ok isDirectory =>
      cases hl : entryLines tree directory base rest with
      | ok lines =>
        rw [hd, hl] at h
        cases h
      | error e' =>
        rw [hd, hl] at h
        obtain rfl := Except.error.inj h
        obtain ⟨other, hm, ho⟩ := ih hl
        exact ⟨other, List.mem_cons_of_mem _ hm, ho⟩

/-- Lines come of nothing but what one sees where the names lead. -/
theorem entryLines_congr (h : ∀ name ∈ names,
      isDirectoryAt tree (directory.child name) = isDirectoryAt tree' (directory.child name)) :
    entryLines tree directory base names = entryLines tree' directory base names := by
  induction names with
  | nil => rfl
  | cons name rest ih =>
    obtain ⟨hfirst, hrest⟩ := List.forall_mem_cons.mp h
    rw [entryLines, entryLines, hfirst, ih hrest]

end Lines

/-! ### The result of a listing -/

section Results

variable {tree : Node} {root directory : FilePath} {argument : String} {entries : Entries}

theorem resolve?_orDot (workspace : Workspace) (tree : Node) (argument : String) :
    workspace.resolve? tree (if argument.isEmpty then "." else argument) =
      workspace.resolve? tree argument := by
  split
  · next h =>
    rw [String.isEmpty_iff.mp h]
    rfl
  · rfl

/-- Of a path that is let through, its lines are told, or why there are none. -/
theorem listFiles_of_resolve? (hd : Workspace.resolve? ⟨some root⟩ tree argument = some directory) :
    listFiles ⟨some root⟩ tree argument =
      match listingLines tree root directory with
      | .ok lines => .ofOutput (listing lines)
      | .error e => .failed ("ListFiles error: " ++ e.message) := by
  have hdot := (resolve?_orDot ⟨some root⟩ tree argument).trans hd
  unfold listFiles
  dsimp only
  split
  · next hnone => nomatch hnone.symm.trans hdot
  · next found hfound =>
    obtain rfl := Option.some.inj (hfound.symm.trans hdot)
    rfl

theorem listingLines_of_status (root : FilePath)
    (hs : status tree directory = .ok (.directory entries)) :
    listingLines tree root directory =
      entryLines tree directory (directory.relativeText root) (sortedNames entries) := by
  have hnames : listNames tree directory = .ok (sortedNames entries) := by
    rw [listNames, hs]
    rfl
  rw [listingLines, hnames]
  rfl

/-- Of a path that cannot be followed, the fault is told. -/
theorem listFiles_of_fault {fault : Files.Fault}
    (hd : Workspace.resolve? ⟨some root⟩ tree argument = some directory)
    (hs : status tree directory = .error fault) :
    listFiles ⟨some root⟩ tree argument =
      .failed ("ListFiles error: " ++ FileError.message ⟨fault, directory.text⟩) := by
  have hnames : listNames tree directory = .error ⟨fault, directory.text⟩ := by
    rw [listNames, hs]
  have hlines : listingLines tree root directory = .error ⟨fault, directory.text⟩ := by
    rw [listingLines, hnames]
    rfl
  rw [listFiles_of_resolve? hd, hlines]

/-- What is said of a directory with entries: its lines, or why there are none. -/
theorem listFiles_eq (hd : Workspace.resolve? ⟨some root⟩ tree argument = some directory)
    (hs : status tree directory = .ok (.directory entries)) (hne : entries ≠ []) :
    listFiles ⟨some root⟩ tree argument =
      match entryLines tree directory (directory.relativeText root) (sortedNames entries) with
      | .ok lines => .ofOutput ("\n".intercalate lines)
      | .error e => .failed ("ListFiles error: " ++ e.message) := by
  rw [listFiles_of_resolve? hd, listingLines_of_status root hs]
  cases hl : entryLines tree directory (directory.relativeText root) (sortedNames entries) with
  | error e => rfl
  | ok lines =>
    have hlen := (entryLines_eq_ok_iff.mp hl).length_eq
    have hsome : lines ≠ [] := by
      rintro rfl
      rw [sortedNames, List.length_mergeSort, List.length_map] at hlen
      exact hne (List.length_eq_zero_iff.mp hlen)
    dsimp only
    rw [listing, if_neg (by simpa using hsome)]

/-- A listing succeeds exactly when one can look at all entries. -/
theorem listFiles_error_iff (hd : Workspace.resolve? ⟨some root⟩ tree argument = some directory)
    (hs : status tree directory = .ok (.directory entries)) (hne : entries ≠ []) :
    (listFiles ⟨some root⟩ tree argument).error = none ↔
      ∀ entry ∈ entries, ¬ Overlong tree (directory.child entry.1) := by
  rw [listFiles_eq hd hs hne]
  cases hl : entryLines tree directory (directory.relativeText root) (sortedNames entries) with
  | ok lines =>
    refine iff_of_true rfl fun entry hm ho => ?_
    have hname : entry.1 ∈ sortedNames entries := List.mem_mergeSort.mpr (List.mem_map_of_mem hm)
    obtain ⟨isDirectory, hok⟩ := exists_ok_of_entryLines hl entry.1 hname
    rw [isDirectoryAt_eq_error_iff.mpr ⟨ho, rfl⟩] at hok
    contradiction
  | error e =>
    refine iff_of_false (fun h => nomatch h) fun hall => ?_
    obtain ⟨name, hm, he⟩ := entryLines_eq_error hl
    obtain ⟨entry, hentry, rfl⟩ := List.mem_map.mp (List.mem_mergeSort.mp hm)
    exact hall entry hentry (isDirectoryAt_eq_error_iff.mp he).1

end Results
end Tools
end PlanAssistant
