import PlanAssistant.Proofs.Files.RelativeText
import PlanAssistant.Proofs.Files.Straight
import PlanAssistant.Proofs.Tools.Listings

/-!
What a listing tells of the world outside.  Two trees may hold the same workspace and differ elsewhere.
A directory that lies in the workspace is then listed alike in both, apart from its links: a listing
follows them wherever they lead, and shows whether a directory is there.
-/
namespace PlanAssistant.Tools

open Files

/-! ### Outputs of a listing -/

/-- What comes after the first line of an output. -/
def laterText (lines : List String) : String :=
  if lines = [] then "" else "\n" ++ "\n".intercalate lines

theorem intercalate_cons_eq (line : String) (lines : List String) :
    "\n".intercalate (line :: lines) = line ++ laterText lines := by
  unfold laterText
  by_cases hl : lines = []
  · rw [hl, if_pos rfl, String.intercalate_singleton, String.append_empty]
  · rw [if_neg hl, String.intercalate_cons_of_ne_nil hl, String.append_assoc]

theorem slash_append_ne_laterText (rest : String) (lines : List String) :
    "/" ++ rest ≠ laterText lines := by
  intro he
  have hl := congrArg String.toList he
  unfold laterText at hl
  split at hl <;> simp at hl

/-- The first line of an output can be told, since no line has anything but a slash after its entry. -/
theorem entryLine_append_laterText_inj {name : String} {a b : Bool}
    (h : entryLine base name a ++ laterText lines = entryLine base name b ++ laterText lines') :
    a = b ∧ laterText lines = laterText lines' := by
  unfold entryLine at h
  rw [String.append_assoc, String.append_assoc] at h
  have hrest := (String.append_right_inj _).mp h
  cases a <;> cases b
  · exact ⟨rfl, by simpa using hrest⟩
  · exact absurd (by simpa using hrest.symm) (slash_append_ne_laterText _ lines)
  · exact absurd (by simpa using hrest) (slash_append_ne_laterText _ lines')
  · exact ⟨rfl, (String.append_right_inj _).mp hrest⟩

section Worlds

variable [Interpreter]

/-! ### One workspace in two trees -/

/-- Two trees that a file system can hold, with the same node at a place. -/
structure SameInside (tree tree' : Node) (top : List String) : Prop where
  wellFormed : tree.wellFormed = true
  wellFormed' : tree'.wellFormed = true
  inside : ∃ home, tree.at? top = some home ∧ tree'.at? top = some home

namespace SameInside

variable {tree tree' node : Node} {top below place : List String} {entries : Entries} {argument : String}

theorem at?_eq (h : SameInside tree tree' top) (below : List String) :
    tree.at? (top ++ below) = tree'.at? (top ++ below) := by
  obtain ⟨home, hh, hh'⟩ := h.inside
  rw [Node.at?_append, Node.at?_append, hh, hh']

end SameInside

/-- The way to something that is no link is straight. -/
theorem straight_of_at? {tree node : Node} {place : List String} (ht : tree.wellFormed = true)
    (hn : tree.at? place = some node) (hl : ∀ target, node ≠ .link target) : Straight tree place where
  plain := fun name hm =>
    have hname := (wellFormed_at? ht hn).2 name hm
    ⟨hname.1.1.1, hname.1.2⟩
  unlinked := by
    rintro part ⟨more, rfl⟩ target hm
    cases more with
    | nil =>
      rw [List.append_nil] at hn
      exact hl target (Option.some.inj (hn.symm.trans (mark?_eq_link.mp hm)))
    | cons name more =>
      rw [mark?_of_below (List.cons_ne_nil name more) hn] at hm
      cases hm

section Straight

variable {tree node : Node} {place : List String}

/-- Where a way without links leads hangs on the place alone. -/
theorem status_of_at? (ht : tree.wellFormed = true) (hn : tree.at? place = some node)
    (hl : ∀ target, node ≠ .link target) :
    status tree ⟨.root, place⟩ =
      if pathLimit ≤ Text.byteSize (FilePath.text ⟨.root, place⟩) then .error .nameTooLong
      else .ok node :=
  (straight_of_at? ht hn hl).status_eq (fun name hm => ((wellFormed_at? ht hn).2 name hm).2.2) hn .root

theorem resolve_of_at? (ht : tree.wellFormed = true) (hn : tree.at? place = some node)
    (hl : ∀ target, node ≠ .link target) : resolve tree ⟨.root, place⟩ = .ok ⟨.root, place⟩ := by
  have hnames := (wellFormed_at? ht hn).2
  exact (straight_of_at? ht hn hl).resolve_eq (fun name hm => (hnames name hm).2.2)
    (FilePath.refusal?_eq_none_iff.mpr fun name hm => (hnames name hm).2.1) hn

end Straight

/-! ### Listings that say the same -/

section Lines

variable {tree tree' : Node} {directory : FilePath} {base : String} {names lines lines' : List String}

/-- Where two outputs for the same names are one, the same was seen under each name. -/
theorem look_eq_of_laterText_eq (h : List.Forall₂ (Shows tree directory base) names lines)
    (h' : List.Forall₂ (Shows tree' directory base) names lines') (he : laterText lines = laterText lines') :
    ∀ name ∈ names,
      isDirectoryAt tree (directory.child name) = isDirectoryAt tree' (directory.child name) := by
  induction h generalizing lines' with
  | nil => exact fun _ hm => absurd hm List.not_mem_nil
  | @cons name line names lines hfirst hrest ih =>
    cases h' with
    | @cons _ line' _ lines' hfirst' hrest' =>
      obtain ⟨a, ha, rfl⟩ := hfirst
      obtain ⟨b, hb, rfl⟩ := hfirst'
      unfold laterText at he
      rw [if_neg (List.cons_ne_nil _ _), if_neg (List.cons_ne_nil _ _), intercalate_cons_eq,
        intercalate_cons_eq] at he
      obtain ⟨hab, hlater⟩ := entryLine_append_laterText_inj ((String.append_right_inj _).mp he)
      refine List.forall_mem_cons.mpr ⟨?_, ih hrest' hlater⟩
      rw [ha, hb, hab]

end Lines

section Outside

variable {tree tree' : Node} {top below : List String} {entries : Entries} {argument : String}

/-- What one sees under the name of an entry, with links followed wherever they lead. -/
def look (tree : Node) (place : List String) (name : String) : Except FileError Bool :=
  isDirectoryAt tree ⟨.root, place ++ [name]⟩

/-- An entry that is no link looks the same in both trees. -/
theorem look_eq_of_not_link (h : SameInside tree tree' top)
    (hd : tree.at? (top ++ below) = some (.directory entries)) {name : String} {node : Node}
    (hm : (name, node) ∈ entries) (hl : ∀ target, node ≠ .link target) :
    look tree (top ++ below) name = look tree' (top ++ below) name := by
  have hat : tree.at? (top ++ (below ++ [name])) = some node := by
    rw [← List.append_assoc, Node.at?_concat hd]
    exact (lookup_eq_some_iff (wellFormed_at? h.wellFormed hd).1).mpr hm
  have hat' := h.at?_eq _ ▸ hat
  unfold look isDirectoryAt leadsTo
  rw [List.append_assoc, status_of_at? h.wellFormed hat hl, status_of_at? h.wellFormed' hat' hl]

/-- What a listing of a directory in the workspace comes to. -/
theorem listFiles_of_below (ht : tree.wellFormed = true)
    (hd : tree.at? (top ++ below) = some (.directory entries))
    (ha : FilePath.ofText (Text.strip argument) = ⟨.here, below⟩) :
    Workspace.resolve? ⟨some ⟨.root, top⟩⟩ tree argument = some ⟨.root, top ++ below⟩ ∧
      status tree ⟨.root, top ++ below⟩ =
        if pathLimit ≤ Text.byteSize (FilePath.text ⟨.root, top ++ below⟩) then .error .nameTooLong
        else .ok (.directory entries) := by
  have hl : ∀ target, Node.directory entries ≠ .link target := fun _ he => nomatch he
  refine ⟨?_, status_of_at? ht hd hl⟩
  have hjoin : FilePath.join ⟨.root, top⟩ (.ofText (Text.strip argument)) = ⟨.root, top ++ below⟩ := by
    rw [ha]
    rfl
  have hwithin : FilePath.isWithin ⟨.root, top ++ below⟩ ⟨.root, top⟩ = true :=
    FilePath.isWithin_iff.mpr ⟨rfl, List.prefix_append _ _⟩
  rw [Workspace.resolve?_eq, hjoin, resolve_of_at? ht hd hl]
  simp [Except.toOption, Option.filter_some, hwithin]

/-- Links apart, the two trees give a listing the same to see. -/
theorem look_eq_of_links (h : SameInside tree tree' top)
    (hd : tree.at? (top ++ below) = some (.directory entries))
    (hl : ∀ name target, (name, .link target) ∈ entries →
      look tree (top ++ below) name = look tree' (top ++ below) name) :
    ∀ name ∈ sortedNames entries, look tree (top ++ below) name = look tree' (top ++ below) name := by
  intro name hm
  obtain ⟨⟨_, node⟩, hentry, rfl⟩ := List.mem_map.mp (List.mem_mergeSort.mp hm)
  cases node with
  | link target => exact hl _ target hentry
  | file content => exact look_eq_of_not_link h hd hentry fun _ he => nomatch he
  | directory inner => exact look_eq_of_not_link h hd hentry fun _ he => nomatch he

/-- Directories with the same entries are listed alike if the same is to be seen under each name. -/
theorem listFiles_congr {root directory : FilePath}
    (hd : Workspace.resolve? ⟨some root⟩ tree argument = some directory)
    (hd' : Workspace.resolve? ⟨some root⟩ tree' argument = some directory)
    (hs : status tree directory = .ok (.directory entries))
    (hs' : status tree' directory = .ok (.directory entries))
    (hl : ∀ name ∈ sortedNames entries,
      isDirectoryAt tree (directory.child name) = isDirectoryAt tree' (directory.child name)) :
    listFiles ⟨some root⟩ tree argument = listFiles ⟨some root⟩ tree' argument := by
  have hlines : listingLines tree root directory = listingLines tree' root directory := by
    rw [listingLines_of_status root hs, listingLines_of_status root hs', entryLines_congr hl]
  rw [listFiles_of_resolve? hd, listFiles_of_resolve? hd', hlines]

/-- A listing that succeeds has looked at all entries, and the other tree can give the same only if it
shows the same under each name. -/
theorem look_eq_of_listFiles_eq {root directory : FilePath}
    (hd : Workspace.resolve? ⟨some root⟩ tree argument = some directory)
    (hd' : Workspace.resolve? ⟨some root⟩ tree' argument = some directory)
    (hs : status tree directory = .ok (.directory entries))
    (hs' : status tree' directory = .ok (.directory entries))
    (hok : (listFiles ⟨some root⟩ tree argument).error = none)
    (he : listFiles ⟨some root⟩ tree argument = listFiles ⟨some root⟩ tree' argument) :
    ∀ name ∈ sortedNames entries,
      isDirectoryAt tree (directory.child name) = isDirectoryAt tree' (directory.child name) := by
  intro name hm
  have hne : entries ≠ [] := by
    rintro rfl
    exact absurd (List.mem_mergeSort.mp hm) List.not_mem_nil
  have hok' := he ▸ hok
  rw [listFiles_eq hd hs hne] at hok he
  rw [listFiles_eq hd' hs' hne] at hok' he
  cases hl : entryLines tree directory (directory.relativeText root) (sortedNames entries) with
  | error e =>
    rw [hl] at hok
    nomatch hok
  | ok lines =>
    cases hl' : entryLines tree' directory (directory.relativeText root) (sortedNames entries) with
    | error e =>
      rw [hl'] at hok'
      nomatch hok'
    | ok lines' =>
      rw [hl, hl'] at he
      have hall := entryLines_eq_ok_iff.mp hl
      have hall' := entryLines_eq_ok_iff.mp hl'
      have houtput : "\n".intercalate lines = "\n".intercalate lines' := congrArg ToolResult.output he
      refine look_eq_of_laterText_eq hall hall' ?_ name hm
      have hlines : lines = [] ↔ lines' = [] := by
        rw [← List.length_eq_zero_iff, ← List.length_eq_zero_iff, ← hall.length_eq, hall'.length_eq]
      unfold laterText
      simp only [hlines, houtput]

/-- A directory in the workspace is listed alike in both trees if every link in it leads to a directory in
both or in neither; and a listing that succeeds is the same in the other tree only then. -/
theorem listFiles_eq_of_links (h : SameInside tree tree' top)
    (hd : tree.at? (top ++ below) = some (.directory entries))
    (ha : FilePath.ofText (Text.strip argument) = ⟨.here, below⟩) :
    let same := ∀ name target, (name, .link target) ∈ entries →
      look tree (top ++ below) name = look tree' (top ++ below) name
    let result := listFiles ⟨some ⟨.root, top⟩⟩ tree argument
    let result' := listFiles ⟨some ⟨.root, top⟩⟩ tree' argument
    (same → result = result') ∧ (result.error = none → result = result' → same) := by
  intro same result result'
  obtain ⟨hr, hs⟩ := listFiles_of_below h.wellFormed hd ha
  obtain ⟨hr', hs'⟩ := listFiles_of_below h.wellFormed' (h.at?_eq below ▸ hd) ha
  by_cases hlong : pathLimit ≤ Text.byteSize (FilePath.text ⟨.root, top ++ below⟩)
  · rw [if_pos hlong] at hs hs'
    have hfailed := listFiles_of_fault hr hs
    refine ⟨fun _ => hfailed.trans (listFiles_of_fault hr' hs').symm, fun hok _ => ?_⟩
    nomatch (congrArg ToolResult.error hfailed).symm.trans hok
  · rw [if_neg hlong] at hs hs'
    constructor
    · exact fun hl => listFiles_congr hr hr' hs hs' (look_eq_of_links h hd hl)
    · intro hok he name target hm
      exact look_eq_of_listFiles_eq hr hr' hs hs' hok he name
        (List.mem_mergeSort.mpr (List.mem_map_of_mem hm))

end Outside
end Worlds

/-! ### A link out of the workspace -/

def outwardEntries : Entries := [("x", .link "../out")]

/-- A workspace with a link out of it, and what else there is. -/
def outwardWorld (outside : Entries) : Node := .directory (("ws", .directory outwardEntries) :: outside)

/-- The outside does not hold what the link leads to, or holds a directory there. -/
theorem sameInside_outwardWorld :
    SameInside (outwardWorld []) (outwardWorld [("out", .directory [])]) ["ws"] :=
  ⟨by decide +kernel, by decide +kernel, _, rfl, rfl⟩

theorem listFiles_eq_of_links_outwardWorld :
    let tree := outwardWorld []
    let tree' := outwardWorld [("out", .directory [])]
    SameInside tree tree' ["ws"] ∧ tree.at? (["ws"] ++ []) = some (.directory outwardEntries) ∧
      FilePath.ofText (Text.strip ".") = ⟨.here, []⟩ ∧
      let same := ∀ name target, (name, .link target) ∈ outwardEntries →
        look tree (["ws"] ++ []) name = look tree' (["ws"] ++ []) name
      let result := listFiles ⟨some ⟨.root, ["ws"]⟩⟩ tree "."
      let result' := listFiles ⟨some ⟨.root, ["ws"]⟩⟩ tree' "."
      (same → result = result') ∧ (result.error = none → result = result' → same) := by
  intro tree tree'
  have hd : tree.at? (["ws"] ++ []) = some (.directory outwardEntries) := rfl
  have ha : FilePath.ofText (Text.strip ".") = ⟨.here, []⟩ := by decide +kernel
  exact ⟨sameInside_outwardWorld, hd, ha, listFiles_eq_of_links sameInside_outwardWorld hd ha⟩

/-- The listing shows which of the two it is. -/
theorem not_listFiles_eq_outwardWorld :
    ¬ ∀ (tree tree' : Node) (top below : List String) (entries : Entries) (argument : String),
      SameInside tree tree' top → tree.at? (top ++ below) = some (.directory entries) →
        FilePath.ofText (Text.strip argument) = ⟨.here, below⟩ →
          listFiles ⟨some ⟨.root, top⟩⟩ tree argument = listFiles ⟨some ⟨.root, top⟩⟩ tree' argument := by
  intro hall
  have hd : (outwardWorld []).at? (["ws"] ++ []) = some (.directory outwardEntries) := rfl
  have hd' : (outwardWorld [("out", .directory [])]).at? (["ws"] ++ []) =
      some (.directory outwardEntries) := rfl
  have ha : FilePath.ofText (Text.strip ".") = ⟨.here, []⟩ := by decide +kernel
  have hlook : look (outwardWorld []) (["ws"] ++ []) "x" = .ok false := by decide +kernel
  have hlook' : look (outwardWorld [("out", .directory [])]) (["ws"] ++ []) "x" = .ok true := by
    decide +kernel
  obtain ⟨hr, hs⟩ := listFiles_of_below sameInside_outwardWorld.wellFormed hd ha
  obtain ⟨hr', hs'⟩ := listFiles_of_below sameInside_outwardWorld.wellFormed' hd' ha
  have hshort : ¬ pathLimit ≤ Text.byteSize (FilePath.text ⟨.root, ["ws"] ++ []⟩) := by decide +kernel
  rw [if_neg hshort] at hs hs'
  have hok : (listFiles ⟨some ⟨.root, ["ws"]⟩⟩ (outwardWorld []) ".").error = none := by
    refine (listFiles_error_iff hr hs (List.cons_ne_nil _ _)).mpr fun entry hm ho => ?_
    rw [List.mem_singleton.mp hm] at ho
    have hfails := isDirectoryAt_eq_error_iff.mpr ⟨ho, rfl⟩
    exact absurd (hlook.symm.trans hfails) (by simp)
  have hsame := look_eq_of_listFiles_eq hr hr' hs hs' hok
    (hall _ _ _ _ _ _ sameInside_outwardWorld hd ha) "x"
    (List.mem_mergeSort.mpr (List.mem_map_of_mem List.mem_cons_self))
  exact absurd (hlook.symm.trans (hsame.trans hlook')) (by decide)

end PlanAssistant.Tools
