import PlanAssistant.Proofs.Files.LinkNames
import PlanAssistant.Proofs.Files.PathCount
import PlanAssistant.Proofs.Files.RelativeText
import PlanAssistant.Proofs.Text.Stripping
import PlanAssistant.Proofs.Tools.Listings
import PlanAssistant.Proofs.Tools.SkippedNames

/-!
Printed paths.  What a listing or a search prints of a path leads back to it: given to the workspace, the
text of an entry is resolved like the entry itself, and the text of a file that was searched to that very
file, as long as it has no blanks at its ends, which the workspace would take off.
-/
namespace PlanAssistant

open Files

namespace Files

mutual

theorem wellNamed_of_wellFormed [Interpreter] : ∀ node : Node, node.wellFormed = true → node.wellNamed = true
  | .file _, _ => rfl
  | .link _, _ => rfl
  | .directory entries, h => entriesWellNamed_of_wellFormed entries h

theorem entriesWellNamed_of_wellFormed [Interpreter] :
    ∀ entries : List (String × Node), entriesWellFormed entries = true → entriesWellNamed entries = true
  | [], _ => rfl
  | (name, node) :: rest, h => by
    obtain ⟨hnodup, hall⟩ := entriesWellFormed_iff.mp h
    obtain ⟨⟨hname, hnode⟩, hrest⟩ := List.forall_mem_cons.mp hall
    have hnames := (List.nodup_cons.mp hnodup).2
    have hslash : name.toList.contains '/' = false := by simpa using hname.1.1.2
    rw [entriesWellNamed, hname.1.1.1, hslash, wellNamed_of_wellFormed node hnode,
      entriesWellNamed_of_wellFormed rest (entriesWellFormed_iff.mpr ⟨hnames, hrest⟩)]
    rfl

end

end Files

namespace Tools

/-! ### Texts without blanks at their ends -/

/-- Neither end of a text is blank. -/
def Unpadded (text : String) : Prop := Text.Bare Text.isBlank text.toList

theorem Unpadded.strip_eq {text : String} (h : Unpadded text) : Text.strip text = text := by
  rw [Text.strip, Text.stripWhile_of_bare h, String.ofList_toList]

section Back

variable [Interpreter]

/-- Given to the workspace, the text leads where the path does. -/
def LeadsTo (workspace : Workspace) (tree : Node) (text : String) (path : FilePath) : Prop :=
  Unpadded text →
    workspace.resolve? tree text = (resolve tree path).toOption.filter workspace.contains

/-! ### Entries of a directory -/

section Entries

variable {tree : Node} {base argument : String} {directory real : FilePath} {entries : Entries}

theorem isReal_of_resolve? (h : Workspace.resolve? ⟨some (.ofText base)⟩ tree argument = some real) :
    Search.IsReal tree real ∧ real.isWithin (.ofText base) = true := by
  obtain ⟨text, hr, hi⟩ := Workspace.resolve?_eq_some h
  exact ⟨⟨_, nameable_join_ofText (nameable_ofText base) text, hr⟩, hi⟩

/-- From the root on, a real path within it is printed by its names there, which are proper. -/
theorem exists_below_of_isReal {root : FilePath} (h : Search.IsReal tree real)
    (hi : real.isWithin root = true) : ∃ below, (∀ name ∈ below, Nameable name) ∧
      real = ⟨root.anchor, root.names ++ below⟩ ∧
      real.relativeText root = FilePath.text ⟨.here, below⟩ := by
  obtain ⟨asked, hn, hr⟩ := h
  obtain ⟨below, hreal, hrelative⟩ := FilePath.relativeText_eq hi
  refine ⟨below, fun name hm => (nameable_resolve hn hr name ?_).1.1, hreal, hrelative⟩
  rw [hreal]
  exact List.mem_append_right _ hm

/-- What is printed of an entry leads to the entry, with a slash after it or without. -/
theorem leadsTo_entry (hd : Workspace.resolve? ⟨some (.ofText base)⟩ tree argument = some directory)
    {name below : String} (hn : (FilePath.ofText below).names = [name]) :
    LeadsTo ⟨some (.ofText base)⟩ tree (entryText (directory.relativeText (.ofText base)) below)
      (directory.child name) := by
  intro hu
  obtain ⟨hreal, hi⟩ := isReal_of_resolve? hd
  obtain ⟨names, hnames, hdirectory, hrelative⟩ := exists_below_of_isReal hreal hi
  have hread := ofText_text_here_append hnames below
  rw [hn, ← hrelative] at hread
  have hchild : directory.child name =
      ⟨(FilePath.ofText base).anchor, (FilePath.ofText base).names ++ (names ++ [name])⟩ := by
    rw [hdirectory, FilePath.child, List.append_assoc]
  rw [Workspace.resolve?_of_here hu.strip_eq hread, hchild]
  rfl

/-- The listing of a directory with entries: it succeeds exactly when one can look at all of them, and has
one line for each in order of their names; and whatever is printed of an entry leads to it. -/
structure ListsBack (tree : Node) (root : FilePath) (argument : String) (directory : FilePath)
    (entries : Entries) : Prop where
  succeeds_iff : (listFiles ⟨some root⟩ tree argument).error = none ↔
    ∀ entry ∈ entries, ¬ Overlong tree (directory.child entry.1)
  output : (listFiles ⟨some root⟩ tree argument).error = none → ∃ lines,
    List.Forall₂ (Shows tree directory (directory.relativeText root)) (sortedNames entries) lines ∧
      (listFiles ⟨some root⟩ tree argument).output = "\n".intercalate lines
  names : (sortedNames entries).Perm (entries.map (·.1))
  increasing : (sortedNames entries).Pairwise fun a b => Text.precedes a b = true
  leads : ∀ name ∈ sortedNames entries,
    LeadsTo ⟨some root⟩ tree (entryText (directory.relativeText root) name) (directory.child name) ∧
      LeadsTo ⟨some root⟩ tree (entryText (directory.relativeText root) name ++ "/")
        (directory.child name)

theorem listsBack (ht : tree.wellFormed = true)
    (hd : Workspace.resolve? ⟨some (.ofText base)⟩ tree argument = some directory)
    (hs : status tree directory = .ok (.directory entries)) (hne : entries ≠ []) :
    ListsBack tree (.ofText base) argument directory entries := by
  obtain ⟨place, hw⟩ := walk_of_status hs
  have hentries : entriesWellFormed entries = true := (wellFormed_at? ht (at?_of_walk hw)).1
  obtain ⟨hnodup, hordinary⟩ := entriesWellFormed_iff.mp hentries
  refine ⟨listFiles_error_iff hd hs hne, fun h => ?_, List.mergeSort_perm _ _,
    pairwise_sortedNames hnodup, fun name hm => ?_⟩
  · rw [listFiles_eq hd hs hne] at h ⊢
    cases hl : entryLines tree directory (directory.relativeText (.ofText base)) (sortedNames entries) with
    | ok lines => exact ⟨lines, entryLines_eq_ok_iff.mp hl, rfl⟩
    | error e =>
      rw [hl] at h
      nomatch h
  · obtain ⟨entry, hentry, rfl⟩ := List.mem_map.mp (List.mem_mergeSort.mp hm)
    have hname : Nameable entry.1 := (hordinary entry hentry).1.1.1
    refine ⟨leadsTo_entry hd (by rw [ofText_of_nameable hname]), ?_⟩
    have hslash := leadsTo_entry hd (names_ofText_slash hname)
    rwa [entryText, ← String.append_assoc] at hslash

end Entries

/-! ### Files that were searched -/

section Files

variable {tree : Node} {base argument : String} {real start : FilePath} {result : ToolResult}

/-- Without loops a real path is its own real path. -/
theorem resolve_of_isReal (hl : ¬ Loops tree) (h : Search.IsReal tree real) :
    resolve tree real = .ok real := by
  obtain ⟨ha, hc⟩ := h.clean hl
  obtain ⟨asked, hn, hr⟩ := h
  have hown : real = ⟨.root, real.names⟩ := by rw [← ha]
  obtain ⟨-, -, -, hz, hlinks⟩ := resolution_of_resolve hr
  rw [resolve, resolution_of_taken hc hz]
  dsimp only
  rw [← hown, hz]
  dsimp only
  split
  · next hloop => exact absurd hloop hlinks
  · rfl

/-- The line of a match stands in the file it names, at its number. -/
def Match.ReadFrom (tree : Node) (found : Match) : Prop :=
  ∃ content, status tree found.file = .ok (.file content) ∧
    (found.line, found.number) ∈ (Text.splitNewlines (contentText content)).zipIdx 1

theorem mem_reported {setting : Search.Setting} {order : List FilePath} {found : Match}
    (h : found ∈ setting.reported order) : found.file ∈ order ∧ found.ReadFrom setting.tree := by
  obtain ⟨path, hpath, hm⟩ := List.mem_flatMap.mp (List.mem_of_mem_take h)
  have horder := (List.mem_filter.mp (List.mem_of_mem_take hpath)).1
  unfold Search.Setting.matchesIn at hm
  split at hm
  · next content hs =>
    obtain ⟨⟨line, number⟩, hline, hmatch⟩ := List.mem_filterMap.mp hm
    dsimp only at hmatch
    split at hmatch
    · obtain rfl := Option.some.inj hmatch
      exact ⟨horder, content, hs, hline⟩
    · contradiction
  · exact absurd hm List.not_mem_nil

theorem contains_of_reached {setting : Search.Setting} {path : FilePath}
    (hs : setting.workspace.contains start = true) (h : Search.Reached setting start path) :
    setting.workspace.contains path = true := by
  cases h with
  | start => exact hs
  | entry _ next =>
    obtain ⟨-, -, -, -, -, -, -, hc⟩ := Search.exists_of_mem_entered next
    exact hc

/-- A search that gives an output reports lines, each from a file that is its own real path, and what is
printed of the file leads to it. -/
def FindsBack (tree : Node) (root : FilePath) (result : ToolResult) : Prop :=
  ∃ found : List Match, result.output = combined (found.map (·.text root)) ∧
    ∀ m ∈ found, m.ReadFrom tree ∧ resolve tree m.file = .ok m.file ∧
      (Unpadded (m.file.relativeText root) →
        Workspace.resolve? ⟨some root⟩ tree (m.file.relativeText root) = some m.file)

theorem findsBack (ht : tree.wellFormed = true) (hl : ¬ Loops tree)
    (hr : searchText ⟨some (.ofText base)⟩ tree argument = .ok result) (he : result.error = none) :
    FindsBack tree (.ofText base) result := by
  by_cases hp : (splitArgument argument).1 = ""
  · rw [searchText_of_empty hp] at hr
    obtain rfl := Except.ok.inj hr
    nomatch he
  cases hs : searchStart? ⟨some (.ofText base)⟩ tree argument with
  | none =>
    rw [searchText_of_none hp hs] at hr
    obtain rfl := Except.ok.inj hr
    nomatch he
  | some start =>
    cases hq : Query.ofText (splitArgument argument).1 with
    | error fault =>
      rw [searchText_of_some hp hs, hq] at hr
      nomatch hr
    | ok query =>
      let setting : Search.Setting := ⟨⟨some (.ofText base)⟩, tree, query⟩
      obtain ⟨order, ho, -, hout⟩ := exists_reported hp hs hq
      have hresult : result = .ofOutput (combined ((setting.reported order).map (·.text (.ofText base)))) :=
        Except.ok.inj (hr.symm.trans hout)
      have hstart : Search.IsReal tree start := (isReal_of_resolve? hs).1
      have hi : setting.workspace.contains start = true := (isReal_of_resolve? hs).2
      refine ⟨setting.reported order, by rw [hresult]; rfl, fun m hm => ?_⟩
      obtain ⟨hmem, hread⟩ := mem_reported hm
      obtain ⟨depth, hdepth⟩ := ho
      rw [← hdepth depth (Nat.le_refl depth)] at hmem
      have hreached := Search.reached_of_mem_firstLayers hmem
      have hreal := hreached.isReal (wellNamed_of_wellFormed tree ht) hstart
      -- A searched file was entered over its real path, and that is its own real path as there are no loops.
      have hown := resolve_of_isReal hl hreal
      refine ⟨hread, hown, fun hu => ?_⟩
      have hcontains : setting.workspace.contains m.file = true := contains_of_reached hi hreached
      have hwithin : m.file.isWithin (.ofText base) = true := hcontains
      obtain ⟨names, hnames, hfile, hrelative⟩ := exists_below_of_isReal hreal hwithin
      have hback := ofText_text_here hnames
      rw [← hrelative] at hback
      rw [Workspace.resolve?_of_here hu.strip_eq hback, ← hfile, hown]
      simp [Except.toOption, Option.filter_some, hwithin]

end Files

/-- In a tree that a file system can hold, without loops of links, the paths that listings and searches
print lead back to what they were printed for. -/
theorem printed_lead_back {tree : Node} (ht : tree.wellFormed = true) (hl : ¬ Loops tree)
    (base : String) :
    (∀ argument directory entries,
      Workspace.resolve? ⟨some (.ofText base)⟩ tree argument = some directory →
        status tree directory = .ok (.directory entries) → entries ≠ [] →
          ListsBack tree (.ofText base) argument directory entries) ∧
      ∀ argument result, searchText ⟨some (.ofText base)⟩ tree argument = .ok result →
        result.error = none → FindsBack tree (.ofText base) result :=
  ⟨fun _ _ _ hd hs hne => listsBack ht hd hs hne, fun _ _ hr he => findsBack ht hl hr he⟩

end Back

/-- A listing below a link up, and a search that comes back over it. -/
theorem printed_lead_back_loopedTree :
    let entries : Entries := [("back", .link ".."), ("main.txt", .file "Two".toUTF8)]
    loopedTree.wellFormed = true ∧ ¬ Loops loopedTree ∧
      Workspace.resolve? ⟨some (.ofText "/ws")⟩ loopedTree "lib" = some ⟨.root, ["ws", "lib"]⟩ ∧
      status loopedTree ⟨.root, ["ws", "lib"]⟩ = .ok (.directory entries) ∧
      ListsBack loopedTree (.ofText "/ws") "lib" ⟨.root, ["ws", "lib"]⟩ entries ∧
      listFiles ⟨some (.ofText "/ws")⟩ loopedTree "lib" = .ofOutput "lib/back/\nlib/main.txt" ∧
      ∃ result, searchText ⟨some (.ofText "/ws")⟩ loopedTree "two | lib" = .ok result ∧
        result.error = none ∧ FindsBack loopedTree (.ofText "/ws") result ∧
        result.output = "lib/main.txt:1: Two\nnotes.txt:2: two" ∧
        Workspace.resolve? ⟨some (.ofText "/ws")⟩ loopedTree "notes.txt" =
          some ⟨.root, ["ws", "notes.txt"]⟩ := by
  intro entries
  have ht : loopedTree.wellFormed = true := by decide +kernel
  have hx : LinksApart loopedTree := by decide +kernel
  have hd : Workspace.resolve? ⟨some (.ofText "/ws")⟩ loopedTree "lib" = some ⟨.root, ["ws", "lib"]⟩ := by
    decide +kernel
  have hs : status loopedTree ⟨.root, ["ws", "lib"]⟩ = .ok (.directory entries) := by rfl
  have hlisted : listFiles ⟨some (.ofText "/ws")⟩ loopedTree "lib" = .ofOutput "lib/back/\nlib/main.txt" := by
    have hnames : sortedNames entries = ["back", "main.txt"] := List.mergeSort_of_pairwise (by decide)
    rw [listFiles_eq hd hs (List.cons_ne_nil _ _), hnames]
    decide +kernel
  obtain ⟨hlists, hfinds⟩ := printed_lead_back ht hx.not_loops "/ws"
  exact ⟨ht, hx.not_loops, hd, hs, hlists _ _ _ hd hs (List.cons_ne_nil _ _), hlisted, _,
    searchText_loopedTree, rfl, hfinds _ _ searchText_loopedTree rfl, rfl, by decide +kernel⟩

/-- One byte more than a name can have. -/
def longName : String := String.ofList (List.replicate 256 'a')

/-- A file, and a link whose target is too long. -/
def overlongEntries : Entries := [("b.txt", .file "b".toUTF8), ("x", .link longName)]

def overlongTree : Node := .directory [("ws", .directory overlongEntries)]

theorem toList_longName : longName.toList = List.replicate 256 'a' := String.toList_ofList

theorem pieces_longName : pieces longName = [longName] := by
  have hslash : '/' ∉ longName.toList := by
    rw [toList_longName]
    exact fun hm => absurd (List.eq_of_mem_replicate hm) (by decide)
  rw [pieces, splitOn_eq, List.splitOn_eq_singleton hslash, List.map_singleton, String.ofList_toList]

theorem longName_ne (text : String) (h : text.toList.length ≠ 256) : longName ≠ text := by
  rintro rfl
  rw [toList_longName, List.length_replicate] at h
  contradiction

theorem nameLimit_lt_longName : nameLimit < Text.byteSize longName := by
  have hl := length_nameDigits_le longName
  rw [nameDigits, List.length_map, toList_longName, List.length_replicate] at hl
  exact Nat.lt_of_lt_of_le (by decide) hl

theorem linksApart_overlongTree : LinksApart overlongTree := by
  have hne : "x" ≠ longName := (longName_ne _ (by decide)).symm
  have hlinks : overlongTree.links = [("x", longName)] := rfl
  intro link hm other ho
  rw [hlinks] at hm ho
  rw [List.mem_singleton.mp hm, List.mem_singleton.mp ho, pieces_longName, List.mem_singleton]
  exact hne

/-- The link leads to the name, which no directory is asked for. -/
theorem walkThrough_overlongTree (links : Nat) :
    walkThrough overlongTree true (links + 2) [] ["ws", "x"] = .error .nameTooLong := by
  have hroot : overlongTree.at? [] = some (.directory [("ws", .directory overlongEntries)]) := rfl
  have hhome : overlongTree.at? ["ws"] = some (.directory overlongEntries) := rfl
  have hws : lookup "ws" [("ws", .directory overlongEntries)] = some (.directory overlongEntries) := rfl
  have hx : lookup "x" overlongEntries = some (.link longName) := rfl
  have hstart : Text.startsWith longName "/" = false := by
    unfold Text.startsWith
    rw [toList_longName]
    rfl
  have hplain : isPlainName longName = true := by
    simp [isPlainName, longName_ne "" (by decide), longName_ne "." (by decide)]
  have hdots : longName ≠ ".." := longName_ne _ (by decide)
  have hlink : ∀ onLink,
      walkAlong overlongTree true onLink [] ["ws", "x"] = onLink ["ws"] [longName] := by
    intro onLink
    rw [walkAlong_name hroot (by decide) (by decide) (by decide), hws]
    dsimp only
    rw [List.nil_append, walkAlong_name hhome (by decide) (by decide) (by decide), hx]
    dsimp only
    rw [hstart, pieces_longName]
    rfl
  rw [walkThrough, hlink, walkThrough, walkAlong, hhome]
  simp [hplain, hdots, nameLimit_lt_longName]

theorem overlong_overlongTree : Overlong overlongTree ⟨.root, ["ws", "x"]⟩ := by
  have hshort : ¬ pathLimit ≤ Text.byteSize (FilePath.text ⟨.root, ["ws", "x"]⟩) := by decide +kernel
  have hwalk : walk overlongTree true ⟨.root, ["ws", "x"]⟩ =
      walkThrough overlongTree true (38 + 2) [] ["ws", "x"] := if_neg hshort
  exact overlong_of_walk (hwalk.trans (walkThrough_overlongTree 38))

/-- The link cannot be looked at, and there is no listing. -/
theorem not_listed_overlongTree :
    ¬ ∀ (tree : Node) (base argument : String) (directory : FilePath) (entries : Entries),
      tree.wellFormed = true → ¬ Loops tree →
        Workspace.resolve? ⟨some (.ofText base)⟩ tree argument = some directory →
          status tree directory = .ok (.directory entries) → entries ≠ [] →
            ∃ lines, List.Forall₂ (Lists (directory.relativeText (.ofText base)))
              (sortedNames entries) lines ∧
                listFiles ⟨some (.ofText base)⟩ tree argument = .ofOutput ("\n".intercalate lines) := by
  intro hall
  have ht : overlongTree.wellFormed = true := by decide +kernel
  have hd : Workspace.resolve? ⟨some (.ofText "/ws")⟩ overlongTree "." = some ⟨.root, ["ws"]⟩ := by
    decide +kernel
  have hs : status overlongTree ⟨.root, ["ws"]⟩ = .ok (.directory overlongEntries) := rfl
  have hne : overlongEntries ≠ [] := List.cons_ne_nil _ _
  obtain ⟨lines, -, hlisted⟩ := hall _ _ _ _ _ ht linksApart_overlongTree.not_loops hd hs hne
  have herror : (listFiles ⟨some (.ofText "/ws")⟩ overlongTree ".").error = none := by rw [hlisted]; rfl
  exact (listFiles_error_iff hd hs hne).mp herror _ (List.mem_cons_of_mem _ List.mem_cons_self)
    overlong_overlongTree

end Tools
end PlanAssistant
