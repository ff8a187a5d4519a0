import PlanAssistant.Proofs.Files.Inventory
import PlanAssistant.Proofs.Tools.SkippedNames

/-!
What a search of a workspace without links finds.  Within its budgets it looks through every file outside
the directories that are passed over, with two exceptions: the names that keep it out of directories keep
it away from files too, and it cannot open a file by a path that is too long.  Matching lines in such
files are lost, and no others.
-/
namespace PlanAssistant.Tools

open Files Traversal

section Coverage

variable [Interpreter]

/-- The matches in a file with a content. -/
def Query.matchesOf (query : Query) (file : FilePath × ByteArray) : List Match :=
  ((Text.splitNewlines (contentText file.2)).zipIdx 1).filterMap fun (line, number) =>
    if query.accepts line then some ⟨file.1, number, line⟩ else none

/-- The files that are to be searched from a directory on: those outside the directories that are passed
over, unless they are too large. -/
def searchable (start : FilePath) (home : Node) : List (FilePath × ByteArray) :=
  ((home.filesOutside skippedNames).filter fun file => file.2.size ≤ largestFile).map fun file =>
    (⟨start.anchor, start.names ++ file.1⟩, file.2)

/-- The file has no name that is passed over, and a path that is not too long. -/
def Openable (path : FilePath) : Prop :=
  path.name ∉ skippedNames ∧ Text.byteSize path.text < pathLimit

instance : DecidablePred Openable := fun path =>
  inferInstanceAs (Decidable (path.name ∉ skippedNames ∧ Text.byteSize path.text < pathLimit))

/-! ### Workspaces without links -/

/-- In a well-formed tree there is something at the place, and no link below it. -/
structure LinkFree (tree : Node) (top : List String) : Prop where
  wellFormed : tree.wellFormed = true
  unlinked : ∃ home, tree.at? top = some home ∧ home.linkCount = 0

namespace LinkFree

variable {tree node : Node} {top place : List String} {entries : Entries} {query : Query}
  {path : FilePath}

theorem straight (h : LinkFree tree top) (ht : top <+: place) (hn : tree.at? place = some node) :
    Straight tree place :=
  have ⟨_, hhome, hl⟩ := h.unlinked
  straight_below hhome hl ht fun name hm =>
    have hname := (wellFormed_at? h.wellFormed hn).2 name hm
    ⟨hname.1.1.1, hname.1.2⟩

theorem status_eq (h : LinkFree tree top) (ht : top <+: place) (hn : tree.at? place = some node) :
    status tree ⟨.root, place⟩ =
      if pathLimit ≤ Text.byteSize (FilePath.text ⟨.root, place⟩) then .error .nameTooLong
      else .ok node :=
  (h.straight ht hn).status_eq (fun name hm => ((wellFormed_at? h.wellFormed hn).2 name hm).2.2) hn .root

theorem resolve_eq (h : LinkFree tree top) (ht : top <+: place) (hn : tree.at? place = some node) :
    resolve tree ⟨.root, place⟩ = .ok ⟨.root, place⟩ := by
  have hnames := (wellFormed_at? h.wellFormed hn).2
  exact (h.straight ht hn).resolve_eq (fun name hm => (hnames name hm).2.2)
    (FilePath.refusal?_eq_none_iff.mpr fun name hm => (hnames name hm).2.1) hn

/-- A directory leads on to its entries at their own places. -/
theorem mem_entered_iff (h : LinkFree tree top) (ht : top <+: place)
    (hd : tree.at? place = some (.directory entries))
    (hs : Text.byteSize (FilePath.text ⟨.root, place⟩) < pathLimit) :
    path ∈ Search.Setting.entered ⟨⟨some ⟨.root, top⟩⟩, tree, query⟩ ⟨.root, place⟩ ↔
      ∃ entry ∈ entries, entry.1 ∉ skippedNames ∧ path = ⟨.root, place ++ [entry.1]⟩ := by
  have hkept : ∀ entry ∈ entries,
      (resolve tree ⟨.root, place ++ [entry.1]⟩).toOption.filter
        (Workspace.contains ⟨some ⟨.root, top⟩⟩) = some ⟨.root, place ++ [entry.1]⟩ := by
    intro entry hm
    have hentries := (wellFormed_at? h.wellFormed hd).1
    have hat : tree.at? (place ++ [entry.1]) = some entry.2 := by
      rw [Node.at?_concat hd]
      exact (lookup_eq_some_iff hentries).mpr hm
    have hbelow : top <+: place ++ [entry.1] := ht.trans (List.prefix_append _ _)
    have hwithin : FilePath.isWithin ⟨.root, place ++ [entry.1]⟩ ⟨.root, top⟩ = true :=
      FilePath.isWithin_iff.mpr ⟨rfl, hbelow⟩
    rw [h.resolve_eq hbelow hat]
    simp [Except.toOption, Option.filter, Workspace.contains, hwithin]
  rw [Search.Setting.entered, h.status_eq ht hd, if_neg (by omega)]
  simp only [List.mem_filterMap, List.mem_filter, sortedNames, List.mem_mergeSort, List.mem_map,
    Bool.not_eq_true', ← Bool.not_eq_true, List.contains_iff_mem]
  constructor
  · rintro ⟨_, ⟨⟨entry, hm, rfl⟩, hname⟩, hpath⟩
    exact ⟨entry, hm, hname, (Option.some.inj ((hkept entry hm).symm.trans hpath)).symm⟩
  · rintro ⟨entry, hm, hname, rfl⟩
    exact ⟨_, ⟨⟨entry, hm, rfl⟩, hname⟩, hkept entry hm⟩

end LinkFree

/-! ### Files that are opened -/

section Opened

variable {tree home : Node} {top base : List String} {query : Query} {path : FilePath}
  {content : ByteArray} {order : List FilePath}

/-- From a directory a search gets down to what lies below it, by names that are not passed over. -/
theorem exists_of_reached (h : LinkFree tree top) (ht : top <+: base) (hd : tree.at? base = some home)
    (hr : Search.Reached ⟨⟨some ⟨.root, top⟩⟩, tree, query⟩ ⟨.root, base⟩ path) :
    ∃ below node, path = ⟨.root, base ++ below⟩ ∧ home.at? below = some node ∧
      ∀ name ∈ below, name ∉ skippedNames := by
  induction hr with
  | start => exact ⟨[], home, by rw [List.append_nil], rfl, by simp⟩
  | @entry directory path reached next ih =>
    obtain ⟨below, node, rfl, hn, hnames⟩ := ih
    have hbelow : top <+: base ++ below := ht.trans (List.prefix_append _ _)
    have hat : tree.at? (base ++ below) = some node := by rw [Node.at?_append, hd]; exact hn
    obtain ⟨place, entries, name, hw, -⟩ := Search.exists_of_mem_entered next
    have hs : Text.byteSize (FilePath.text ⟨.root, base ++ below⟩) < pathLimit := by
      unfold walk at hw
      split at hw
      · contradiction
      · omega
    obtain rfl := (h.straight hbelow hat).eq_of_walk hw
    obtain rfl := Option.some.inj (hat.symm.trans (at?_of_walk hw))
    obtain ⟨entry, hm, hname, rfl⟩ := (h.mem_entered_iff hbelow hat hs).mp next
    refine ⟨below ++ [entry.1], entry.2, by rw [List.append_assoc], ?_, ?_⟩
    · rw [Node.at?_concat hn]
      exact (lookup_eq_some_iff (wellFormed_at? h.wellFormed hat).1).mpr hm
    · exact List.forall_mem_append.mpr ⟨hnames, by simpa using hname⟩

/-- It gets to all of it, as far as paths are not too long. -/
theorem mem_order_of_at? (h : LinkFree tree top) (ht : top <+: base) (hd : tree.at? base = some home)
    (ho : IsBreadthFirst (Search.Setting.entered ⟨⟨some ⟨.root, top⟩⟩, tree, query⟩) ⟨.root, base⟩ order)
    {below : List String} {node : Node} (hn : home.at? below = some node)
    (hnames : ∀ name ∈ below, name ∉ skippedNames)
    (hs : Text.byteSize (FilePath.text ⟨.root, base ++ below⟩) < pathLimit) :
    ⟨.root, base ++ below⟩ ∈ order := by
  induction below using List.reverseRecOn generalizing node with
  | nil => exact ho.mem_iff.mpr (.inl (by rw [List.append_nil]))
  | append_singleton below name ih =>
    obtain ⟨parent, hparent, hlast⟩ := Option.bind_eq_some_iff.mp (Node.at?_append home below _ ▸ hn)
    obtain ⟨child, hchild, -⟩ := Option.bind_eq_some_iff.mp hlast
    obtain ⟨hbefore, hname⟩ := List.forall_mem_append.mp hnames
    have hpart : base ++ below <+: base ++ (below ++ [name]) :=
      ⟨[name], List.append_assoc _ _ _⟩
    have hshort := Nat.lt_of_le_of_lt (byteSize_text_le hpart) hs
    cases parent with
    | file own => nomatch hchild
    | link target => nomatch hchild
    | directory entries =>
      have hat : tree.at? (base ++ below) = some (.directory entries) := by
        rw [Node.at?_append, hd]
        exact hparent
      have hm := (lookup_eq_some_iff (wellFormed_at? h.wellFormed hat).1).mp hchild
      refine ho.mem_iff.mpr (.inr ⟨_, ih hparent hbefore hshort, ?_⟩)
      exact (h.mem_entered_iff (ht.trans (List.prefix_append _ _)) hat hshort).mpr
        ⟨_, hm, hname name (List.mem_singleton_self name), by rw [List.append_assoc]⟩

theorem mem_searchable_iff (hw : home.wellFormed = true) {start : FilePath} :
    (path, content) ∈ searchable start home ↔ ∃ below, path = ⟨start.anchor, start.names ++ below⟩ ∧
      home.at? below = some (.file content) ∧ (∀ name ∈ below.dropLast, name ∉ skippedNames) ∧
        content.size ≤ largestFile := by
  simp only [searchable, List.mem_map, List.mem_filter, decide_eq_true_eq, Prod.exists, Prod.mk.injEq,
    mem_filesOutside hw]
  constructor
  · rintro ⟨below, _, ⟨⟨hat, hnames⟩, hsize⟩, rfl, rfl⟩
    exact ⟨below, rfl, hat, hnames, hsize⟩
  · rintro ⟨below, rfl, hat, hnames, hsize⟩
    exact ⟨below, content, ⟨⟨hat, hnames⟩, hsize⟩, rfl, rfl⟩

/-- Below a directory, the last name of a path that has no name passed over before it decides. -/
theorem openable_append_iff {below : List String} (hne : below ≠ [])
    (hnames : ∀ name ∈ below.dropLast, name ∉ skippedNames) :
    Openable ⟨.root, base ++ below⟩ ↔ (∀ name ∈ below, name ∉ skippedNames) ∧
      Text.byteSize (FilePath.text ⟨.root, base ++ below⟩) < pathLimit := by
  obtain ⟨inner, last, rfl⟩ := (List.eq_nil_or_concat below).resolve_left hne
  have hname : FilePath.name ⟨.root, base ++ inner.concat last⟩ = last := by simp [FilePath.name]
  have hinner : ∀ name ∈ inner, name ∉ skippedNames := by simpa using hnames
  rw [Openable, hname]
  refine and_congr_left fun _ => ⟨fun hlast => ?_, fun h => h last (by simp)⟩
  rw [List.concat_eq_append]
  exact List.forall_mem_append.mpr ⟨hinner, by simpa using hlast⟩

theorem isOpened_iff (h : LinkFree tree top) {place : List String} {node : Node} (ht : top <+: place)
    (hn : tree.at? place = some node) :
    Search.Setting.isOpened ⟨⟨some ⟨.root, top⟩⟩, tree, query⟩ ⟨.root, place⟩ = true ↔
      Text.byteSize (FilePath.text ⟨.root, place⟩) < pathLimit ∧
        ∃ content, node = .file content ∧ content.size ≤ largestFile := by
  rw [Search.Setting.isOpened, h.status_eq ht hn]
  by_cases hs : pathLimit ≤ Text.byteSize (FilePath.text ⟨.root, place⟩)
  · simp [hs]
  · rw [if_neg hs]
    cases node <;> simp [Nat.lt_of_not_le hs]

/-- A search from a directory opens the files that are to be searched and can be opened. -/
theorem mem_opened_iff (h : LinkFree tree top) (ht : top <+: base) {entries : Entries}
    (hd : tree.at? base = some (.directory entries))
    (ho : IsBreadthFirst (Search.Setting.entered ⟨⟨some ⟨.root, top⟩⟩, tree, query⟩) ⟨.root, base⟩ order) :
    path ∈ order.filter (Search.Setting.isOpened ⟨⟨some ⟨.root, top⟩⟩, tree, query⟩) ↔
      ∃ content, (path, content) ∈ searchable ⟨.root, base⟩ (.directory entries) ∧ Openable path := by
  have hw : (Node.directory entries).wellFormed = true := (wellFormed_at? h.wellFormed hd).1
  have hbelow : ∀ below, top <+: base ++ below := fun below => ht.trans (List.prefix_append _ _)
  have hat : ∀ below node, (Node.directory entries).at? below = some node →
      tree.at? (base ++ below) = some node := by
    intro below node hn
    rw [Node.at?_append, hd]
    exact hn
  -- the start is a directory, so a file lies properly below it
  have hne : ∀ below content, (Node.directory entries).at? below = some (.file content) → below ≠ [] := by
    rintro below content hn rfl
    nomatch Option.some.inj hn
  rw [List.mem_filter]
  constructor
  · rintro ⟨hm, hopened⟩
    obtain ⟨depth, hdepth⟩ := ho
    rw [← hdepth depth (Nat.le_refl depth)] at hm
    obtain ⟨below, node, rfl, hn, hnames⟩ :=
      exists_of_reached h ht hd (Search.reached_of_mem_firstLayers hm)
    obtain ⟨hs, content, rfl, hsize⟩ := (isOpened_iff h (hbelow below) (hat _ _ hn)).mp hopened
    have hbefore : ∀ name ∈ below.dropLast, name ∉ skippedNames :=
      fun name hname => hnames name (List.mem_of_mem_dropLast hname)
    exact ⟨content, (mem_searchable_iff hw).mpr ⟨below, rfl, hn, hbefore, hsize⟩,
      (openable_append_iff (hne _ _ hn) hbefore).mpr ⟨hnames, hs⟩⟩
  · rintro ⟨content, hm, hopenable⟩
    obtain ⟨below, rfl, hn, hbefore, hsize⟩ := (mem_searchable_iff hw).mp hm
    obtain ⟨hnames, hs⟩ := (openable_append_iff (hne _ _ hn) hbefore).mp hopenable
    exact ⟨mem_order_of_at? h ht hd ho hn hnames hs,
      (isOpened_iff h (hbelow below) (hat _ _ hn)).mpr ⟨hs, content, rfl, hsize⟩⟩

end Opened

/-! ### Matches that are found -/

omit [Interpreter] in
/-- Leaving out members changes nothing exactly when nothing comes of the members left out. -/
theorem flatMap_filter_perm_iff {α β : Type} {f : α → List β} {p : α → Prop} [DecidablePred p]
    (l : List α) :
    ((l.filter p).flatMap f).Perm (l.flatMap f) ↔ ∀ a ∈ l, f a ≠ [] → p a := by
  have hsplit : ((l.filter p).flatMap f ++ (l.filter fun a => !decide (p a)).flatMap f).Perm
      (l.flatMap f) := by
    rw [← List.flatMap_append]
    exact (List.filter_append_perm _ l).flatMap_right f
  have hrest : (l.filter fun a => !decide (p a)).flatMap f = [] ↔ ∀ a ∈ l, f a ≠ [] → p a := by
    rw [List.flatMap_eq_nil_iff]
    simp only [List.mem_filter, Bool.not_eq_true', decide_eq_false_iff_not, and_imp]
    exact forall₂_congr fun a _ => ⟨fun h hf => by_contra fun hp => hf (h hp),
      fun h hp => by_contra fun hf => hp (h hf)⟩
  rw [← hrest]
  constructor
  · intro h
    have hlen := h.length_eq
    rw [← hsplit.length_eq, List.length_append] at hlen
    exact List.eq_nil_of_length_eq_zero (by omega)
  · intro h
    rw [h, List.append_nil] at hsplit
    exact hsplit

section Found

variable {tree : Node} {top base : List String} {entries : Entries} {query : Query}

theorem nodup_searchable {home : Node} (hw : home.wellFormed = true) (start : FilePath) :
    ((searchable start home).map (·.1)).Nodup := by
  have hplaces : (((home.filesOutside skippedNames).filter fun file =>
      file.2.size ≤ largestFile).map (·.1)).Nodup :=
    (nodup_filesOutside skippedNames home hw).sublist (List.filter_sublist.map _)
  have hpath : Function.Injective fun place => (⟨start.anchor, start.names ++ place⟩ : FilePath) :=
    fun place other h => List.append_cancel_left (FilePath.mk.inj h).2
  have hall := hplaces.map hpath
  rw [List.map_map] at hall
  rw [searchable, List.map_map]
  exact hall

/-- What a search looks for in a file it opens are the matches in the content. -/
theorem matchesIn_of_mem_searchable (h : LinkFree tree top) (ht : top <+: base)
    (hd : tree.at? base = some (.directory entries)) {file : FilePath × ByteArray}
    (hm : file ∈ searchable ⟨.root, base⟩ (.directory entries)) (ho : Openable file.1) :
    Search.Setting.matchesIn ⟨⟨some ⟨.root, top⟩⟩, tree, query⟩ file.1 = query.matchesOf file := by
  obtain ⟨path, content⟩ := file
  obtain ⟨below, rfl, hn, -⟩ := (mem_searchable_iff (wellFormed_at? h.wellFormed hd).1).mp hm
  have hat : tree.at? (base ++ below) = some (.file content) := by
    rw [Node.at?_append, hd]
    exact hn
  rw [Search.Setting.matchesIn, h.status_eq (ht.trans (List.prefix_append _ _)) hat,
    if_neg (Nat.not_le.mpr ho.2)]
  rfl

/-- Within its budgets a search finds the matches in the files that are to be searched and can be opened,
each once. -/
theorem found_perm (h : LinkFree tree top) (ht : top <+: base)
    (hd : tree.at? base = some (.directory entries))
    (few : (searchable ⟨.root, base⟩ (.directory entries)).length ≤ fileBudget)
    (rare : ((searchable ⟨.root, base⟩ (.directory entries)).flatMap query.matchesOf).length ≤ lineBudget) :
    (Search.run ⟨⟨some ⟨.root, top⟩⟩, tree, query⟩ ⟨.root, base⟩).found.Perm
      (((searchable ⟨.root, base⟩ (.directory entries)).filter fun file => Openable file.1).flatMap
        query.matchesOf) := by
  let setting : Search.Setting := ⟨⟨some ⟨.root, top⟩⟩, tree, query⟩
  let files := searchable ⟨.root, base⟩ (.directory entries)
  let kept := files.filter fun file => Openable file.1
  obtain ⟨order, ho⟩ := Search.exists_order setting ⟨.root, base⟩
  have hsub : kept.Sublist files := List.filter_sublist
  have hopened : (order.filter setting.isOpened).Perm (kept.map (·.1)) := by
    have hnodup : (kept.map (·.1)).Nodup :=
      (nodup_searchable (wellFormed_at? h.wellFormed hd).1 _).sublist (hsub.map _)
    refine (List.perm_ext_iff_of_nodup (ho.nodup.filter _) hnodup).mpr fun path => ?_
    rw [mem_opened_iff h ht hd ho]
    simp [kept, files]
  have hmatches : (kept.map (·.1)).flatMap setting.matchesIn = kept.flatMap query.matchesOf := by
    rw [List.flatMap_map]
    refine List.flatMap_congr fun file hm => ?_
    obtain ⟨hfile, hopenable⟩ := List.mem_filter.mp hm
    exact matchesIn_of_mem_searchable h ht hd hfile (by simpa using hopenable)
  have hfound : ((order.filter setting.isOpened).flatMap setting.matchesIn).Perm
      (kept.flatMap query.matchesOf) := hmatches ▸ hopened.flatMap_right setting.matchesIn
  have hfiles : (order.filter setting.isOpened).length ≤ fileBudget := by
    rw [hopened.length_eq, List.length_map]
    exact hsub.length_le.trans few
  have hlines : ((order.filter setting.isOpened).flatMap setting.matchesIn).length ≤ lineBudget := by
    rw [hfound.length_eq]
    exact (hsub.flatMap query.matchesOf).length_le.trans rare
  rw [Search.found_run setting ho, Search.Setting.reported, List.take_of_length_le hfiles,
    List.take_of_length_le hlines]
  exact hfound

end Found

/-- A search of a workspace without links, within its budgets, finds the matches in the files that can be
opened, each once and no others.  So it loses no match exactly when every file with one can be opened. -/
theorem found_perm_searchable_iff {tree : Node} {top : List String} {argument : String}
    {start : FilePath} {entries : Entries} (h : LinkFree tree top)
    (hs : searchStart? ⟨some ⟨.root, top⟩⟩ tree argument = some start)
    (hd : tree.at? start.names = some (.directory entries)) (query : Query)
    (few : (searchable start (.directory entries)).length ≤ fileBudget)
    (rare : ((searchable start (.directory entries)).flatMap query.matchesOf).length ≤ lineBudget) :
    let found := (Search.run ⟨⟨some ⟨.root, top⟩⟩, tree, query⟩ start).found
    let files := searchable start (.directory entries)
    found.Perm ((files.filter fun file => Openable file.1).flatMap query.matchesOf) ∧
      (found.Perm (files.flatMap query.matchesOf) ↔
        ∀ file ∈ files, query.matchesOf file ≠ [] → Openable file.1) := by
  intro found files
  obtain ⟨-, hr, hc⟩ := Workspace.resolve?_eq_some hs
  obtain ⟨ha, ht⟩ := FilePath.isWithin_iff.mp hc
  obtain ⟨anchor, base⟩ := start
  obtain rfl : anchor = .root := ha
  have hfound := found_perm h ht hd few rare
  exact ⟨hfound, (hfound.congr_left _).trans (flatMap_filter_perm_iff files)⟩

end Coverage

/-! ### A file with the name of a directory that is passed over -/

/-- A file with a name that is passed over, a directory with another, and a file in neither. -/
def misnamedEntries : Entries :=
  [("build", .file "needle".toUTF8), ("dist", .directory [("log.txt", .file "needle".toUTF8)]),
    ("notes.txt", .file "one\na needle".toUTF8)]

def misnamedTree : Node := .directory [("ws", .directory misnamedEntries)]

theorem linkFree_misnamedTree : LinkFree misnamedTree ["ws"] := ⟨by decide +kernel, _, rfl, rfl⟩

/-- Two files are to be searched, and both hold the word. -/
theorem exists_query_needle : ∃ query, Query.ofText (splitArgument "needle").1 = .ok query ∧
    query.matchesOf (⟨.root, ["ws", "build"]⟩, "needle".toUTF8) ≠ [] ∧
      ((searchable ⟨.root, ["ws"]⟩ (.directory misnamedEntries)).flatMap query.matchesOf).length = 2 := by
  refine ⟨_, rfl, ?_, ?_⟩
  · decide +kernel
  · decide +kernel

theorem found_perm_searchable_iff_misnamedTree :
    let workspace : Workspace := ⟨some ⟨.root, ["ws"]⟩⟩
    let start : FilePath := ⟨.root, ["ws"]⟩
    let files := searchable start (.directory misnamedEntries)
    LinkFree misnamedTree ["ws"] ∧ searchStart? workspace misnamedTree "needle" = some start ∧
      misnamedTree.at? start.names = some (.directory misnamedEntries) ∧ files.length ≤ fileBudget ∧
      ∃ query, Query.ofText (splitArgument "needle").1 = .ok query ∧
        (files.flatMap query.matchesOf).length ≤ lineBudget ∧
        let found := (Search.run ⟨workspace, misnamedTree, query⟩ start).found
        found.Perm ((files.filter fun file => Openable file.1).flatMap query.matchesOf) ∧
          (found.Perm (files.flatMap query.matchesOf) ↔
            ∀ file ∈ files, query.matchesOf file ≠ [] → Openable file.1) := by
  intro workspace start files
  have hs : searchStart? workspace misnamedTree "needle" = some start := by decide +kernel
  have few : files.length ≤ fileBudget := by decide +kernel
  obtain ⟨query, hq, -, hcount⟩ := exists_query_needle
  have rare : (files.flatMap query.matchesOf).length ≤ lineBudget := hcount.trans_le (by decide)
  exact ⟨linkFree_misnamedTree, hs, rfl, few, query, hq, rare,
    found_perm_searchable_iff linkFree_misnamedTree hs rfl query few rare⟩

/-- The search does not look into the file. -/
theorem not_found_perm_searchable_misnamedTree :
    let workspace : Workspace := ⟨some ⟨.root, ["ws"]⟩⟩
    let start : FilePath := ⟨.root, ["ws"]⟩
    let files := searchable start (.directory misnamedEntries)
    LinkFree misnamedTree ["ws"] ∧ searchStart? workspace misnamedTree "needle" = some start ∧
      files.length ≤ fileBudget ∧
      ∃ query, Query.ofText (splitArgument "needle").1 = .ok query ∧
        (files.flatMap query.matchesOf).length < lineBudget ∧
        ¬ (Search.run ⟨workspace, misnamedTree, query⟩ start).found.Perm
          (files.flatMap query.matchesOf) := by
  intro workspace start files
  have few : files.length ≤ fileBudget := by decide +kernel
  obtain ⟨query, hq, hbuild, hcount⟩ := exists_query_needle
  have rare : (files.flatMap query.matchesOf).length < lineBudget := hcount.trans_lt (by decide)
  refine ⟨linkFree_misnamedTree, by decide +kernel, few, query, hq, rare, fun hall => ?_⟩
  have hfound := found_perm linkFree_misnamedTree (List.prefix_refl ["ws"]) rfl few (Nat.le_of_lt rare)
  have hopenable := (flatMap_filter_perm_iff files).mp (hfound.symm.trans hall) _ List.mem_cons_self hbuild
  exact absurd hopenable (by decide +kernel)

end PlanAssistant.Tools
