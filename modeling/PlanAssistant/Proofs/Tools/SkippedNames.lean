import PlanAssistant.Proofs.Tools.SearchOrder

/-!
Where a search gets to.  A search passes over entries by their names, but goes on with their real paths.
So from where it starts, or from where a link leads it, it goes down by names that are not passed over;
and into a directory with a name that is, it gets only by a link with another name that leads there or
farther down.
-/
namespace PlanAssistant.Tools

open Files

section

variable [Interpreter]

namespace Search

/-- The place lies below `base`, in a directory with a name that searches pass over. -/
def Behind (base place : List String) : Prop :=
  ∃ below, place = base ++ below ∧ ∃ name ∈ below.dropLast, name ∈ skippedNames

/-- The paths that a search from `start` can get to. -/
inductive Reached (setting : Setting) (start : FilePath) : FilePath → Prop where
  | start : Reached setting start start
  | entry {directory path : FilePath} (reached : Reached setting start directory)
      (next : path ∈ setting.entered directory) : Reached setting start path

/-- An entry that is not passed over leads to another place than its own: the search has got to its
directory, and goes on at `target`, the place of its real path. -/
structure LeadsAway (setting : Setting) (start directory : FilePath) (name : String)
    (target : List String) : Prop where
  reached : Reached setting start directory
  kept : name ∉ skippedNames
  leads : ∃ real, resolve setting.tree (directory.child name) = .ok real ∧
    setting.workspace.contains real = true ∧ place? setting.tree real = some target
  away : ∃ place entries, walk setting.tree true directory = .ok (.found place (.directory entries)) ∧
    name ∈ entries.map (·.1) ∧ target ≠ place ++ [name]

section Routes

variable {setting : Setting} {start path : FilePath}

/-- What a path leads on to are real paths of entries that are not passed over. -/
theorem exists_of_mem_entered {directory : FilePath} (h : path ∈ setting.entered directory) :
    ∃ place entries name, walk setting.tree true directory = .ok (.found place (.directory entries)) ∧
      name ∈ entries.map (·.1) ∧ name ∉ skippedNames ∧
      resolve setting.tree (directory.child name) = .ok path ∧ setting.workspace.contains path = true := by
  unfold Setting.entered at h
  split at h
  · next entries hs =>
    obtain ⟨place, hw⟩ := walk_of_status hs
    obtain ⟨name, hname, hpath⟩ := List.mem_filterMap.mp h
    obtain ⟨hlisted, hkept⟩ := List.mem_filter.mp hname
    refine ⟨place, entries, name, hw, List.mem_mergeSort.mp hlisted, by simpa using hkept, ?_⟩
    cases hr : resolve setting.tree (directory.child name) with
    | error e => simp [hr, Except.toOption] at hpath
    | ok real =>
      simp only [hr, Except.toOption, Option.filter_eq_some_iff, Option.some.injEq] at hpath
      obtain ⟨rfl, hc⟩ := hpath
      exact ⟨rfl, hc⟩
  · exact absurd h List.not_mem_nil

/-- From where it starts, or from where an entry has led it away, a search goes down by names that are
not passed over. -/
theorem Reached.route (h : Reached setting start path) {place : List String}
    (hp : place? setting.tree path = some place) :
    ∃ base, place? setting.tree start = some base ∧ ∃ down, (∀ name ∈ down, name ∉ skippedNames) ∧
      (place = base ++ down ∨ ∃ directory name target,
        LeadsAway setting start directory name target ∧ place = target ++ down) := by
  induction h generalizing place with
  | start => exact ⟨place, hp, [], by simp, .inl (by simp)⟩
  | @entry directory path reached next ih =>
    obtain ⟨own, entries, name, hw, hlisted, hkept, hr, hc⟩ := exists_of_mem_entered next
    obtain ⟨base, hb, down, hdown, hroute⟩ := ih (place?_of_walk hw)
    refine ⟨base, hb, ?_⟩
    by_cases hown : place = own ++ [name]
    · refine ⟨down ++ [name], List.forall_mem_append.mpr ⟨hdown, by simpa using hkept⟩, ?_⟩
      rcases hroute with hbase | ⟨from_, entry, target, haway, htarget⟩
      · exact .inl (by rw [hown, hbase, List.append_assoc])
      · exact .inr ⟨from_, entry, target, haway, by rw [hown, htarget, List.append_assoc]⟩
    · exact ⟨[], by simp, .inr ⟨directory, name, place,
        ⟨reached, hkept, ⟨path, hr, hc, hp⟩, own, entries, hw, hlisted, hown⟩, by simp⟩⟩

theorem reached_of_mem_layer {depth : Nat} (h : path ∈ Traversal.layer setting.entered start depth) :
    Reached setting start path := by
  induction depth generalizing path with
  | zero =>
    obtain rfl := List.mem_singleton.mp h
    exact .start
  | succ depth ih =>
    obtain ⟨directory, hd, hnext⟩ := List.mem_flatMap.mp h
    exact .entry (ih hd) hnext

theorem reached_of_mem_firstLayers {depth : Nat}
    (h : path ∈ Traversal.firstLayers setting.entered start depth) : Reached setting start path := by
  rw [Traversal.firstLayers, List.mem_eraseDups] at h
  obtain ⟨length, -, hl⟩ := List.mem_flatMap.mp h
  exact reached_of_mem_layer hl

/-- A search opens files that it gets to. -/
theorem reached_of_mem_opened (h : path ∈ (run setting start).opened) :
    Reached setting start path ∧ ∃ place, place? setting.tree path = some place := by
  obtain ⟨popped, hf, -⟩ := advance_isOver (stepBound setting.tree) (follows_start setting start)
    (by rw [stepBound, List.length_nil]; omega)
  change path ∈ (advance setting (stepBound setting.tree) (Search.start start)).opened at h
  rw [hf.opened_eq] at h
  obtain ⟨hv, ho⟩ := List.mem_filter.mp h
  constructor
  · obtain ⟨depth, hdepth⟩ := hf.explored.reached
    exact reached_of_mem_firstLayers (hdepth.subset hv)
  · unfold Setting.isOpened at ho
    split at ho
    · next content hs =>
      obtain ⟨place, hw⟩ := walk_of_status hs
      exact ⟨place, place?_of_walk hw⟩
    · contradiction

end Routes

/-! ### Links on the way -/

section Links

variable {setting : Setting} {start directory path : FilePath} {name : String} {target : List String}

/-- The path is the real path of a path with proper names. -/
def IsReal (tree : Node) (path : FilePath) : Prop :=
  ∃ asked : FilePath, (∀ name ∈ asked.names, Nameable name) ∧ resolve tree asked = .ok path

/-- Without loops of links real paths are clean. -/
theorem IsReal.clean {tree : Node} (hl : ¬ Loops tree) (h : IsReal tree path) :
    path.anchor = .root ∧ Clean tree path.names := by
  obtain ⟨asked, hn, hr⟩ := h
  obtain ⟨resolved, hres, rfl, -⟩ := resolution_of_resolve hr
  have hs : resolved.settled = true :=
    (Bool.eq_false_or_eq_true resolved.settled).resolve_right fun hf => hl ⟨asked, resolved, hn, hres, hf⟩
  exact clean_resolution hres hs

/-- A search that starts at a real path gets to real paths only, by proper names. -/
theorem Reached.isReal (ht : setting.tree.wellNamed = true) (hs : IsReal setting.tree start)
    (h : Reached setting start path) : IsReal setting.tree path := by
  induction h with
  | start => exact hs
  | @entry directory path reached next ih =>
    obtain ⟨place, entries, name, hw, hlisted, -, hr, -⟩ := exists_of_mem_entered next
    obtain ⟨entry, hm, rfl⟩ := List.mem_map.mp hlisted
    obtain ⟨asked, hn, hasked⟩ := ih
    refine ⟨directory.child entry.1, List.forall_mem_append.mpr ⟨?_, ?_⟩, hr⟩
    · exact fun n hm => (nameable_resolve hn hasked n hm).1.1
    · simpa using (nameable_of_mem (wellNamed_at? ht (at?_of_walk hw)) entry hm).1

/-- Without loops of links, it is a link that leads away. -/
theorem LeadsAway.link (ht : setting.tree.wellNamed = true) (hs : IsReal setting.tree start)
    (hl : ¬ Loops setting.tree) (hd : name ≠ "..")
    (h : LeadsAway setting start directory name target) :
    ∃ text, linkTarget? setting.tree (directory.child name).names = some text := by
  obtain ⟨real, hr, -, hp⟩ := h.leads
  obtain ⟨place, entries, hw, hlisted, haway⟩ := h.away
  obtain ⟨ha, hc⟩ := (h.reached.isReal ht hs).clean hl
  have hplain : isPlainName name = true := by
    obtain ⟨entry, hm, rfl⟩ := List.mem_map.mp hlisted
    exact (nameable_of_mem (wellNamed_at? ht (at?_of_walk hw)) entry hm).1.1
  have hdirectory : directory = ⟨.root, directory.names⟩ := by rw [← ha]
  refine Option.ne_none_iff_exists'.mp fun hnone => haway ?_
  -- without a link there, the entry is its own real path
  have hchild : Clean setting.tree (directory.child name).names := hc.concat hplain hd hnone
  obtain ⟨resolved, hres, rfl, -⟩ := resolution_of_resolve hr
  obtain rfl := resolution_of_clean hchild hres
  obtain ⟨node, hwalk⟩ := walk_of_place? hp
  rw [hdirectory] at hw
  rw [(walk_clean hchild hwalk).1, (walk_clean hc hw).1]
  rfl

end Links

/-! ### Files in directories that are passed over -/

/-- An entry leads the search to a place below the place `top` it starts from, in or at a directory with a
name that is passed over, and from there it goes down by other names.  Where no links loop the entry is a
link; directories do not list two dots. -/
def LedBehind (setting : Setting) (start : FilePath) (top place : List String) : Prop :=
  ∃ (directory : FilePath) (name : String) (inner down : List String),
    LeadsAway setting start directory name (top ++ inner) ∧
      (¬ Loops setting.tree → name ≠ ".." →
        ∃ text, linkTarget? setting.tree (directory.child name).names = some text) ∧
      place = top ++ inner ++ down ∧ (∀ name ∈ down, name ∉ skippedNames) ∧
      ∃ skipped ∈ skippedNames, skipped ∈ inner ∧ (down = [] → skipped ∈ inner.dropLast)

section Behind

variable {setting : Setting} {start : FilePath} {top place : List String}

theorem LedBehind.behind (h : LedBehind setting start top place) : Behind top place := by
  obtain ⟨-, -, inner, down, -, -, rfl, -, skipped, hs, hin, hlast⟩ := h
  refine ⟨inner ++ down, by simp, skipped, ?_, hs⟩
  cases down with
  | nil => simpa using hlast rfl
  | cons name down =>
    rw [List.dropLast_append_of_ne_nil (List.cons_ne_nil _ _)]
    exact List.mem_append_left _ hin

omit [Interpreter] in
/-- Below a place that an entry led to, the names that are passed over come before it. -/
theorem exists_inner {target down : List String} (h : Behind top (target ++ down))
    (hd : ∀ name ∈ down, name ∉ skippedNames) :
    ∃ inner, target = top ++ inner ∧
      ∃ skipped ∈ skippedNames, skipped ∈ inner ∧ (down = [] → skipped ∈ inner.dropLast) := by
  obtain ⟨below, he, skipped, hm, hs⟩ := h
  have hdown : skipped ∉ down := fun hin => hd skipped hin hs
  rcases List.append_eq_append_iff.mp he with ⟨more, -, rfl⟩ | ⟨inner, rfl, rfl⟩
  · exact absurd (List.mem_append_right _ (List.mem_of_mem_dropLast hm)) hdown
  · refine ⟨inner, rfl, skipped, hs, ?_, ?_⟩
    · exact (List.mem_append.mp (List.mem_of_mem_dropLast hm)).resolve_right hdown
    · rintro rfl
      simpa using hm

/-- A search that starts at a real path opens a file behind such a directory exactly when an entry has led
it there. -/
theorem behind_iff_ledBehind (ht : setting.tree.wellNamed = true) (hs : IsReal setting.tree start)
    {file : FilePath} (hf : file ∈ (run setting start).opened) :
    ∃ top place, place? setting.tree start = some top ∧ place? setting.tree file = some place ∧
      (Behind top place ↔ LedBehind setting start top place) := by
  obtain ⟨hreached, place, hp⟩ := reached_of_mem_opened hf
  obtain ⟨top, htop, down, hdown, hroute⟩ := hreached.route hp
  refine ⟨top, place, htop, hp, fun hb => ?_, LedBehind.behind⟩
  rcases hroute with rfl | ⟨directory, name, target, haway, rfl⟩
  · -- the search has come down from where it started
    obtain ⟨below, he, skipped, hm, hskipped⟩ := hb
    obtain rfl := List.append_cancel_left he
    exact absurd hskipped (hdown skipped (List.mem_of_mem_dropLast hm))
  · obtain ⟨inner, rfl, hinner⟩ := exists_inner hb hdown
    exact ⟨directory, name, inner, down, haway, fun hl hd => haway.link ht hs hl hd, rfl, hdown, hinner⟩

end Behind
end Search

/-- A file that a search opens lies below the start in a directory with a name that is passed over exactly
when an entry with another name has led the search there: a link, if no links loop. -/
theorem behind_iff_of_mem_opened {tree : Node} {base argument : String} {start : FilePath}
    (ht : tree.wellNamed = true)
    (hs : searchStart? ⟨some (.ofText base)⟩ tree argument = some start) (query : Query) {file : FilePath}
    (hf : file ∈ (Search.run ⟨⟨some (.ofText base)⟩, tree, query⟩ start).opened) :
    ∃ top place, place? tree start = some top ∧ place? tree file = some place ∧
      (Search.Behind top place ↔
        Search.LedBehind ⟨⟨some (.ofText base)⟩, tree, query⟩ start top place) := by
  obtain ⟨text, hr, -⟩ := Workspace.resolve?_eq_some hs
  have hreal : Search.IsReal tree start := ⟨_, nameable_join_ofText (nameable_ofText base) text, hr⟩
  exact Search.behind_iff_ledBehind ht hreal hf

/-- With nothing left to visit a search is at its end. -/
theorem Search.advance_of_queue_eq_nil {setting : Search.Setting} {search : Search} (h : search.queue = [])
    (steps : Nat) : advance setting steps search = search := by
  cases steps with
  | zero => rfl
  | succ steps =>
    have hover : search.isOver = true := by simp [isOver, h]
    rw [advance, step, if_pos hover]

end

/-! ### A link to a directory that is passed over -/

/-- Two entries: a directory with a name that is passed over, and a link to it with another name. -/
def linkedEntries : Entries :=
  [("lib", .link "node_modules"), ("node_modules", .directory [("a.txt", .file "needle".toUTF8)])]

def linkedTree : Node := .directory [("ws", .directory linkedEntries)]

theorem status_linkedTree :
    status linkedTree ⟨.root, ["ws"]⟩ = .ok (.directory linkedEntries) ∧
      status linkedTree ⟨.root, ["ws", "node_modules"]⟩ =
        .ok (.directory [("a.txt", .file "needle".toUTF8)]) ∧
      status linkedTree ⟨.root, ["ws", "node_modules", "a.txt"]⟩ = .ok (.file "needle".toUTF8) :=
  ⟨by rfl, by rfl, by rfl⟩

/-- A search from the root of the workspace goes over the link and opens the file. -/
theorem opened_linkedTree (query : Query) :
    (Search.run ⟨⟨some (.ofText "/ws")⟩, linkedTree, query⟩ ⟨.root, ["ws"]⟩).opened =
      [⟨.root, ["ws", "node_modules", "a.txt"]⟩] := by
  let setting : Search.Setting := ⟨⟨some (.ofText "/ws")⟩, linkedTree, query⟩
  let top : FilePath := ⟨.root, ["ws"]⟩
  let inner : FilePath := ⟨.root, ["ws", "node_modules"]⟩
  let file : FilePath := ⟨.root, ["ws", "node_modules", "a.txt"]⟩
  have htop : status setting.tree top = .ok (.directory linkedEntries) := status_linkedTree.1
  have hinner : status setting.tree inner = .ok (.directory [("a.txt", .file "needle".toUTF8)]) :=
    status_linkedTree.2.1
  have hfile : status setting.tree file = .ok (.file "needle".toUTF8) := status_linkedTree.2.2
  have hlink : setting.entered top = [inner] := by
    have hnames : sortedNames linkedEntries = ["lib", "node_modules"] :=
      List.mergeSort_of_pairwise (by decide)
    simp only [Search.Setting.entered, htop, hnames, setting]
    decide +kernel
  have hdown : setting.entered inner = [file] := by
    have hnames : sortedNames [("a.txt", .file "needle".toUTF8)] = ["a.txt"] := List.mergeSort_singleton _
    simp only [Search.Setting.entered, hinner, hnames, setting]
    decide +kernel
  have hnone : setting.entered file = [] := by rw [Search.Setting.entered, hfile]
  have hpassed : setting.isOpened top = false ∧ setting.isOpened inner = false := by
    simp only [Search.Setting.isOpened, htop, hinner, and_self]
  have hopened : setting.isOpened file = true := by
    simp only [Search.Setting.isOpened, hfile]
    rfl
  -- three steps empty the queue, and there are at least that many
  obtain ⟨more, hsteps⟩ : ∃ more, Search.stepBound linkedTree = more + 3 := by
    have hbound : [top].length ≤ pathBound :=
      FilePath.length_le_pathBound (by simp) (by simp [top]; decide +kernel)
    have hsize : 1 ≤ linkedTree.size := by decide
    have hmul := Nat.mul_le_mul hbound hsize
    refine Nat.exists_eq_add_of_le' ?_
    rw [Search.stepBound]
    simp at hmul
    omega
  have hend : ∀ found, Search.advance setting more
      { queue := [], visited := [file, inner, top], opened := [file], found } =
        { queue := [], visited := [file, inner, top], opened := [file], found } :=
    fun found => Search.advance_of_queue_eq_nil rfl more
  have hapart : inner ≠ top ∧ file ≠ inner ∧ file ≠ top := by decide
  rw [Search.run, hsteps]
  change (Search.advance setting _ (Search.start top)).opened = _
  simp [Search.advance, Search.step, Search.visit_eq, Search.start, Search.isOver, fileBudget, lineBudget,
    hlink, hdown, hnone, hpassed, hopened, hapart, hend, file]

theorem behind_iff_of_mem_opened_linkedTree :
    let workspace : Workspace := ⟨some (.ofText "/ws")⟩
    let start : FilePath := ⟨.root, ["ws"]⟩
    let file : FilePath := ⟨.root, ["ws", "node_modules", "a.txt"]⟩
    linkedTree.wellNamed = true ∧ searchStart? workspace linkedTree "needle" = some start ∧
      ∃ query, Query.ofText (splitArgument "needle").1 = .ok query ∧
        file ∈ (Search.run ⟨workspace, linkedTree, query⟩ start).opened ∧
        ∃ top place, place? linkedTree start = some top ∧ place? linkedTree file = some place ∧
          (Search.Behind top place ↔
            Search.LedBehind ⟨workspace, linkedTree, query⟩ start top place) := by
  intro workspace start file
  have ht : linkedTree.wellNamed = true := by decide +kernel
  have hs : searchStart? workspace linkedTree "needle" = some start := by decide +kernel
  obtain ⟨query, hq⟩ : ∃ query, Query.ofText (splitArgument "needle").1 = .ok query := ⟨_, rfl⟩
  have hf : file ∈ (Search.run ⟨workspace, linkedTree, query⟩ start).opened := by
    rw [opened_linkedTree]
    exact List.mem_singleton_self _
  exact ⟨ht, hs, query, hq, hf, behind_iff_of_mem_opened ht hs query hf⟩

/-- The search does not keep out of the directory. -/
theorem not_forall_not_behind_linkedTree :
    let workspace : Workspace := ⟨some (.ofText "/ws")⟩
    let start : FilePath := ⟨.root, ["ws"]⟩
    searchStart? workspace linkedTree "needle" = some start ∧
      ∃ query, Query.ofText (splitArgument "needle").1 = .ok query ∧
        ¬ ∀ file ∈ (Search.run ⟨workspace, linkedTree, query⟩ start).opened, ∀ top place,
          place? linkedTree start = some top → place? linkedTree file = some place →
            ¬ Search.Behind top place := by
  intro workspace start
  obtain ⟨query, hq⟩ : ∃ query, Query.ofText (splitArgument "needle").1 = .ok query := ⟨_, rfl⟩
  refine ⟨by decide +kernel, query, hq, fun h => ?_⟩
  have hfile := h ⟨.root, ["ws", "node_modules", "a.txt"]⟩ (by simp [opened_linkedTree, workspace, start])
    ["ws"] ["ws", "node_modules", "a.txt"] (by decide +kernel) (by decide +kernel)
  exact hfile ⟨["node_modules", "a.txt"], rfl, "node_modules", by decide, by decide⟩

end PlanAssistant.Tools
