import Mathlib.Algebra.Order.BigOperators.Group.List
import PlanAssistant.Proofs.Files.PathCount
import PlanAssistant.Proofs.Tools.Confinement
import PlanAssistant.Proofs.Tools.Traversal

/-!
What a search reports.  The search goes through the workspace in breadth-first order, opens the first
files of that order that are not too large, and reports the first matching lines of these, in the order
of the files and of the lines in them.  It always comes to its end: only so many paths can be followed.
-/
namespace PlanAssistant.Tools

open Files Traversal

/-! ### Outputs of lines -/

/-- The output that tells of lines. -/
def combined (lines : List String) : String :=
  if lines.isEmpty then noResults else truncate ("\n".intercalate lines)

namespace Search

theorem takeMatches_eq (query : Query) (file : FilePath) (number room : Nat) (lines : List String) :
    takeMatches query file number room lines =
      ((lines.zipIdx number).filterMap fun (line, number) =>
        if query.accepts line then some (⟨file, number, line⟩ : Match) else none).take room := by
  induction lines generalizing number room with
  | nil => cases room <;> rfl
  | cons line rest ih =>
    cases room with
    | zero => rfl
    | succ room =>
      rw [takeMatches, List.zipIdx_cons, List.filterMap_cons]
      cases hq : query.accepts line with
      | true => simp [ih, hq]
      | false => simp [ih, hq]

theorem not_isOver {search : Search} (h : ¬ search.isOver = true) :
    search.opened.length < fileBudget ∧ search.found.length < lineBudget := by
  simp only [isOver, Bool.or_eq_true, decide_eq_true_eq, not_or, Nat.not_le] at h
  exact ⟨h.1.2, h.2⟩

/-- Enough members of a beginning are what is taken of the whole. -/
theorem take_flatMap_of_length_le {α β : Type} {f : α → List β} {part whole : List α} {count : Nat}
    (h : part <+: whole) (hc : count ≤ (part.flatMap f).length) :
    (whole.flatMap f).take count = (part.flatMap f).take count := by
  obtain ⟨more, rfl⟩ := h
  rw [List.flatMap_append, List.take_append_of_le_length hc]

theorem length_flatMap_le {α β : Type} {f : α → List β} {most : Nat} {l : List α}
    (h : ∀ a ∈ l, (f a).length ≤ most) : (l.flatMap f).length ≤ l.length * most := by
  have hle : ∀ n ∈ l.map fun a => (f a).length, n ≤ most := by
    intro n hn
    obtain ⟨a, ha, rfl⟩ := List.mem_map.mp hn
    exact h a ha
  rw [List.length_flatMap]
  simpa using List.sum_le_card_nsmul _ _ hle

end Search

section

variable [Interpreter]

namespace Search

namespace Setting

variable (setting : Setting)

/-- What a path leads on to: the entries of the directory there, sorted by name, without the names passed
over, each by its real path, and only if that lies in the workspace. -/
def entered (path : FilePath) : List FilePath :=
  match status setting.tree path with
  | .ok (.directory entries) =>
    ((sortedNames entries).filter fun name => !skippedNames.contains name).filterMap fun name =>
      (resolve setting.tree (path.child name)).toOption.filter setting.workspace.contains
  | _ => []

/-- Whether a path leads to a file that is not too large. -/
def isOpened (path : FilePath) : Bool :=
  match status setting.tree path with
  | .ok (.file content) => content.size ≤ largestFile
  | _ => false

/-- All matches in the file that a path leads to, by the numbers of their lines. -/
def matchesIn (path : FilePath) : List Match :=
  match status setting.tree path with
  | .ok (.file content) =>
    ((Text.splitNewlines (contentText content)).zipIdx 1).filterMap fun (line, number) =>
      if setting.query.accepts line then some ⟨path, number, line⟩ else none
  | _ => []

/-- The first matches in the first files of an order of paths. -/
def reported (order : List FilePath) : List Match :=
  (((order.filter setting.isOpened).take fileBudget).flatMap setting.matchesIn).take lineBudget

end Setting

/-! ### Steps of a search -/

section Steps

variable {setting : Setting} {start : FilePath} {popped : List FilePath} {search : Search}

theorem children_eq (setting : Setting) (directory : FilePath) (names : List String) :
    children setting directory names =
      (names.filter fun name => !skippedNames.contains name).filterMap fun name =>
        (resolve setting.tree (directory.child name)).toOption.filter setting.workspace.contains := by
  unfold children
  rw [List.filterMap_filter]
  refine List.filterMap_congr fun name _ => ?_
  cases skippedNames.contains name with
  | true => rfl
  | false =>
    cases resolve setting.tree (directory.child name) with
    | error e => rfl
    | ok real => cases hc : setting.workspace.contains real <;> simp [Except.toOption, Option.filter_some, hc]

/-- A visit puts what the path leads on to at the end of the queue, and opens the file there. -/
theorem visit_eq (setting : Setting) (path : FilePath) (search : Search) :
    visit setting path search =
      { search with
        queue := search.queue ++ setting.entered path
        opened := search.opened ++ [path].filter setting.isOpened
        found := search.found ++ (([path].filter setting.isOpened).flatMap setting.matchesIn).take
          (lineBudget - search.found.length) } := by
  unfold visit listNames Setting.entered Setting.isOpened Setting.matchesIn
  cases hs : status setting.tree path with
  | error fault => simp [hs]
  | ok node =>
    cases node with
    | directory entries => simp [hs, children_eq, sortedNames]
    | link target => simp [hs]
    | file content =>
      by_cases hl : largestFile < content.size
      · simp [hs, hl, Nat.not_le.mpr hl]
      · simp [hs, hl, Nat.le_of_not_lt hl, takeMatches_eq]

/-- A search that has taken `popped` off its queue: it has visited these paths, opened the files among
them, and found the first matches in these. -/
structure Follows (setting : Setting) (start : FilePath) (popped : List FilePath) (search : Search) :
    Prop where
  explored : Explored setting.entered start popped search.queue search.visited.reverse
  opened_eq : search.opened = search.visited.reverse.filter setting.isOpened
  opened_le : search.opened.length ≤ fileBudget
  found_eq : search.found = (search.opened.flatMap setting.matchesIn).take lineBudget

theorem follows_start (setting : Setting) (path : FilePath) :
    Follows setting path [] (Search.start path) where
  explored := .begin _ _
  opened_eq := rfl
  opened_le := Nat.zero_le _
  found_eq := rfl

/-- One step takes one path off the queue. -/
theorem follows_step (h : Follows setting start popped search) {next : Search}
    (hs : step setting search = some next) : ∃ path, Follows setting start (popped ++ [path]) next := by
  unfold step at hs
  split at hs
  · contradiction
  next hover =>
  obtain ⟨hopened, hfound⟩ := not_isOver hover
  split at hs
  · contradiction
  next path queue hq =>
  have hexp := h.explored
  rw [hq] at hexp
  refine ⟨path, ?_⟩
  dsimp only at hs
  split at hs
  · next hv =>
    obtain rfl := Option.some.inj hs
    exact ⟨hexp.again (by simpa using hv), h.opened_eq, h.opened_le, h.found_eq⟩
  · next hv =>
    rw [visit_eq] at hs
    obtain rfl := Option.some.inj hs
    -- a match that was left out would have ended the search
    have hall : search.found = search.opened.flatMap setting.matchesIn := by
      have hlt := hfound
      rw [h.found_eq, List.length_take] at hlt
      rw [h.found_eq, List.take_of_length_le (by omega)]
    have hone : ([path].filter setting.isOpened).length ≤ 1 := List.length_filter_le _ _
    refine ⟨?_, ?_, ?_, ?_⟩
    · simpa using hexp.visit (by simpa using hv)
    · simp [h.opened_eq]
    · simp only [List.length_append]
      omega
    · simp only
      rw [List.flatMap_append, List.take_append, ← hall, List.take_of_length_le (Nat.le_of_lt hfound)]

end Steps

/-! ### The end of a search -/

section End

variable {setting : Setting} {start : FilePath} {popped : List FilePath} {search : Search}

/-- A search that is over has found what is to be reported. -/
theorem Follows.found_of_isOver (h : Follows setting start popped search) (hover : search.isOver = true)
    {order : List FilePath} (ho : IsBreadthFirst setting.entered start order) :
    search.found = setting.reported order := by
  have hp : search.opened <+: order.filter setting.isOpened := by
    rw [h.opened_eq]
    exact (h.explored.prefix_order ho).filter _
  have hpart : search.opened <+: (order.filter setting.isOpened).take fileBudget := by
    rw [← List.take_of_length_le h.opened_le]
    exact hp.take _
  rw [isOver, Bool.or_eq_true, Bool.or_eq_true, decide_eq_true_eq, decide_eq_true_eq,
    List.isEmpty_iff] at hover
  rw [h.found_eq, Setting.reported]
  -- the queue is empty, or one of the two budgets is used up
  rcases hover with (hq | hfull) | hfull
  · have hexp := h.explored
    rw [hq] at hexp
    rw [← hexp.isBreadthFirst.unique ho, ← h.opened_eq, List.take_of_length_le h.opened_le]
  · rw [hpart.eq_of_length_le (by rw [List.length_take]; omega)]
  · rw [h.found_eq, List.length_take] at hfull
    rw [take_flatMap_of_length_le hpart (by omega)]

/-- A path leads on to fewer paths than the tree has nodes, and to none beyond the limit. -/
theorem length_entered_le (setting : Setting) (path : FilePath) :
    (setting.entered path).length ≤ setting.tree.size := by
  unfold Setting.entered
  split
  · next entries hs =>
    obtain ⟨place, hw⟩ := walk_of_status hs
    have hsize := size_le_of_at? (at?_of_walk hw)
    have hentries := length_le_entriesSize entries
    rw [Node.size] at hsize
    refine (List.length_filterMap_le _ _).trans ((List.length_filter_le _ _).trans ?_)
    rw [sortedNames, List.length_mergeSort, List.length_map]
    omega
  · exact Nat.zero_le _

theorem entered_of_long {path : FilePath} (h : pathLimit ≤ Text.byteSize path.text) :
    setting.entered path = [] := by
  rw [Setting.entered, status, walk, if_pos h]

/-- Different paths lead on to so many paths in all, however often. -/
theorem length_flatMap_entered_le {paths : List FilePath} (hn : paths.Nodup) :
    (paths.flatMap setting.entered).length ≤ pathBound * setting.tree.size := by
  let short := paths.filter fun path => Text.byteSize path.text < pathLimit
  have hshort : paths.flatMap setting.entered = short.flatMap setting.entered := by
    clear hn
    induction paths with
    | nil => rfl
    | cons path paths ih =>
      by_cases hp : Text.byteSize path.text < pathLimit
      · simp [short, hp, ih]
      · simp [short, hp, ih, entered_of_long (Nat.le_of_not_lt hp)]
  have hcount : short.length ≤ pathBound :=
    FilePath.length_le_pathBound (hn.filter _) fun path hp => by simpa using (List.mem_filter.mp hp).2
  calc (paths.flatMap setting.entered).length
    _ = (short.flatMap setting.entered).length := by rw [hshort]
    _ ≤ short.length * setting.tree.size :=
      length_flatMap_le fun path _ => length_entered_le setting path
    _ ≤ pathBound * setting.tree.size := Nat.mul_le_mul_right _ hcount

/-- The paths of a workspace have an end, in breadth-first order. -/
theorem exists_order (setting : Setting) (start : FilePath) :
    ∃ order, IsBreadthFirst setting.entered start order := by
  have hle : ∀ depth, (firstLayers setting.entered start depth).length ≤
      pathBound * setting.tree.size + 1 := by
    intro depth
    cases depth with
    | zero => exact Nat.zero_le _
    | succ depth =>
      rw [firstLayers_succ]
      refine (length_eraseDups_le _).trans (Nat.succ_le_succ ?_)
      exact length_flatMap_entered_le (nodup_eraseDups _)
  exact exists_isBreadthFirst hle

theorem Follows.length_popped_le (h : Follows setting start popped search) :
    popped.length ≤ pathBound * setting.tree.size + 1 := by
  have hn : search.visited.reverse.Nodup := by
    rw [h.explored.visited_eq]
    exact nodup_eraseDups _
  have hlen := congrArg List.length h.explored.queue_eq
  have hle : (search.visited.reverse.flatMap setting.entered).length ≤ _ := length_flatMap_entered_le hn
  rw [List.length_append, List.length_cons] at hlen
  omega

theorem isOver_of_step_eq_none (h : step setting search = none) : search.isOver = true := by
  unfold step at h
  split at h
  · next hover => exact hover
  · split at h
    · next hq => simp [isOver, hq]
    · dsimp only at h
      split at h <;> contradiction

/-- Steps that are enough for every path carry a search to its end. -/
theorem advance_isOver (steps : Nat) (h : Follows setting start popped search)
    (hs : pathBound * setting.tree.size + 1 < popped.length + steps) :
    ∃ popped, Follows setting start popped (advance setting steps search) ∧
      (advance setting steps search).isOver = true := by
  -- every step takes one more path off the queue, and there are only so many to take
  induction steps generalizing popped search with
  | zero =>
    have := h.length_popped_le
    omega
  | succ steps ih =>
    rw [advance]
    split
    · next hnone => exact ⟨popped, h, isOver_of_step_eq_none hnone⟩
    · next next hsome =>
      obtain ⟨path, hnext⟩ := follows_step h hsome
      exact ih hnext (by rw [List.length_append, List.length_singleton]; omega)

/-- A search finds what is to be reported. -/
theorem found_run (setting : Setting) {start : FilePath} {order : List FilePath}
    (ho : IsBreadthFirst setting.entered start order) :
    (run setting start).found = setting.reported order := by
  obtain ⟨popped, h, hover⟩ := advance_isOver (stepBound setting.tree) (follows_start setting start)
    (by rw [stepBound, List.length_nil]; omega)
  exact h.found_of_isOver hover ho

end End
end Search

/-! ### What is reported -/

/-- Where a search starts, if its path leads into the workspace. -/
def searchStart? (workspace : Workspace) (tree : Node) (argument : String) : Option FilePath :=
  let path := (splitArgument argument).2
  workspace.resolve? tree (if path.isEmpty then "." else path)

section Report

variable {workspace : Workspace} {tree : Node} {argument : String} {start : FilePath} {query : Query}

theorem searchText_of_empty (hp : (splitArgument argument).1 = "") :
    searchText workspace tree argument = .ok (.failed "SearchText requires a pattern argument.") := by
  unfold searchText
  dsimp only
  rw [hp]
  rfl

theorem searchText_of_none (hp : (splitArgument argument).1 ≠ "")
    (hs : searchStart? workspace tree argument = none) :
    searchText workspace tree argument =
      .ok (.failed "Unable to resolve search path inside the workspace.") := by
  unfold searchStart? at hs
  unfold searchText
  dsimp only at hs ⊢
  rw [if_neg (by rwa [String.isEmpty_iff]), hs]

/-- With a pattern and a start, all hangs on whether the pattern can be searched for. -/
theorem searchText_of_some (hp : (splitArgument argument).1 ≠ "")
    (hs : searchStart? workspace tree argument = some start) :
    searchText workspace tree argument =
      (Query.ofText (splitArgument argument).1).map fun query =>
        .ofOutput (combined ((Search.run ⟨workspace, tree, query⟩ start).found.map
          (·.text (workspace.root.getD start)))) := by
  unfold searchStart? at hs
  unfold searchText
  dsimp only at hs ⊢
  rw [if_neg (by rwa [String.isEmpty_iff]), hs]
  cases Query.ofText (splitArgument argument).1 <;> rfl

/-- A search finds the first matching lines of the first files in breadth-first order and reports these. -/
theorem exists_reported (hp : (splitArgument argument).1 ≠ "")
    (hs : searchStart? workspace tree argument = some start)
    (hq : Query.ofText (splitArgument argument).1 = .ok query) :
    let setting : Search.Setting := ⟨workspace, tree, query⟩
    ∃ order, IsBreadthFirst setting.entered start order ∧
      (Search.run setting start).found = setting.reported order ∧
      searchText workspace tree argument =
        .ok (.ofOutput (combined ((setting.reported order).map (·.text (workspace.root.getD start))))) := by
  intro setting
  obtain ⟨order, ho⟩ := Search.exists_order setting start
  have hfound := Search.found_run setting ho
  refine ⟨order, ho, hfound, ?_⟩
  rw [searchText_of_some hp hs, hq, ← hfound]
  rfl

end Report

end

/-! ### A directory that links back -/

/-- A workspace with a directory that links back to it. -/
def loopedTree : Node := .directory
  [ ("ws", .directory
      [ ("notes.txt", .file "one\ntwo".toUTF8),
        ("lib", .directory [("back", .link ".."), ("main.txt", .file "Two".toUTF8)]) ]) ]

def loopedSetting (query : Query) : Search.Setting := ⟨⟨some (.ofText "/ws")⟩, loopedTree, query⟩

theorem entered_loopedTree (query : Query) :
    (loopedSetting query).entered ⟨.root, ["ws", "lib"]⟩ =
        [⟨.root, ["ws"]⟩, ⟨.root, ["ws", "lib", "main.txt"]⟩] ∧
      (loopedSetting query).entered ⟨.root, ["ws"]⟩ =
        [⟨.root, ["ws", "lib"]⟩, ⟨.root, ["ws", "notes.txt"]⟩] ∧
      (loopedSetting query).entered ⟨.root, ["ws", "lib", "main.txt"]⟩ = [] ∧
      (loopedSetting query).entered ⟨.root, ["ws", "notes.txt"]⟩ = [] := by
  have hlib : status loopedTree ⟨.root, ["ws", "lib"]⟩ =
      .ok (.directory [("back", .link ".."), ("main.txt", .file "Two".toUTF8)]) := by rfl
  have hback : sortedNames [("back", .link ".."), ("main.txt", .file "Two".toUTF8)] =
      ["back", "main.txt"] := List.mergeSort_of_pairwise (by decide)
  have hws : status loopedTree ⟨.root, ["ws"]⟩ = .ok (.directory [("notes.txt", .file "one\ntwo".toUTF8),
      ("lib", .directory [("back", .link ".."), ("main.txt", .file "Two".toUTF8)])]) := by rfl
  have hnotes : sortedNames [("notes.txt", .file "one\ntwo".toUTF8),
      ("lib", .directory [("back", .link ".."), ("main.txt", .file "Two".toUTF8)])] =
        ["lib", "notes.txt"] := by
    have hbefore : Text.precedes "lib" "notes.txt" = true := by decide +kernel
    simp [sortedNames, List.mergeSort, hbefore]
  have hmain : status loopedTree ⟨.root, ["ws", "lib", "main.txt"]⟩ = .ok (.file "Two".toUTF8) := by rfl
  have hfile : status loopedTree ⟨.root, ["ws", "notes.txt"]⟩ = .ok (.file "one\ntwo".toUTF8) := by rfl
  simp only [Search.Setting.entered, loopedSetting, hlib, hws, hmain, hfile, hback, hnotes]
  decide +kernel

/-- The search comes back over the link and then passes over the directory it began in. -/
def loopedOrder : List FilePath :=
  [⟨.root, ["ws", "lib"]⟩, ⟨.root, ["ws"]⟩, ⟨.root, ["ws", "lib", "main.txt"]⟩, ⟨.root, ["ws", "notes.txt"]⟩]

theorem isBreadthFirst_loopedOrder (query : Query) :
    IsBreadthFirst (loopedSetting query).entered ⟨.root, ["ws", "lib"]⟩ loopedOrder := by
  obtain ⟨hlib, hws, hmain, hnotes⟩ := entered_loopedTree query
  have hthree : firstLayers (loopedSetting query).entered ⟨.root, ["ws", "lib"]⟩ 3 = loopedOrder := by
    have hzero : firstLayers (loopedSetting query).entered ⟨.root, ["ws", "lib"]⟩ 0 = [] := rfl
    rw [firstLayers_succ, firstLayers_succ, firstLayers_succ, hzero]
    simp [hlib, hws, hmain, loopedOrder, List.eraseDups_cons]
  rw [← hthree]
  refine isBreadthFirst_firstLayers ?_
  rw [firstLayers_succ, hthree]
  simp [hlib, hws, hmain, hnotes, loopedOrder, List.eraseDups_cons]

/-- Both files have a line with the word, in one case or the other. -/
theorem exists_query_two : ∃ query, Query.ofText (splitArgument "two | lib").1 = .ok query ∧
    ((loopedSetting query).reported loopedOrder).map (·.text (.ofText "/ws")) =
      ["lib/main.txt:1: Two", "notes.txt:2: two"] := by
  have hsplit : (splitArgument "two | lib").1 = "two" := by decide +kernel
  rw [hsplit]
  refine ⟨_, rfl, ?_⟩
  decide +kernel

theorem searchText_loopedTree : searchText ⟨some (.ofText "/ws")⟩ loopedTree "two | lib" =
    .ok (.ofOutput "lib/main.txt:1: Two\nnotes.txt:2: two") := by
  have hp : (splitArgument "two | lib").1 ≠ "" := by decide +kernel
  have hs : searchStart? ⟨some (.ofText "/ws")⟩ loopedTree "two | lib" = some ⟨.root, ["ws", "lib"]⟩ := by
    decide +kernel
  obtain ⟨query, hq, hlines⟩ := exists_query_two
  obtain ⟨order, ho, -, hout⟩ := exists_reported hp hs hq
  obtain rfl := ho.unique (isBreadthFirst_loopedOrder query)
  have hcombined : combined ["lib/main.txt:1: Two", "notes.txt:2: two"] =
      "lib/main.txt:1: Two\nnotes.txt:2: two" := by decide +kernel
  rw [hout, ← hcombined, ← hlines]
  rfl

end PlanAssistant.Tools
