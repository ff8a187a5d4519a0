import Mathlib.Data.List.Forall2
import PlanAssistant.Proofs.Files.Inside
import PlanAssistant.Tools.ListFiles
import PlanAssistant.Tools.ReadFile
import PlanAssistant.Tools.SearchText

/-!
Confinement of the tools to the workspace.  A path the workspace lets through leads inside, and so what
is read, listed and found lies inside, exactly when the tree does not hold both a loop of links and a
way out of the root.  With both, an argument that runs into the loop and takes it back by dots is let
through although it leads out.
-/
namespace PlanAssistant

open Files

/-! ### Paths let through -/

section

variable [Interpreter]

namespace Workspace

variable {tree : Node} {root real : FilePath} {requested : String}

/-- A path that is let through is the real path of the one asked for, and within the root. -/
theorem resolve?_eq_some (h : resolve? ⟨some root⟩ tree requested = some real) :
    ∃ text, resolve tree (root.join (.ofText text)) = .ok real ∧ real.isWithin root = true := by
  unfold resolve? at h
  simp only [Option.bind_eq_bind, Option.bind_some] at h
  obtain ⟨r, hr, hif⟩ := Option.bind_eq_some_iff.mp h
  split at hif
  · next hc =>
    obtain rfl := Option.some.inj hif
    refine ⟨if (Text.strip requested).isEmpty then "." else Text.strip requested, ?_, hc⟩
    cases ha : resolve tree _ with
    | error e =>
      rw [ha] at hr
      contradiction
    | ok real =>
      rw [ha] at hr
      exact congrArg _ (Option.some.inj hr)
  · contradiction

/-- An absolute path is let through if its real path is within the root. -/
theorem resolve?_closedText {names : List String} (hne : names ≠ [])
    (hn : ∀ name ∈ names, Nameable name) (hr : resolve tree ⟨.root, names⟩ = .ok real)
    (hi : real.isWithin root = true) :
    resolve? ⟨some root⟩ tree (closedText names) = some real := by
  have hempty : ¬ (closedText names).isEmpty = true := by
    rw [String.isEmpty_iff, ← String.toList_eq_nil_iff, closedText, String.toList_ofList]
    exact List.append_ne_nil_of_right_ne_nil _ (List.cons_ne_nil _ _)
  have hjoin : root.join (.ofText (closedText names)) = ⟨.root, names⟩ := by
    rw [ofText_closedText hne hn]
    rfl
  unfold resolve?
  simp only [Option.bind_eq_bind, Option.bind_some, strip_closedText hne, if_neg hempty, hjoin, hr]
  exact if_pos hi

end Workspace

/-! ### Looking at files -/

namespace Files

theorem walk_of_status {tree node : Node} {path : FilePath} (h : status tree path = .ok node) :
    ∃ place, walk tree true path = .ok (.found place node) := by
  unfold status at h
  split at h
  · next place found hw =>
    obtain rfl := Except.ok.inj h
    exact ⟨place, hw⟩
  · contradiction
  · contradiction

theorem walk_of_readBytes {tree : Node} {path : FilePath} {content : ByteArray}
    (h : readBytes tree path = .ok content) :
    ∃ place, walk tree true path = .ok (.found place (.file content)) := by
  unfold readBytes at h
  split at h
  · next hs =>
    obtain rfl := Except.ok.inj h
    exact walk_of_status hs
  · contradiction
  · contradiction

/-- The names of entries, sorted. -/
def sortedNames (entries : Entries) : List String :=
  (entries.map (·.1)).mergeSort fun a b => !Text.precedes b a

theorem walk_of_listNames {tree : Node} {path : FilePath} {names : List String}
    (h : listNames tree path = .ok names) : ∃ place entries,
      walk tree true path = .ok (.found place (.directory entries)) ∧ names = sortedNames entries := by
  unfold listNames at h
  split at h
  · next entries hs =>
    obtain rfl := Except.ok.inj h
    obtain ⟨place, hw⟩ := walk_of_status hs
    exact ⟨place, entries, hw, rfl⟩
  · contradiction
  · contradiction

/-- In a tree with proper names, directories list proper names. -/
theorem nameable_listNames {tree : Node} (ht : tree.wellNamed = true) {path : FilePath}
    {names : List String} (h : listNames tree path = .ok names) : ∀ name ∈ names, Nameable name := by
  obtain ⟨place, entries, hw, rfl⟩ := walk_of_listNames h
  intro name hn
  obtain ⟨entry, hm, rfl⟩ := List.mem_map.mp (List.mem_mergeSort.mp hn)
  exact (nameable_of_mem (wellNamed_at? ht (at?_of_walk hw)) entry hm).1

end Files

end

namespace Tools

/-! ### What the tools give -/

section

variable [Interpreter]

/-- The line was found in a file inside the root. -/
def Match.Inside (tree : Node) (root : FilePath) (found : Match) : Prop :=
  ∃ place content, place? tree found.file = some place ∧ tree.at? place = some (.file content) ∧
    LiesIn tree root place ∧ found.line ∈ Text.splitNewlines (contentText content)

/-- The line of a name in a directory with this text: with a slash at its end, or without. -/
def Lists (base name line : String) : Prop :=
  line = base ++ "/" ++ name ∨ line = base ++ "/" ++ name ++ "/"

/-- Whatever the tools give for an argument comes from inside the root. -/
structure Confining (tree : Node) (root : FilePath) (argument : String) : Prop where
  resolved : ∀ real, Workspace.resolve? ⟨some root⟩ tree argument = some real → Confined tree root real
  read : (readFile ⟨some root⟩ tree argument).error = none → ∃ place content,
    LiesIn tree root place ∧ tree.at? place = some (.file content) ∧
      (readFile ⟨some root⟩ tree argument).output = truncate (contentText content)
  listed : (listFiles ⟨some root⟩ tree argument).error = none → ∃ directory place entries lines,
    place? tree directory = some place ∧ tree.at? place = some (.directory entries) ∧
      LiesIn tree root place ∧
      List.Forall₂ (Lists (directory.relativeText root)) (sortedNames entries) lines ∧
      (listFiles ⟨some root⟩ tree argument).output = listing lines
  searched : ∀ result, searchText ⟨some root⟩ tree argument = .ok result → result.error = none →
    ∃ found : List Match, (∀ m ∈ found, m.Inside tree root) ∧
      result.output =
        if found.isEmpty then noResults else truncate ("\n".intercalate (found.map (·.text root)))

section Reading

variable {tree : Node} {root path : FilePath}

theorem fileText_inside (hc : Confined tree root path) (h : (fileText tree path).error = none) :
    ∃ place content, LiesIn tree root place ∧ tree.at? place = some (.file content) ∧
      (fileText tree path).output = truncate (contentText content) := by
  unfold fileText at h ⊢
  split at h
  · contradiction
  · contradiction
  · split at h
    · next content hb =>
      obtain ⟨place, hw⟩ := walk_of_readBytes hb
      exact ⟨place, content, hc place (place?_of_walk hw), at?_of_walk hw, rfl⟩
    · contradiction

theorem entryLines_ok {base : String} {names lines : List String}
    (h : entryLines tree path base names = .ok lines) :
    List.Forall₂ (Lists base) names lines := by
  induction names generalizing lines with
  | nil =>
    obtain rfl := Except.ok.inj h
    exact .nil
  | cons name rest ih =>
    rw [entryLines] at h
    cases hd : isDirectoryAt tree (path.child name) with
    | error e =>
      rw [hd] at h
      cases h
    | ok isDirectory =>
      cases hl : entryLines tree path base rest with
      | error e =>
        rw [hd, hl] at h
        cases h
      | ok later =>
        rw [hd, hl] at h
        obtain rfl := Except.ok.inj h
        refine .cons ?_ (ih hl)
        cases isDirectory with
        | true => exact .inr rfl
        | false => exact .inl (String.append_empty)

theorem listingLines_inside (hc : Confined tree root path) {lines : List String}
    (h : listingLines tree root path = .ok lines) : ∃ place entries,
      place? tree path = some place ∧ tree.at? place = some (.directory entries) ∧
        LiesIn tree root place ∧
        List.Forall₂ (Lists (path.relativeText root)) (sortedNames entries) lines := by
  unfold listingLines at h
  cases hn : listNames tree path with
  | error e =>
    rw [hn] at h
    cases h
  | ok names =>
    rw [hn] at h
    obtain ⟨place, entries, hw, rfl⟩ := walk_of_listNames hn
    have hp := place?_of_walk hw
    exact ⟨place, entries, hp, at?_of_walk hw, hc place hp, entryLines_ok h⟩

end Reading

/-! ### Searches -/

namespace Search

section Invariant

variable {tree : Node} {root : FilePath} {query : Query}

/-- What a search may still visit is confined and properly named, and what it has found lies inside. -/
structure Inside (tree : Node) (root : FilePath) (search : Search) : Prop where
  queue : ∀ path ∈ search.queue, Confined tree root path ∧ ∀ name ∈ path.names, Nameable name
  found : ∀ m ∈ search.found, m.Inside tree root

omit [Interpreter] in
theorem mem_takeMatches {file : FilePath} {number room : Nat} {lines : List String} {m : Match}
    (h : m ∈ takeMatches query file number room lines) : m.file = file ∧ m.line ∈ lines := by
  induction lines generalizing number room with
  | nil => cases room <;> exact absurd h List.not_mem_nil
  | cons line rest ih =>
    cases room with
    | zero => exact absurd h List.not_mem_nil
    | succ room =>
      rw [takeMatches] at h
      split at h
      · rcases List.mem_cons.mp h with rfl | h
        · exact ⟨rfl, List.mem_cons_self⟩
        · exact ⟨(ih h).1, List.mem_cons_of_mem _ (ih h).2⟩
      · exact ⟨(ih h).1, List.mem_cons_of_mem _ (ih h).2⟩

theorem children_inside (hx : ¬ (LoopsBelow tree root.anchor ∧ WayOut tree root)) {directory : FilePath}
    {names : List String} (hd : ∀ name ∈ directory.names, Nameable name)
    (hn : ∀ name ∈ names, Nameable name) :
    ∀ path ∈ children ⟨⟨some root⟩, tree, query⟩ directory names,
      Confined tree root path ∧ ∀ name ∈ path.names, Nameable name := by
  intro path hm
  obtain ⟨name, hname, hsome⟩ := List.mem_filterMap.mp hm
  have hchild : ∀ n ∈ (directory.child name).names, Nameable n :=
    List.forall_mem_append.mpr ⟨hd, List.forall_mem_singleton.mpr (hn name hname)⟩
  split at hsome
  · contradiction
  · split at hsome
    · next real hr =>
      split at hsome
      · next hi =>
        obtain rfl := Option.some.inj hsome
        exact ⟨confined_resolve hx hchild hr hi, fun n hn => (nameable_resolve hchild hr n hn).1.1⟩
      · contradiction
    · contradiction

/-- Visiting a confined path keeps the search inside. -/
theorem inside_visit (ht : tree.wellNamed = true) (hx : ¬ (LoopsBelow tree root.anchor ∧ WayOut tree root))
    {path : FilePath} (hc : Confined tree root path) (hp : ∀ name ∈ path.names, Nameable name)
    {search : Search} (h : search.Inside tree root) :
    (visit ⟨⟨some root⟩, tree, query⟩ path search).Inside tree root := by
  unfold visit
  split
  · split
    · next names hl =>
      refine ⟨List.forall_mem_append.mpr ⟨h.queue, ?_⟩, h.found⟩
      exact children_inside hx hp (nameable_listNames ht hl)
    · exact h
  · next content hs =>
    split
    · exact h
    · refine ⟨h.queue, List.forall_mem_append.mpr ⟨h.found, fun m hm => ?_⟩⟩
      obtain ⟨hf, hline⟩ := mem_takeMatches hm
      obtain ⟨place, hw⟩ := walk_of_status hs
      have hplace := place?_of_walk hw
      exact ⟨place, content, hf ▸ hplace, at?_of_walk hw, hc place hplace, hline⟩
  · exact h

theorem inside_step (ht : tree.wellNamed = true) (hx : ¬ (LoopsBelow tree root.anchor ∧ WayOut tree root))
    {search next : Search} (h : search.Inside tree root)
    (hs : step ⟨⟨some root⟩, tree, query⟩ search = some next) : next.Inside tree root := by
  unfold step at hs
  split at hs
  · contradiction
  · split at hs
    · contradiction
    · next path queue hq =>
      have hall := h.queue
      rw [hq] at hall
      obtain ⟨⟨hc, hp⟩, hrest⟩ := List.forall_mem_cons.mp hall
      dsimp only at hs
      split at hs
      · obtain rfl := Option.some.inj hs
        exact ⟨hrest, h.found⟩
      · obtain rfl := Option.some.inj hs
        exact inside_visit ht hx hc hp ⟨hrest, h.found⟩

theorem inside_advance (ht : tree.wellNamed = true) (hx : ¬ (LoopsBelow tree root.anchor ∧ WayOut tree root))
    (steps : Nat) {search : Search} (h : search.Inside tree root) :
    (advance ⟨⟨some root⟩, tree, query⟩ steps search).Inside tree root := by
  induction steps generalizing search with
  | zero => exact h
  | succ steps ih =>
    rw [advance]
    split
    · exact h
    · next hs => exact ih (inside_step ht hx h hs)

/-- A search from a confined path finds lines inside alone. -/
theorem inside_run (ht : tree.wellNamed = true) (hx : ¬ (LoopsBelow tree root.anchor ∧ WayOut tree root))
    (query : Query) {path : FilePath} (hc : Confined tree root path)
    (hp : ∀ name ∈ path.names, Nameable name) :
    ∀ m ∈ (run ⟨⟨some root⟩, tree, query⟩ path).found, m.Inside tree root := by
  have hs : (start path).Inside tree root :=
    ⟨List.forall_mem_singleton.mpr ⟨hc, hp⟩, fun _ hm => absurd hm List.not_mem_nil⟩
  exact (inside_advance ht hx _ hs).found

end Invariant

end Search

end

/-! ### When the tools are confined -/

section Confinement

variable {tree : Node} {base : String}

section

variable [Interpreter]

/-- A path that is let through leads inside, unless both a loop and a way out are there. -/
theorem confined_resolve?
    (hx : ¬ (LoopsBelow tree (FilePath.ofText base).anchor ∧ WayOut tree (.ofText base)))
    {requested : String} {real : FilePath}
    (h : Workspace.resolve? ⟨some (.ofText base)⟩ tree requested = some real) :
    Confined tree (.ofText base) real ∧ ∀ name ∈ real.names, Nameable name := by
  obtain ⟨text, hr, hi⟩ := Workspace.resolve?_eq_some h
  have hn := nameable_join_ofText (nameable_ofText base) text
  exact ⟨confined_resolve hx hn hr hi, fun n hm => (nameable_resolve hn hr n hm).1.1⟩

theorem confining_of_not (ht : tree.wellNamed = true)
    (hx : ¬ (LoopsBelow tree (FilePath.ofText base).anchor ∧ WayOut tree (.ofText base)))
    (argument : String) : Confining tree (.ofText base) argument := by
  refine ⟨fun real h => (confined_resolve? hx h).1, ?_, ?_, ?_⟩
  · intro h
    unfold readFile at h ⊢
    split at h
    · contradiction
    · next path hp =>
      split at hp
      · contradiction
      · exact fileText_inside (confined_resolve? hx hp).1 h
  · intro h
    unfold listFiles at h ⊢
    dsimp only at h ⊢
    split at h
    · contradiction
    · next directory hd =>
      split at h
      · next lines hl =>
        obtain ⟨place, entries, hp, hat, hin, hall⟩ :=
          listingLines_inside (confined_resolve? hx hd).1 hl
        exact ⟨directory, place, entries, lines, hp, hat, hin, hall, rfl⟩
      · contradiction
  · intro result h he
    unfold searchText at h
    split at h
    split at h
    · obtain rfl := Except.ok.inj h
      contradiction
    · split at h
      · obtain rfl := Except.ok.inj h
        contradiction
      · next start hs =>
        split at h
        · contradiction
        · next query _ =>
          obtain ⟨hc, hn⟩ := confined_resolve? hx hs
          obtain rfl := Except.ok.inj h
          refine ⟨_, Search.inside_run ht hx query hc hn, ?_⟩
          change (if (List.map _ _).isEmpty then _ else _) = _
          rw [List.isEmpty_map]
          rfl

/-- The tools are confined to the root exactly when the tree does not hold both a loop of links that is
left below the root of the file system that the workspace lies under, and a way out of the workspace. -/
theorem confining_iff (ht : tree.wellNamed = true) (base : String) :
    (∀ argument, Confining tree (.ofText base) argument) ↔
      ¬ (LoopsBelow tree (FilePath.ofText base).anchor ∧ WayOut tree (.ofText base)) := by
  refine ⟨?_, fun hx => confining_of_not ht hx⟩
  rintro hc ⟨hl, names, hn, hi, hout⟩
  refine hout fun place hw => ?_
  obtain ⟨long, hne, hlong, hr⟩ := exists_resolve_of_loops hl hn hw
  have hwithin : FilePath.isWithin ⟨_, names⟩ (.ofText base) = true :=
    FilePath.isWithin_iff.mpr ⟨rfl, hi⟩
  exact (hc (closedText long)).resolved _ (Workspace.resolve?_closedText hne hlong hr hwithin) place hw

end

/-- A directory with a link to itself and a link out of it. -/
def leakyTree : Node := .directory
  [ ("ws", .directory [("loop", .link "loop"), ("out", .link "../secret")]),
    ("secret", .directory [("key.txt", .file "s3cret".toUTF8)]) ]

/-- What is left after the loop is spelled out below the root of the file system, and `out` leads out
of the workspace; so not all arguments are confined. -/
theorem confining_leakyTree_iff : leakyTree.wellNamed = true ∧
    ((∀ argument, Confining leakyTree (.ofText "/ws") argument) ↔
      ¬ (LoopsBelow leakyTree .root ∧ WayOut leakyTree (.ofText "/ws"))) ∧
    LoopsBelow leakyTree .root ∧ WayOut leakyTree (.ofText "/ws") := by
  have ht : leakyTree.wellNamed = true := by decide +kernel
  refine ⟨ht, confining_iff ht "/ws", ?_, ["ws", "out"], ?_⟩
  · exact ⟨⟨.root, ["ws", "loop"]⟩, ⟨⟨.root, ["ws", "loop"]⟩, false⟩, by decide, by decide +kernel,
      rfl, rfl⟩
  · decide +kernel

/-- A directory with a link that meets itself again in front of two slashes. -/
def slashedTree : Node := .directory
  [("ws", .directory [("a", .link "a///ws"), ("out", .link "../secret")]), ("secret", .empty)]

/-- What is left after such a link is kept apart from the workspace. -/
example : resolve slashedTree ⟨.root, ["ws", "a", "..", "ws", "out"]⟩ =
    .ok ⟨.doubleRoot, ["ws", "out"]⟩ := by decide +kernel

/-- The loop taken back by dots, the way out is let through, and a file outside is read. -/
theorem not_confining_leakyTree :
    (readFile ⟨some (.ofText "/ws")⟩ leakyTree "loop/../out/key.txt").output = "s3cret" ∧
      ¬ Confining leakyTree (.ofText "/ws") "loop/../out/key.txt" := by
  refine ⟨by decide +kernel, fun h => ?_⟩
  have hr : Workspace.resolve? ⟨some (.ofText "/ws")⟩ leakyTree "loop/../out/key.txt" =
      some ⟨.root, ["ws", "out", "key.txt"]⟩ := by decide +kernel
  have hout : ¬ Confined leakyTree (.ofText "/ws") ⟨.root, ["ws", "out", "key.txt"]⟩ := by
    decide +kernel
  exact hout (h.resolved _ hr)

end Confinement

end Tools
end PlanAssistant
