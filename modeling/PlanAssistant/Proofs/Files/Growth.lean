import PlanAssistant.Proofs.Files.Inside

/-!
Trees that grow.  A node is put at a name of a directory and nothing else changes; a tree that only gains
nodes, or in which files change their content, is one that has grown.  Where a walk found something its path
leads in the grown tree as well, and where it came to a name that was missing its path leads to what was put
there.
-/
namespace PlanAssistant.Files

/-! ### Entries -/

theorem lookup_cons (name : String) (entry : String × Node) (entries : Entries) :
    lookup name (entry :: entries) = if entry.1 = name then some entry.2 else lookup name entries := by
  by_cases h : entry.1 = name <;> simp [lookup, h]

theorem lookup_append (name : String) (entries more : Entries) :
    lookup name (entries ++ more) = (lookup name entries).or (lookup name more) := by
  simp [lookup, List.find?_append, Option.map_or]

theorem lookup_map_set (name other : String) (node : Node) (entries : Entries) :
    lookup other (entries.map fun entry => if entry.1 == name then (name, node) else entry) =
      if other = name then (lookup other entries).map fun _ => node else lookup other entries := by
  induction entries with
  | nil => simp [lookup]
  | cons entry entries ih =>
    rw [List.map_cons, lookup_cons, lookup_cons, ih]
    by_cases he : entry.1 = name <;> by_cases ho : other = name <;> grind

/-- Setting a name changes what is found under it and nothing else. -/
theorem lookup_insert (name other : String) (node : Node) (entries : Entries) :
    lookup other (insert name node entries) =
      if other = name then some node else lookup other entries := by
  unfold insert
  split
  · next h =>
    rw [lookup_map_set]
    obtain ⟨found, hf⟩ := Option.isSome_iff_exists.mp h
    by_cases ho : other = name
    · subst ho
      simp [hf]
    · simp [ho]
  · next h =>
    rw [lookup_append, lookup_cons]
    by_cases ho : other = name
    · subst ho
      simp [Option.not_isSome_iff_eq_none.mp h]
    · have hne : name ≠ other := fun he => ho he.symm
      simp [ho, hne, lookup]

/-! ### Nodes that are put -/

section Put

variable {tree new : Node} {directory : List String} {name : String} {entries : Entries}

theorem put_singleton : (Node.directory entries).put [name] new = .directory (insert name new entries) :=
  rfl

theorem put_cons {inner : Node} {rest : List String} (hr : rest ≠ [])
    (h : lookup name entries = some inner) :
    (Node.directory entries).put (name :: rest) new =
      .directory (insert name (inner.put rest new) entries) := by
  cases rest with
  | nil => exact absurd rfl hr
  | cons second rest =>
    rw [Node.put, h]
    exact hr

/-- A directory at the end of a way is one at its beginning. -/
theorem at?_directory_cons {first : String} {rest : List String}
    (h : tree.at? (first :: rest) = some (.directory entries)) :
    ∃ around inner, tree = .directory around ∧ lookup first around = some inner ∧
      inner.at? rest = some (.directory entries) := by
  obtain ⟨inner, hc, hr⟩ := Option.bind_eq_some_iff.mp h
  cases tree with
  | directory around => exact ⟨around, inner, rfl, hc, hr⟩
  | file content => cases hc
  | link target => cases hc

/-- What is put is there, with all that is below it. -/
theorem at?_put_below (h : tree.at? directory = some (.directory entries)) (more : List String) :
    (tree.put (directory ++ [name]) new).at? (directory ++ name :: more) = new.at? more := by
  induction directory generalizing tree with
  | nil =>
    obtain rfl := Option.some.inj h
    rw [List.nil_append, List.nil_append, put_singleton, Node.at?, Node.child?, lookup_insert, if_pos rfl]
    rfl
  | cons first directory ih =>
    obtain ⟨around, inner, rfl, hl, hi⟩ := at?_directory_cons h
    rw [List.cons_append, List.cons_append, put_cons (by simp) hl, Node.at?, Node.child?, lookup_insert,
      if_pos rfl]
    exact ih hi

theorem at?_put_self (name : String) (new : Node)
    (h : tree.at? directory = some (.directory entries)) :
    (tree.put (directory ++ [name]) new).at? (directory ++ [name]) = some new :=
  at?_put_below h []

end Put

/-! ### Marks -/

/-- What a node is, whatever lies below it. -/
inductive Mark where
  | file (content : ByteArray)
  | link (target : String)
  | directory

def Node.mark : Node → Mark
  | .file content => .file content
  | .link target => .link target
  | .directory _ => .directory

/-- What is at a place of a tree. -/
def Node.mark? (tree : Node) (place : List String) : Option Mark := (tree.at? place).map Node.mark

section Marks

variable {tree : Node} {place : List String}

theorem mark?_of_at? {node : Node} (h : tree.at? place = some node) : tree.mark? place = some node.mark := by
  rw [Node.mark?, h]
  rfl

theorem mark?_eq_none : tree.mark? place = none ↔ tree.at? place = none := Option.map_eq_none_iff

theorem mark?_eq_file {content : ByteArray} :
    tree.mark? place = some (.file content) ↔ tree.at? place = some (.file content) := by
  refine ⟨fun h => ?_, mark?_of_at?⟩
  obtain ⟨node, hn, hm⟩ := Option.map_eq_some_iff.mp h
  cases node <;> cases hm
  exact hn

theorem mark?_eq_link {target : String} :
    tree.mark? place = some (.link target) ↔ tree.at? place = some (.link target) := by
  refine ⟨fun h => ?_, mark?_of_at?⟩
  obtain ⟨node, hn, hm⟩ := Option.map_eq_some_iff.mp h
  cases node <;> cases hm
  exact hn

theorem mark?_eq_directory :
    tree.mark? place = some .directory ↔ ∃ entries, tree.at? place = some (.directory entries) := by
  refine ⟨fun h => ?_, fun ⟨_, h⟩ => mark?_of_at? h⟩
  obtain ⟨node, hn, hm⟩ := Option.map_eq_some_iff.mp h
  cases node <;> cases hm
  exact ⟨_, hn⟩

theorem mark?_directory_cons (entries : Entries) (name : String) (rest : List String) :
    (Node.directory entries).mark? (name :: rest) = (lookup name entries).bind (·.mark? rest) := by
  rw [Node.mark?, Node.at?, Node.child?, Option.map_bind]
  rfl

/-- Away from the name that is put, and below it, nothing is different. -/
theorem mark?_put {new : Node} {directory : List String} {name : String} {entries : Entries}
    (h : tree.at? directory = some (.directory entries)) (hn : ¬ directory ++ [name] <+: place) :
    (tree.put (directory ++ [name]) new).mark? place = tree.mark? place := by
  induction directory generalizing tree place with
  | nil =>
    obtain rfl := Option.some.inj h
    cases place with
    | nil => rfl
    | cons first place =>
      have hne : first ≠ name := fun he => hn (by simp [he])
      rw [List.nil_append, put_singleton, mark?_directory_cons, mark?_directory_cons, lookup_insert,
        if_neg hne]
  | cons first directory ih =>
    obtain ⟨around, inner, rfl, hl, hi⟩ := at?_directory_cons h
    rw [List.cons_append, put_cons (by simp) hl]
    cases place with
    | nil => rfl
    | cons second place =>
      rw [mark?_directory_cons, mark?_directory_cons, lookup_insert]
      by_cases he : second = first
      · subst he
        rw [if_pos rfl, hl]
        refine ih hi fun hp => hn ?_
        rw [List.cons_append]
        exact List.cons_prefix_cons.mpr ⟨rfl, hp⟩
      · rw [if_neg he]

end Marks

/-! ### Growth -/

/-- Nothing goes away, and nothing changes but the content of files. -/
structure Grows (before after : Node) : Prop where
  directory : ∀ place, before.mark? place = some .directory → after.mark? place = some .directory
  link : ∀ place target, before.mark? place = some (.link target) →
    after.mark? place = some (.link target)
  file : ∀ place content, before.mark? place = some (.file content) →
    ∃ content', after.mark? place = some (.file content')

namespace Grows

variable {before middle after : Node} {place : List String}

theorem of_kept (h : ∀ place mark, before.mark? place = some mark → after.mark? place = some mark) :
    Grows before after where
  directory := fun place => h place _
  link := fun place _ => h place _
  file := fun place content hm => ⟨content, h place _ hm⟩

theorem trans (h : Grows before middle) (h' : Grows middle after) : Grows before after where
  directory := fun place hm => h'.directory place (h.directory place hm)
  link := fun place target hm => h'.link place target (h.link place target hm)
  file := fun place content hm =>
    have ⟨content', hc⟩ := h.file place content hm
    h'.file place content' hc

theorem at?_directory (h : Grows before after) {entries : Entries}
    (hd : before.at? place = some (.directory entries)) :
    ∃ entries', after.at? place = some (.directory entries') :=
  mark?_eq_directory.mp (h.directory place (mark?_of_at? hd))

theorem at?_link (h : Grows before after) {target : String}
    (hl : before.at? place = some (.link target)) : after.at? place = some (.link target) :=
  mark?_eq_link.mp (h.link place target (mark?_of_at? hl))

/-- What is no link stays there and becomes none. -/
theorem at?_of_ne_link (h : Grows before after) {node : Node} (hn : before.at? place = some node)
    (hl : ∀ target, node ≠ .link target) :
    ∃ node', after.at? place = some node' ∧ ∀ target, node' ≠ .link target := by
  cases node with
  | file content =>
    obtain ⟨content', hc⟩ := h.file place content (mark?_of_at? hn)
    exact ⟨_, mark?_eq_file.mp hc, fun _ he => nomatch he⟩
  | link target => exact absurd rfl (hl target)
  | directory entries =>
    obtain ⟨entries', he⟩ := h.at?_directory hn
    exact ⟨_, he, fun _ he => nomatch he⟩

theorem at?_isSome (h : Grows before after) {node : Node} (hn : before.at? place = some node) :
    ∃ node', after.at? place = some node' := by
  by_cases hl : ∃ target, node = .link target
  · obtain ⟨target, rfl⟩ := hl
    exact ⟨_, h.at?_link hn⟩
  · obtain ⟨node', hn', -⟩ := h.at?_of_ne_link hn fun target he => hl ⟨target, he⟩
    exact ⟨node', hn'⟩

/-- A name that leads to no link still does. -/
theorem nameAt [Interpreter] (h : Grows before after) {here : List String} {name : String} {node : Node}
    (hn : NameAt before here name (some node)) (hl : ∀ target, node ≠ .link target) :
    ∃ node', NameAt after here name (some node') ∧ ∀ target, node' ≠ .link target := by
  obtain ⟨entries, hd, -⟩ := hn.held
  obtain ⟨entries', hd'⟩ := h.at?_directory hd
  obtain ⟨node', hk, hl'⟩ := h.at?_of_ne_link hn.at?_concat hl
  exact ⟨node', ⟨hn.plain, hn.notUp, hn.short, entries', hd', (Node.at?_concat hd' name).symm.trans hk⟩, hl'⟩

theorem nameAt_link [Interpreter] (h : Grows before after) {here : List String} {name target : String}
    (hn : NameAt before here name (some (.link target))) : NameAt after here name (some (.link target)) := by
  obtain ⟨entries, hd, -⟩ := hn.held
  obtain ⟨entries', hd'⟩ := h.at?_directory hd
  exact ⟨hn.plain, hn.notUp, hn.short, entries', hd',
    (Node.at?_concat hd' name).symm.trans (h.at?_link hn.at?_concat)⟩

/-- A name that was not there leads to what is put there. -/
theorem nameAt_new [Interpreter] (h : Grows before after) {here : List String} {name : String}
    {node : Option Node} (hn : NameAt before here name node) {new : Node}
    (hnew : after.at? (here ++ [name]) = some new) :
    NameAt after here name (some new) := by
  obtain ⟨entries, hd, -⟩ := hn.held
  obtain ⟨entries', hd'⟩ := h.at?_directory hd
  exact ⟨hn.plain, hn.notUp, hn.short, entries', hd', (Node.at?_concat hd' name).symm.trans hnew⟩

end Grows

/-! ### Walks in trees that grow -/

section Walks

variable [Interpreter] {before after : Node} {follow : Bool} {place : Place} {here rest spot : List String}
  {onLink onLink' : List String → List String → Except Fault Place}

/-- Where a walk ended there is now something it finds when it follows links to the end: what it found, or
what was put in place of a name that was missing, no link, and a directory if a slash came after it. -/
inductive Filled (after : Node) : Bool → Place → List String → Prop where
  | found {spot : List String} {node : Node} : Filled after true (.found spot node) spot
  | absent {follow : Bool} {directory : List String} {name : String} {slash : Bool} {new : Node}
      (there : after.at? (directory ++ [name]) = some new) (unlinked : ∀ target, new ≠ .link target)
      (slashed : slash = true → ∃ entries, new = .directory entries) :
      Filled after follow (.absent directory name slash) (directory ++ [name])

/-- Slashes at the end lead nowhere else. -/
theorem walks_slashes {tree node : Node} (hn : tree.at? here = some node)
    (hr : rest.all (· == "") = true) (hd : rest ≠ [] → ∃ entries, node = .directory entries) :
    Walks tree follow onLink here rest (.found here node) := by
  induction rest with
  | nil => exact .arrived hn
  | cons name rest ih =>
    obtain ⟨entries, rfl⟩ := hd (List.cons_ne_nil _ _)
    rw [List.all_cons, Bool.and_eq_true, beq_iff_eq] at hr
    obtain ⟨rfl, hr⟩ := hr
    exact .stayed hn rfl (ih hr fun _ => ⟨entries, rfl⟩)

theorem Walks.filled (hg : Grows before after) (h : Walks before follow onLink here rest place)
    (hf : Filled after follow place spot)
    (hon : ∀ here rest, onLink here rest = .ok place → ∃ node, onLink' here rest = .ok (.found spot node)) :
    ∃ node, Walks after true onLink' here rest (.found spot node) := by
  induction h with
  | arrived there =>
    cases hf
    obtain ⟨node, hn⟩ := hg.at?_isSome there
    exact ⟨node, .arrived hn⟩
  | stayed there dull _ ih =>
    obtain ⟨entries, hd⟩ := hg.at?_directory there
    obtain ⟨node, hw⟩ := ih hf hon
    exact ⟨node, .stayed hd dull hw⟩
  | wentUp there _ ih =>
    obtain ⟨entries, hd⟩ := hg.at?_directory there
    obtain ⟨node, hw⟩ := ih hf hon
    exact ⟨node, .wentUp hd hw⟩
  | missed named slashes =>
    cases hf with
    | absent there unlinked slashed =>
      exact ⟨_, .passed (hg.nameAt_new named there) unlinked
        (walks_slashes there slashes fun hne => slashed (by simpa using hne))⟩
  | unfollowed named last =>
    cases hf
    contradiction
  | followed named _ next =>
    obtain ⟨node, hn⟩ := hon _ _ next
    exact ⟨node, .followed (hg.nameAt_link named) (fun _ => rfl) hn⟩
  | passed named unlinked _ ih =>
    obtain ⟨_, named', unlinked'⟩ := hg.nameAt named unlinked
    obtain ⟨node, hw⟩ := ih hf hon
    exact ⟨node, .passed named' unlinked' hw⟩

/-- Where a walk ended, its path leads in the grown tree. -/
theorem Grows.place?_of_walk (hg : Grows before after) {path : FilePath}
    (hf : Filled after follow place spot) (h : walk before follow path = .ok place) :
    place? after path = some spot := by
  have hthrough : ∀ links here rest, walkThrough before follow links here rest = .ok place →
      ∃ node, walkThrough after true links here rest = .ok (.found spot node) := by
    intro links
    induction links with
    | zero =>
      intro _ _ hw
      obtain ⟨node, hw'⟩ := (walks_of_walkAlong hw).filled hg hf fun _ _ hstop => nomatch hstop
      exact ⟨node, walkAlong_of_walks hw'⟩
    | succ links ih =>
      intro _ _ hw
      obtain ⟨node, hw'⟩ := (walks_of_walkAlong hw).filled hg hf ih
      exact ⟨node, walkAlong_of_walks hw'⟩
  unfold walk at h
  split at h
  · contradiction
  · next hs =>
    obtain ⟨node, hw⟩ := hthrough _ _ _ h
    exact Files.place?_of_walk (by rw [walk, if_neg hs]; exact hw)

theorem Grows.place? (hg : Grows before after) {path : FilePath} (h : place? before path = some spot) :
    place? after path = some spot := by
  obtain ⟨node, hw⟩ := walk_of_place? h
  exact hg.place?_of_walk .found hw

end Walks

end PlanAssistant.Files
