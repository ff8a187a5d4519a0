import Mathlib.Data.List.Nodup
import PlanAssistant.Proofs.Files.Straight

/-!
The files of a tree.  A tree is well formed if a file system can hold it: its names are proper ones, of
bounded length, and no directory has two entries with one name.  The files outside the directories with
certain names are then those at the places that have no such name before the last, each of them once.
-/
namespace PlanAssistant.Files

/-! ### Well-formed trees -/

section WellFormed

variable [Interpreter] {entries : Entries} {tree node : Node} {name : String} {place : List String}

/-- A name that an entry of a directory can have. -/
def Ordinary (name : String) : Prop :=
  (Nameable name ∧ name ≠ "..") ∧ refusal? name.toList = none ∧ Text.byteSize name ≤ nameLimit

instance : DecidablePred Ordinary := fun name =>
  inferInstanceAs (Decidable (((isPlainName name = true ∧ '/' ∉ name.toList) ∧ name ≠ "..") ∧
    refusal? name.toList = none ∧ Text.byteSize name ≤ nameLimit))

mutual

/-- Whether all entries have ordinary names, and no two of one directory the same. -/
def Node.wellFormed : Node → Bool
  | .file _ => true
  | .link _ => true
  | .directory entries => entriesWellFormed entries

def entriesWellFormed : List (String × Node) → Bool
  | [] => true
  | (name, node) :: rest =>
    decide (Ordinary name) && !(rest.map (·.1)).contains name && node.wellFormed && entriesWellFormed rest

end

theorem entriesWellFormed_iff : entriesWellFormed entries = true ↔
    (entries.map (·.1)).Nodup ∧ ∀ entry ∈ entries, Ordinary entry.1 ∧ entry.2.wellFormed = true := by
  induction entries with
  | nil => simp [entriesWellFormed]
  | cons entry rest ih =>
    obtain ⟨name, node⟩ := entry
    simp only [entriesWellFormed, Bool.and_eq_true, decide_eq_true_eq, Bool.not_eq_true',
      ← Bool.not_eq_true, List.contains_iff_mem, ih, List.map_cons, List.nodup_cons, List.forall_mem_cons]
    constructor
    · rintro ⟨⟨⟨hname, hnew⟩, hnode⟩, hnodup, hrest⟩
      exact ⟨⟨hnew, hnodup⟩, ⟨hname, hnode⟩, hrest⟩
    · rintro ⟨⟨hnew, hnodup⟩, ⟨hname, hnode⟩, hrest⟩
      exact ⟨⟨⟨hname, hnew⟩, hnode⟩, hnodup, hrest⟩

/-- In a well-formed directory every entry is the one that its name leads to. -/
theorem lookup_eq_some_iff (h : entriesWellFormed entries = true) :
    lookup name entries = some node ↔ (name, node) ∈ entries := by
  obtain ⟨hnodup, -⟩ := entriesWellFormed_iff.mp h
  constructor
  · intro hl
    obtain ⟨entry, hf, rfl⟩ := Option.map_eq_some_iff.mp hl
    have hname : entry.1 = name := by simpa using List.find?_some hf
    rw [← hname]
    exact List.mem_of_find?_eq_some hf
  · intro hm
    obtain ⟨entry, hf⟩ : ∃ entry, entries.find? (·.1 == name) = some entry :=
      Option.isSome_iff_exists.mp (List.find?_isSome.mpr ⟨_, hm, beq_self_eq_true name⟩)
    have hname : entry.1 = name := by simpa using List.find?_some hf
    have hentry : entry = (name, node) :=
      List.inj_on_of_nodup_map hnodup (List.mem_of_find?_eq_some hf) hm hname
    rw [lookup, hf, hentry]
    rfl

/-- What is in a well-formed tree is well formed, and its place is made of ordinary names. -/
theorem wellFormed_at? (h : tree.wellFormed = true) (hn : tree.at? place = some node) :
    node.wellFormed = true ∧ ∀ name ∈ place, Ordinary name := by
  induction place generalizing tree with
  | nil =>
    obtain rfl := Option.some.inj hn
    exact ⟨h, fun _ hm => absurd hm List.not_mem_nil⟩
  | cons name place ih =>
    obtain ⟨child, hc, hrest⟩ := Option.bind_eq_some_iff.mp hn
    cases tree with
    | file content => nomatch hc
    | link target => nomatch hc
    | directory entries =>
      have hentries : entriesWellFormed entries = true := h
      obtain ⟨hname, hchild⟩ :=
        (entriesWellFormed_iff.mp hentries).2 _ ((lookup_eq_some_iff hentries).mp hc)
      obtain ⟨hnode, hplace⟩ := ih hchild hrest
      exact ⟨hnode, List.forall_mem_cons.mpr ⟨hname, hplace⟩⟩

end WellFormed

/-! ### Files outside certain directories -/

/-- The files of an entry, by their places from its directory on; none, if the entry is a directory with
one of the names. -/
def filesUnder (skipped : List String) (name : String) (node : Node)
    (files : List (List String × ByteArray)) : List (List String × ByteArray) :=
  if node.isDirectory && skipped.contains name then []
  else files.map fun file => (name :: file.1, file.2)

mutual

/-- The files of a tree, with their places, that are in no directory below it with one of the names. -/
def Node.filesOutside (skipped : List String) : Node → List (List String × ByteArray)
  | .file content => [([], content)]
  | .link _ => []
  | .directory entries => entriesFilesOutside skipped entries

def entriesFilesOutside (skipped : List String) : List (String × Node) → List (List String × ByteArray)
  | [] => []
  | (name, node) :: rest =>
    filesUnder skipped name node (node.filesOutside skipped) ++ entriesFilesOutside skipped rest

end

section FilesOutside

variable {skipped : List String} {entries : Entries} {node : Node} {name : String} {place : List String}
  {content : ByteArray} {files : List (List String × ByteArray)}

theorem mem_filesUnder :
    (place, content) ∈ filesUnder skipped name node files ↔
      (node.isDirectory = true → name ∉ skipped) ∧
        ∃ below, (below, content) ∈ files ∧ place = name :: below := by
  unfold filesUnder
  by_cases hs : node.isDirectory = true ∧ name ∈ skipped
  · simp [hs.1, hs.2]
  · rw [if_neg (by simpa using hs)]
    simp only [List.mem_map, Prod.mk.injEq, Prod.exists]
    constructor
    · rintro ⟨below, _, hm, rfl, rfl⟩
      exact ⟨not_and.mp hs, below, hm, rfl⟩
    · rintro ⟨-, below, hm, rfl⟩
      exact ⟨below, content, hm, rfl, rfl⟩

theorem nodup_filesUnder (h : (files.map (·.1)).Nodup) :
    ((filesUnder skipped name node files).map (·.1)).Nodup := by
  unfold filesUnder
  split
  · exact List.nodup_nil
  · have hcons : ((files.map (·.1)).map (name :: ·)).Nodup := h.map List.cons_injective
    rw [List.map_map] at hcons ⊢
    exact hcons

theorem mem_entriesFilesOutside :
    (place, content) ∈ entriesFilesOutside skipped entries ↔
      ∃ name node below, (name, node) ∈ entries ∧ (node.isDirectory = true → name ∉ skipped) ∧
        (below, content) ∈ node.filesOutside skipped ∧ place = name :: below := by
  induction entries with
  | nil => simp [entriesFilesOutside]
  | cons entry rest ih =>
    obtain ⟨first, node⟩ := entry
    rw [entriesFilesOutside, List.mem_append, mem_filesUnder, ih]
    constructor
    · rintro (⟨hs, below, hm, rfl⟩ | ⟨name, node, below, he, hs, hm, rfl⟩)
      · exact ⟨first, node, below, List.mem_cons_self, hs, hm, rfl⟩
      · exact ⟨name, node, below, List.mem_cons_of_mem _ he, hs, hm, rfl⟩
    · rintro ⟨name, other, below, he, hs, hm, rfl⟩
      rcases List.mem_cons.mp he with he | he
      · obtain ⟨rfl, rfl⟩ := Prod.mk.inj he
        exact .inl ⟨hs, below, hm, rfl⟩
      · exact .inr ⟨name, other, below, he, hs, hm, rfl⟩

/-- They are the files at the places with none of the names before the last. -/
theorem mem_filesOutside [Interpreter] (h : node.wellFormed = true) :
    (place, content) ∈ node.filesOutside skipped ↔
      node.at? place = some (.file content) ∧ ∀ name ∈ place.dropLast, name ∉ skipped := by
  induction place generalizing node with
  | nil =>
    cases node with
    | file own => simp [Node.filesOutside, Node.at?, eq_comm]
    | link target => simp [Node.filesOutside, Node.at?]
    | directory entries => simp [Node.filesOutside, Node.at?, mem_entriesFilesOutside]
  | cons name place ih =>
    cases node with
    | file own => simp [Node.filesOutside, Node.at?, Node.child?]
    | link target => simp [Node.filesOutside, Node.at?, Node.child?]
    | directory entries =>
      have hentries : entriesWellFormed entries = true := h
      have hbelow : ∀ child, (name, child) ∈ entries →
          ((place, content) ∈ child.filesOutside skipped ↔
            child.at? place = some (.file content) ∧ ∀ name ∈ place.dropLast, name ∉ skipped) :=
        fun child hm => ih ((entriesWellFormed_iff.mp hentries).2 _ hm).2
      rw [Node.filesOutside, mem_entriesFilesOutside]
      constructor
      · rintro ⟨name, child, below, he, hs, hm, hplace⟩
        obtain ⟨rfl, rfl⟩ := List.cons_eq_cons.mp hplace
        obtain ⟨hat, hnames⟩ := (hbelow child he).mp hm
        refine ⟨?_, ?_⟩
        · rw [Node.at?, Node.child?, (lookup_eq_some_iff hentries).mpr he]
          exact hat
        · cases place with
          | nil => simp
          | cons next place =>
            have hd : child.isDirectory = true := by
              cases child with
              | directory inner => rfl
              | file own => cases hat
              | link target => cases hat
            exact List.forall_mem_cons.mpr ⟨hs hd, hnames⟩
      · rintro ⟨hat, hnames⟩
        obtain ⟨child, hc, hat⟩ := Option.bind_eq_some_iff.mp hat
        have he := (lookup_eq_some_iff hentries).mp hc
        refine ⟨name, child, place, he, fun hd => ?_, (hbelow child he).mpr ⟨hat, ?_⟩, rfl⟩
        · cases place with
          | nil =>
            obtain rfl := Option.some.inj hat
            cases hd
          | cons next place => exact hnames name List.mem_cons_self
        · intro other ho
          refine hnames other ?_
          cases place with
          | nil => exact absurd ho List.not_mem_nil
          | cons next place => exact List.mem_cons_of_mem _ ho

mutual

/-- No place is listed twice. -/
theorem nodup_filesOutside [Interpreter] (skipped : List String) :
    ∀ node : Node, node.wellFormed = true → ((node.filesOutside skipped).map (·.1)).Nodup
  | .file _, _ => List.nodup_singleton _
  | .link _, _ => List.nodup_nil
  | .directory entries, h => nodup_entriesFilesOutside skipped entries h

theorem nodup_entriesFilesOutside [Interpreter] (skipped : List String) :
    ∀ entries : List (String × Node), entriesWellFormed entries = true →
      ((entriesFilesOutside skipped entries).map (·.1)).Nodup
  | [], _ => List.nodup_nil
  | (name, node) :: rest, h => by
    obtain ⟨hnodup, hall⟩ := entriesWellFormed_iff.mp h
    obtain ⟨⟨-, hnode⟩, hrest⟩ := List.forall_mem_cons.mp hall
    obtain ⟨hnew, hnames⟩ := List.nodup_cons.mp hnodup
    have hbelow := nodup_filesOutside skipped node hnode
    have hafter := nodup_entriesFilesOutside skipped rest (entriesWellFormed_iff.mpr ⟨hnames, hrest⟩)
    rw [entriesFilesOutside, List.map_append]
    refine List.nodup_append.mpr ⟨nodup_filesUnder hbelow, hafter, ?_⟩
    -- places from different entries begin with different names
    rintro _ hp _ ho rfl
    obtain ⟨⟨place, content⟩, hm, rfl⟩ := List.mem_map.mp hp
    obtain ⟨⟨_, content'⟩, hm', rfl⟩ := List.mem_map.mp ho
    obtain ⟨-, below, -, hplace⟩ := mem_filesUnder.mp hm
    obtain ⟨other, inner, below', he, -, -, hplace'⟩ := mem_entriesFilesOutside.mp hm'
    obtain ⟨rfl, -⟩ := List.cons_eq_cons.mp (hplace.symm.trans hplace')
    exact hnew (List.mem_map.mpr ⟨_, he, rfl⟩)

end

end FilesOutside
end PlanAssistant.Files
