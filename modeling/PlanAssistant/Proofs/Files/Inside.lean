import PlanAssistant.Proofs.Files.RealPath

/-!
What lies inside a root, physically: at a place below the place the root leads to.  A real path inside
the root by its names leads to such a place when its links were settled.  Where the work on some path is
stopped, it only does so unless a way of names leads out of the root, over a link.
-/
namespace PlanAssistant.Files

theorem FilePath.isWithin_iff {path base : FilePath} :
    path.isWithin base = true ↔ path.anchor = base.anchor ∧ base.names <+: path.names := by
  rw [isWithin, Bool.and_eq_true, beq_iff_eq, List.isPrefixOf_iff_prefix]

/-! ### Trees with proper names -/

mutual

/-- Whether all entries have proper names. -/
def Node.wellNamed : Node → Bool
  | .file _ => true
  | .link _ => true
  | .directory entries => entriesWellNamed entries

def entriesWellNamed : List (String × Node) → Bool
  | [] => true
  | (name, node) :: rest =>
    isPlainName name && !name.toList.contains '/' && node.wellNamed && entriesWellNamed rest

end

theorem nameable_of_mem {entries : Entries} (h : entriesWellNamed entries = true) :
    ∀ entry ∈ entries, Nameable entry.1 ∧ entry.2.wellNamed = true := by
  induction entries with
  | nil => exact fun _ hm => absurd hm List.not_mem_nil
  | cons entry entries ih =>
    obtain ⟨name, node⟩ := entry
    simp only [entriesWellNamed, Bool.and_eq_true, Bool.not_eq_true', ← Bool.not_eq_true,
      List.contains_iff_mem] at h
    obtain ⟨⟨⟨hp, hs⟩, hn⟩, hr⟩ := h
    exact List.forall_mem_cons.mpr ⟨⟨⟨hp, hs⟩, hn⟩, ih hr⟩

theorem wellNamed_at? {tree : Node} (h : tree.wellNamed = true) {place : List String} {node : Node}
    (hn : tree.at? place = some node) : node.wellNamed = true := by
  induction place generalizing tree with
  | nil =>
    obtain rfl := Option.some.inj hn
    exact h
  | cons name place ih =>
    obtain ⟨child, hc, hrest⟩ := Option.bind_eq_some_iff.mp hn
    refine ih ?_ hrest
    cases tree with
    | directory entries =>
      obtain ⟨entry, hf, rfl⟩ := Option.map_eq_some_iff.mp hc
      exact (nameable_of_mem h entry (List.mem_of_find?_eq_some hf)).2
    | file content => cases hc
    | link target => cases hc

/-! ### Places inside -/

variable [Interpreter]

/-- The real place a path leads to, if something is there. -/
def place? (tree : Node) (path : FilePath) : Option (List String) :=
  match walk tree true path with
  | .ok (.found place _) => some place
  | _ => none

theorem place?_of_walk {tree node : Node} {path : FilePath} {place : List String}
    (h : walk tree true path = .ok (.found place node)) : place? tree path = some place := by
  rw [place?, h]

theorem walk_of_place? {tree : Node} {path : FilePath} {place : List String}
    (h : place? tree path = some place) : ∃ node, walk tree true path = .ok (.found place node) := by
  unfold place? at h
  split at h
  · next node hw =>
    obtain rfl := Option.some.inj h
    exact ⟨node, hw⟩
  · contradiction

/-- A real place in the directory that a root leads to. -/
def LiesIn (tree : Node) (root : FilePath) (place : List String) : Prop :=
  ∃ base ∈ place? tree root, base <+: place

instance (tree : Node) (root : FilePath) (place : List String) : Decidable (LiesIn tree root place) :=
  inferInstanceAs (Decidable (∃ base ∈ place? tree root, base <+: place))

/-- Wherever a path leads, it is inside the root. -/
def Confined (tree : Node) (root path : FilePath) : Prop :=
  ∀ place ∈ place? tree path, LiesIn tree root place

instance (tree : Node) (root path : FilePath) : Decidable (Confined tree root path) :=
  inferInstanceAs (Decidable (∀ place ∈ place? tree path, LiesIn tree root place))

/-- Some path stops the work on its real path: it meets a link again that it is about to settle. -/
def Loops (tree : Node) : Prop :=
  ∃ (path : FilePath) (resolved : Resolution), (∀ name ∈ path.names, Nameable name) ∧
    resolution tree path = .ok resolved ∧ resolved.settled = false

/-- Some path stops the work below this root of the file system: what is left of the path is spelled
out from there. -/
def LoopsBelow (tree : Node) (anchor : Anchor) : Prop :=
  ∃ (path : FilePath) (resolved : Resolution), (∀ name ∈ path.names, Nameable name) ∧
    resolution tree path = .ok resolved ∧ resolved.settled = false ∧ resolved.path.anchor = anchor

/-- Names alone lead into the root, and still out of it. -/
def WayOut (tree : Node) (root : FilePath) : Prop :=
  ∃ names : List String, (∀ name ∈ names, (Nameable name ∧ name ≠ "..") ∧ refusal? name.toList = none) ∧
    root.names <+: names ∧ ¬ Confined tree root ⟨root.anchor, names⟩

/-- A clean path inside the root by its names leads inside. -/
theorem Clean.confined {tree : Node} {root : FilePath} {names : List String} (hc : Clean tree names)
    (hi : FilePath.isWithin ⟨.root, names⟩ root = true) : Confined tree root ⟨.root, names⟩ := by
  intro place hm
  obtain ⟨node, hw⟩ := walk_of_place? hm
  obtain ⟨ha, hp⟩ := FilePath.isWithin_iff.mp hi
  obtain ⟨rfl, hparts⟩ := walk_clean hc hw
  obtain ⟨base, hb⟩ := hparts root.names hp
  have hr : root = ⟨.root, root.names⟩ := by
    rw [show Anchor.root = root.anchor from ha]
  rw [hr]
  exact ⟨root.names, place?_of_walk hb, hp⟩

section Resolve

variable {tree : Node} {path real : FilePath}

/-- What the real path of a path comes from. -/
theorem resolution_of_resolve (h : resolve tree path = .ok real) :
    ∃ resolved, resolution tree path = .ok resolved ∧ real = resolved.path ∧ real.refusal? = none ∧
      status tree real ≠ .error .tooManyLinks := by
  unfold resolve at h
  split at h
  · contradiction
  next found settled hr =>
  split at h
  · contradiction
  next hz =>
  split at h
  · contradiction
  next hlinks =>
  obtain rfl := Except.ok.inj h
  exact ⟨⟨found, settled⟩, hr, rfl, hz, hlinks⟩

/-- A real path is made of proper names. -/
theorem nameable_resolve (hp : ∀ name ∈ path.names, Nameable name) (h : resolve tree path = .ok real) :
    ∀ name ∈ real.names, (Nameable name ∧ name ≠ "..") ∧ refusal? name.toList = none := by
  obtain ⟨resolved, hr, rfl, hz, -⟩ := resolution_of_resolve h
  exact fun name hn => ⟨nameable_resolution (fun n hm => (hp n hm).2) hr name hn,
    FilePath.refusal?_eq_none_iff.mp hz name hn⟩

/-- A real path whose links were all settled leads inside if it lies there by its names. -/
theorem confined_of_settled {root : FilePath} {resolved : Resolution}
    (h : resolution tree path = .ok resolved) (hs : resolved.settled = true)
    (hi : resolved.path.isWithin root = true) : Confined tree root resolved.path := by
  obtain ⟨ha, hc⟩ := clean_resolution h hs
  have hown : resolved.path = ⟨.root, resolved.path.names⟩ := by rw [← ha]
  rw [hown] at hi ⊢
  exact hc.confined hi

/-- Unless both a loop and a way out are there, real paths inside by their names lead inside. -/
theorem confined_resolve {root : FilePath} (hx : ¬ (LoopsBelow tree root.anchor ∧ WayOut tree root))
    (hp : ∀ name ∈ path.names, Nameable name) (h : resolve tree path = .ok real)
    (hi : real.isWithin root = true) : Confined tree root real := by
  have hn := nameable_resolve hp h
  obtain ⟨resolved, hr, rfl, -⟩ := resolution_of_resolve h
  cases hs : resolved.settled with
  | true => exact confined_of_settled hr hs hi
  | false =>
    obtain ⟨ha, hwithin⟩ := FilePath.isWithin_iff.mp hi
    refine Classical.byContradiction fun hc => hx ⟨⟨path, resolved, hp, hr, hs, ha⟩, ?_⟩
    exact ⟨resolved.path.names, hn, hwithin, by rwa [← ha]⟩

/-- Where there is a loop, every way of names out of the root is the real path of some path. -/
theorem exists_resolve_of_loops {anchor : Anchor} (hl : LoopsBelow tree anchor)
    {names place : List String}
    (hn : ∀ name ∈ names, (Nameable name ∧ name ≠ "..") ∧ refusal? name.toList = none)
    (hw : place? tree ⟨anchor, names⟩ = some place) :
    ∃ long : List String, long ≠ [] ∧ (∀ name ∈ long, Nameable name) ∧
      resolve tree ⟨.root, long⟩ = .ok ⟨anchor, names⟩ := by
  obtain ⟨node, hw⟩ := walk_of_place? hw
  obtain ⟨path, resolved, hp, hr, hs, rfl⟩ := hl
  obtain ⟨count, hmore⟩ := resolution_of_stop (fun name hm => (hp name hm).1) hr hs
  refine ⟨path.names ++ (List.replicate count ".." ++ names), ?_, ?_, ?_⟩
  · intro he
    obtain ⟨hnil, -⟩ := List.append_eq_nil_iff.mp he
    rw [resolution, hnil, List.map_nil, resolveThrough_nil] at hr
    obtain rfl := Except.ok.inj hr
    contradiction
  · refine List.forall_mem_append.mpr ⟨hp, List.forall_mem_append.mpr ⟨?_, fun n hm => (hn n hm).1.1⟩⟩
    intro name hm
    rw [List.eq_of_mem_replicate hm]
    exact ⟨by decide, by decide⟩
  · have hz : FilePath.refusal? ⟨resolved.path.anchor, names⟩ = none :=
      FilePath.refusal?_eq_none_iff.mpr fun name hm => (hn name hm).2
    rw [resolve, hmore names (fun n hm => (hn n hm).1) .root]
    dsimp only
    rw [hz, status, hw]

end Resolve

end PlanAssistant.Files
