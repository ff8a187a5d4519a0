import PlanAssistant.Proofs.Files.Growth

/-!
Straight ways.  Names that are followed one below the other, over no link, lead to the place they name,
and their path is its own real path.  In a directory that holds no link, all ways that never go up are
straight.
-/
namespace PlanAssistant.Files

/-- Names that are followed one below the other, over no link. -/
structure Straight (tree : Node) (names : List String) : Prop where
  plain : ∀ name ∈ names, isPlainName name = true ∧ name ≠ ".."
  unlinked : ∀ part, part <+: names → ∀ target, tree.mark? part ≠ some (.link target)

namespace Straight

variable {tree node : Node} {names place here rest : List String} {anchor : Anchor} {follow : Bool}
  {onLink : List String → List String → Except Fault Place}

theorem of_prefix (h : Straight tree names) {part : List String} (hp : part <+: names) :
    Straight tree part where
  plain := fun name hn => h.plain name (hp.subset hn)
  unlinked := fun part' hp' => h.unlinked part' (hp'.trans hp)

/-! ### Where straight ways lead -/

variable [Interpreter]

theorem eq_of_walks (h : Straight tree (here ++ rest))
    (hw : Walks tree follow onLink here rest (.found place node)) : place = here ++ rest := by
  induction rest generalizing here with
  | nil =>
    cases hw
    exact (List.append_nil _).symm
  | cons name rest ih =>
    obtain ⟨hp, hd⟩ := h.plain name (by simp)
    have hpart : here ++ [name] <+: here ++ name :: rest := ⟨rest, by simp⟩
    cases hw with
    | stayed _ dull => exact absurd (hp.symm.trans dull) (by decide)
    | wentUp => exact absurd rfl hd
    | unfollowed named | followed named =>
      exact absurd (mark?_of_at? named.at?_concat) (h.unlinked _ hpart _)
    | passed _ _ next =>
      rw [← List.singleton_append, ← List.append_assoc] at h ⊢
      exact ih h next

/-- A straight way leads to the place it names, if anywhere. -/
theorem eq_of_walk (h : Straight tree names)
    (hw : walk tree follow ⟨anchor, names⟩ = .ok (.found place node)) : place = names := by
  unfold walk at hw
  split at hw
  · contradiction
  · exact h.eq_of_walks (walks_of_walkAlong hw)

theorem eq_of_place? (h : Straight tree names) (hw : place? tree ⟨anchor, names⟩ = some place) :
    place = names :=
  have ⟨_, hw⟩ := walk_of_place? hw
  h.eq_of_walk hw

/-- A straight way to something is followed to its end. -/
theorem walks_found (h : Straight tree (here ++ rest)) (hs : ∀ name ∈ rest, Text.byteSize name ≤ nameLimit)
    (hn : tree.at? (here ++ rest) = some node) :
    Walks tree follow onLink here rest (.found (here ++ rest) node) := by
  induction rest generalizing here with
  | nil =>
    rw [List.append_nil] at hn ⊢
    exact .arrived hn
  | cons name rest ih =>
    obtain ⟨hp, hd⟩ := h.plain name (by simp)
    have hpart : here ++ [name] <+: here ++ name :: rest := ⟨rest, by simp⟩
    obtain ⟨parent, hparent, hbelow⟩ := Option.bind_eq_some_iff.mp (Node.at?_append tree here _ ▸ hn)
    obtain ⟨child, hchild, -⟩ := Option.bind_eq_some_iff.mp hbelow
    cases parent with
    | file content => nomatch hchild
    | link target => nomatch hchild
    | directory entries =>
      have named : NameAt tree here name (some child) :=
        ⟨hp, hd, hs name List.mem_cons_self, entries, hparent, hchild⟩
      refine .passed named ?_ ?_
      · rintro target rfl
        exact h.unlinked _ hpart target (mark?_of_at? named.at?_concat)
      · rw [List.append_cons here name rest] at h hn ⊢
        exact ih h (fun n hm => hs n (List.mem_cons_of_mem _ hm)) hn

theorem walk_eq (h : Straight tree names) (hs : ∀ name ∈ names, Text.byteSize name ≤ nameLimit)
    (hn : tree.at? names = some node) (anchor : Anchor) (follow : Bool) :
    walk tree follow ⟨anchor, names⟩ =
      if pathLimit ≤ Text.byteSize (FilePath.text ⟨anchor, names⟩) then .error .nameTooLong
      else .ok (.found names node) := by
  have hall : Straight tree ([] ++ names) := h
  rw [walk]
  congr 1
  exact walkAlong_of_walks (hall.walks_found hs hn)

/-- Only the length of its path can keep a straight way from what it leads to. -/
theorem status_eq (h : Straight tree names) (hs : ∀ name ∈ names, Text.byteSize name ≤ nameLimit)
    (hn : tree.at? names = some node) (anchor : Anchor) :
    status tree ⟨anchor, names⟩ =
      if pathLimit ≤ Text.byteSize (FilePath.text ⟨anchor, names⟩) then .error .nameTooLong
      else .ok node := by
  rw [status, h.walk_eq hs hn]
  by_cases hlong : pathLimit ≤ Text.byteSize (FilePath.text ⟨anchor, names⟩)
  · rw [if_pos hlong, if_pos hlong]
  · rw [if_neg hlong, if_neg hlong]

/-! ### Real paths of straight ways -/

/-- On a straight way there is nothing to resolve. -/
theorem clean (h : Straight tree names) : Clean tree names where
  plain := h.plain
  unlinked := by
    intro part hp _
    unfold linkTarget? linkStatus
    cases hw : walk tree false ⟨.root, part⟩ with
    | error fault => rfl
    | ok end_ =>
      cases end_ with
      | absent directory name slash => rfl
      | found place node =>
        cases node with
        | file content => rfl
        | directory entries => rfl
        | link target =>
          obtain rfl := (h.of_prefix hp).eq_of_walk hw
          exact absurd (mark?_of_at? (at?_of_walk hw)) (h.unlinked _ hp target)

/-- A straight way to something has itself as its real path, however long it is. -/
theorem resolve_eq (h : Straight tree names) (hs : ∀ name ∈ names, Text.byteSize name ≤ nameLimit)
    (hz : FilePath.refusal? ⟨anchor, names⟩ = none) (hn : tree.at? names = some node) :
    resolve tree ⟨anchor, names⟩ = .ok ⟨.root, names⟩ := by
  have hz' : FilePath.refusal? ⟨.root, names⟩ = none := hz
  rw [resolve, resolution_of_taken h.clean hz]
  dsimp only
  rw [hz', h.status_eq hs hn]
  by_cases hlong : pathLimit ≤ Text.byteSize (FilePath.text ⟨.root, names⟩)
  · rw [if_pos hlong]
  · rw [if_neg hlong]

end Straight

/-! ### Places below others -/

/-- What something lies below is a directory. -/
theorem mark?_of_below {tree node : Node} {place more : List String} (hm : more ≠ [])
    (h : tree.at? (place ++ more) = some node) : tree.mark? place = some .directory := by
  rw [Node.at?_append] at h
  obtain ⟨parent, hp, hr⟩ := Option.bind_eq_some_iff.mp h
  rw [mark?_of_at? hp]
  cases more with
  | nil => exact absurd rfl hm
  | cons name more =>
    obtain ⟨child, hc, -⟩ := Option.bind_eq_some_iff.mp hr
    cases parent with
    | directory entries => rfl
    | file content => cases hc
    | link target => cases hc

theorem linkCount_le_linkCounts {entries : Entries} {entry : String × Node} (h : entry ∈ entries) :
    entry.2.linkCount ≤ linkCounts entries := by
  induction entries with
  | nil => exact absurd h List.not_mem_nil
  | cons first entries ih =>
    rw [linkCounts]
    rcases List.mem_cons.mp h with rfl | h
    · omega
    · have := ih h
      omega

theorem linkCount_le_of_at? {tree node : Node} {place : List String} (h : tree.at? place = some node) :
    node.linkCount ≤ tree.linkCount := by
  induction place generalizing tree with
  | nil =>
    obtain rfl := Option.some.inj h
    exact Nat.le_refl _
  | cons name place ih =>
    obtain ⟨child, hc, hrest⟩ := Option.bind_eq_some_iff.mp h
    refine Nat.le_trans (ih hrest) ?_
    cases tree with
    | directory entries =>
      obtain ⟨entry, hf, rfl⟩ := Option.map_eq_some_iff.mp hc
      exact linkCount_le_linkCounts (List.mem_of_find?_eq_some hf)
    | file content => nomatch hc
    | link target => nomatch hc

/-- Below a directory without links, all ways that never go up are straight. -/
theorem straight_below {tree home : Node} {top names : List String} (hh : tree.at? top = some home)
    (hl : home.linkCount = 0) (ht : top <+: names)
    (hn : ∀ name ∈ names, isPlainName name = true ∧ name ≠ "..") : Straight tree names where
  plain := hn
  unlinked := by
    intro part hp target hm
    rcases List.prefix_or_prefix_of_prefix hp ht with ⟨more, rfl⟩ | ⟨more, rfl⟩
    · -- on the way to the directory
      cases more with
      | nil =>
        rw [List.append_nil] at hh
        obtain rfl := Option.some.inj (hh.symm.trans (mark?_eq_link.mp hm))
        exact absurd hl Nat.one_ne_zero
      | cons name more =>
        rw [mark?_of_below (List.cons_ne_nil name more) hh] at hm
        cases hm
    · have hat := mark?_eq_link.mp hm
      rw [Node.at?_append, hh] at hat
      have hle := linkCount_le_of_at? hat
      rw [hl, Node.linkCount] at hle
      omega

/-- Where there are no links, all ways that never go up are straight. -/
theorem straight_of_linkCount {tree : Node} {names : List String} (hl : tree.linkCount = 0)
    (hn : ∀ name ∈ names, isPlainName name = true ∧ name ≠ "..") : Straight tree names :=
  have hroot : tree.at? [] = some tree := rfl
  straight_below hroot hl List.nil_prefix hn

end PlanAssistant.Files
