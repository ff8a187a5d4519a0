import PlanAssistant.Files.Resolve
import PlanAssistant.Proofs.Files.PathText

/-!
Where walks end.  A walk that finds something ends at a real place of the tree.  On a clean path, which
has no link among its beginnings, it ends at the names of the path itself, and finds every beginning of
it on the way.
-/
namespace PlanAssistant.Files

/-! ### Places of a tree -/

theorem Node.at?_append (node : Node) (a b : List String) :
    node.at? (a ++ b) = (node.at? a).bind (·.at? b) := by
  induction a generalizing node with
  | nil => rfl
  | cons name a ih =>
    rw [List.cons_append, Node.at?, Node.at?]
    cases node.child? name with
    | none => rfl
    | some child => exact ih child

theorem Node.at?_concat {root : Node} {place : List String} {entries : Entries}
    (h : root.at? place = some (.directory entries)) (name : String) :
    root.at? (place ++ [name]) = lookup name entries := by
  rw [Node.at?_append, h]
  change (lookup name entries).bind some = _
  rw [Option.bind_fun_some]

/-! ### How walks go -/

variable [Interpreter]

section Walks

variable {tree : Node} {follow : Bool} {onLink : List String → List String → Except Fault Place}
  {here rest : List String} {name : String} {place : Place}

/-- A proper name comes up at a directory, which has the node under it or nothing. -/
structure NameAt (tree : Node) (here : List String) (name : String) (node : Option Node) : Prop where
  plain : isPlainName name = true
  notUp : name ≠ ".."
  short : Text.byteSize name ≤ nameLimit
  held : ∃ entries, tree.at? here = some (.directory entries) ∧ lookup name entries = node

theorem NameAt.at?_concat {node : Option Node} (h : NameAt tree here name node) :
    tree.at? (here ++ [name]) = node := by
  obtain ⟨entries, hn, hk⟩ := h.held
  rw [Node.at?_concat hn, hk]

/-- The ways of a walk that ends at a place, where links are handed on. -/
inductive Walks (tree : Node) (follow : Bool) (onLink : List String → List String → Except Fault Place) :
    List String → List String → Place → Prop where
  | arrived {here : List String} {node : Node} (there : tree.at? here = some node) :
      Walks tree follow onLink here [] (.found here node)
  | stayed {here rest : List String} {name : String} {place : Place} {entries : Entries}
      (there : tree.at? here = some (.directory entries)) (dull : isPlainName name = false)
      (next : Walks tree follow onLink here rest place) : Walks tree follow onLink here (name :: rest) place
  | wentUp {here rest : List String} {place : Place} {entries : Entries}
      (there : tree.at? here = some (.directory entries))
      (next : Walks tree follow onLink here.dropLast rest place) :
      Walks tree follow onLink here (".." :: rest) place
  | missed {here rest : List String} {name : String} (named : NameAt tree here name none)
      (slashes : rest.all (· == "") = true) :
      Walks tree follow onLink here (name :: rest) (.absent here name !rest.isEmpty)
  | unfollowed {here : List String} {name target : String}
      (named : NameAt tree here name (some (.link target))) (last : follow = false) :
      Walks tree follow onLink here [name] (.found (here ++ [name]) (.link target))
  | followed {here rest : List String} {name target : String} {place : Place}
      (named : NameAt tree here name (some (.link target))) (goes : rest = [] → follow = true)
      (next : onLink (if Text.startsWith target "/" then [] else here) (pieces target ++ rest) = .ok place) :
      Walks tree follow onLink here (name :: rest) place
  | passed {here rest : List String} {name : String} {node : Node} {place : Place}
      (named : NameAt tree here name (some node)) (unlinked : ∀ target, node ≠ .link target)
      (next : Walks tree follow onLink (here ++ [name]) rest place) :
      Walks tree follow onLink here (name :: rest) place

/-- A proper name is looked up in the directory. -/
theorem walkAlong_name {entries : Entries} (hn : tree.at? here = some (.directory entries))
    (hp : isPlainName name = true) (hd : name ≠ "..") (hl : Text.byteSize name ≤ nameLimit)
    (rest : List String) :
    walkAlong tree follow onLink here (name :: rest) =
      match lookup name entries with
      | none => if rest.all (· == "") then .ok (.absent here name !rest.isEmpty) else .error .noEntry
      | some (.link target) =>
        if rest.isEmpty && !follow then .ok (.found (here ++ [name]) (.link target))
        else onLink (if Text.startsWith target "/" then [] else here) (pieces target ++ rest)
      | some _ => walkAlong tree follow onLink (here ++ [name]) rest := by
  rw [walkAlong, hn]
  dsimp only
  rw [if_neg (by rw [hp]; decide), if_neg (by rw [beq_iff_eq]; exact hd)]
  exact if_neg (by omega)

/-- A walk between links that ends at a place goes by one of the ways. -/
theorem walks_of_walkAlong (h : walkAlong tree follow onLink here rest = .ok place) :
    Walks tree follow onLink here rest place := by
  induction rest generalizing here with
  | nil =>
    unfold walkAlong at h
    split at h
    · next there =>
      cases h
      exact .arrived there
    · contradiction
  | cons name rest ih =>
    unfold walkAlong at h
    split at h
    · next entries there =>
      split at h
      · next dull => exact .stayed there (by simpa using dull) (ih h)
      next plain =>
      split at h
      · next up =>
        obtain rfl := eq_of_beq up
        exact .wentUp there (ih h)
      next up =>
      split at h
      · contradiction
      next short =>
      have named : NameAt tree here name (lookup name entries) :=
        ⟨by simpa using plain, by simpa using up, by omega, entries, there, rfl⟩
      split at h
      · next hk =>
        split at h
        · next slashes =>
          cases h
          exact .missed (hk ▸ named) slashes
        · contradiction
      · next target hk =>
        split at h
        · next hlast =>
          cases h
          obtain ⟨hrest, last⟩ := Bool.and_eq_true_iff.mp hlast
          obtain rfl := List.isEmpty_iff.mp hrest
          exact .unfollowed (hk ▸ named) (by simpa using last)
        · next hlast => exact .followed (hk ▸ named) (by rintro rfl; simpa using hlast) h
      · next node unlinked hk => exact .passed (hk ▸ named) unlinked (ih h)
    · contradiction
    · contradiction

/-- By each of the ways a walk between links ends at its place. -/
theorem walkAlong_of_walks (h : Walks tree follow onLink here rest place) :
    walkAlong tree follow onLink here rest = .ok place := by
  induction h with
  | arrived there => rw [walkAlong, there]
  | stayed there dull _ ih =>
    rw [walkAlong, there]
    dsimp only
    rw [if_pos (by rw [dull]; rfl), ih]
  | wentUp there _ ih =>
    rw [walkAlong, there]
    exact ih
  | missed named slashes =>
    obtain ⟨entries, there, hk⟩ := named.held
    rw [walkAlong_name there named.plain named.notUp named.short, hk]
    exact if_pos slashes
  | unfollowed named last =>
    obtain ⟨entries, there, hk⟩ := named.held
    rw [walkAlong_name there named.plain named.notUp named.short, hk, last]
    rfl
  | followed named goes next =>
    obtain ⟨entries, there, hk⟩ := named.held
    rw [walkAlong_name there named.plain named.notUp named.short, hk]
    dsimp only
    rw [if_neg (by simpa using goes), next]
  | @passed here rest name node place named unlinked _ ih =>
    obtain ⟨entries, there, hk⟩ := named.held
    rw [walkAlong_name there named.plain named.notUp named.short, hk, ← ih]
    cases node with
    | link target => exact absurd rfl (unlinked target)
    | file content => rfl
    | directory inner => rfl

end Walks

/-! ### What walks find -/

/-- What was found is there, and what was not is missing from a directory. -/
def Place.In (tree : Node) : Place → Prop
  | .found place node => tree.at? place = some node
  | .absent directory name _ =>
    ∃ entries, tree.at? directory = some (.directory entries) ∧ lookup name entries = none

theorem Walks.in {tree : Node} {follow : Bool} {onLink : List String → List String → Except Fault Place}
    {here rest : List String} {place : Place}
    (hon : ∀ here rest, onLink here rest = .ok place → place.In tree)
    (h : Walks tree follow onLink here rest place) : place.In tree := by
  induction h with
  | arrived there => exact there
  | missed named => exact named.held
  | unfollowed named => exact named.at?_concat
  | followed _ _ next => exact hon _ _ next
  | stayed _ _ _ ih | wentUp _ _ ih | passed _ _ _ ih => exact ih hon

theorem in_of_walk {tree : Node} {follow : Bool} {path : FilePath} {place : Place}
    (h : walk tree follow path = .ok place) : place.In tree := by
  have hthrough : ∀ links here rest, walkThrough tree follow links here rest = .ok place →
      place.In tree := by
    intro links
    induction links with
    | zero =>
      refine fun _ _ hw => (walks_of_walkAlong hw).in ?_
      intro _ _ hstop
      contradiction
    | succ links ih => exact fun _ _ hw => (walks_of_walkAlong hw).in ih
  unfold walk at h
  split at h
  · contradiction
  · exact hthrough _ _ _ h

/-- What a walk finds is there. -/
theorem at?_of_walk {root : Node} {follow : Bool} {path : FilePath} {place : List String} {node : Node}
    (h : walk root follow path = .ok (.found place node)) : root.at? place = some node := in_of_walk h

/-- A walk that finds nothing ends at a directory that does not hold the name. -/
theorem directory_of_walk {tree : Node} {follow : Bool} {path : FilePath} {directory : List String}
    {name : String} {slash : Bool} (h : walk tree follow path = .ok (.absent directory name slash)) :
    ∃ entries, tree.at? directory = some (.directory entries) ∧ lookup name entries = none := in_of_walk h

/-! ### Clean paths -/

/-- A path with nothing to resolve: proper names, and no link among its beginnings. -/
structure Clean (root : Node) (names : List String) : Prop where
  plain : ∀ name ∈ names, isPlainName name = true ∧ name ≠ ".."
  unlinked : ∀ part, part <+: names → part ≠ [] → linkTarget? root part = none

namespace Clean

variable {root : Node} {names : List String}

theorem nil (root : Node) : Clean root [] where
  plain := fun _ h => absurd h List.not_mem_nil
  unlinked := fun _ h hne => absurd (List.prefix_nil.mp h) hne

theorem of_prefix (h : Clean root names) {part : List String} (hp : part <+: names) :
    Clean root part where
  plain := fun name hn => h.plain name (hp.subset hn)
  unlinked := fun part' hp' hne => h.unlinked part' (hp'.trans hp) hne

theorem concat (h : Clean root names) {name : String} (hp : isPlainName name = true) (hd : name ≠ "..")
    (hl : linkTarget? root (names ++ [name]) = none) : Clean root (names ++ [name]) where
  plain := by
    intro n hn
    rcases List.mem_append.mp hn with hn | hn
    · exact h.plain n hn
    · rw [List.mem_singleton.mp hn]
      exact ⟨hp, hd⟩
  unlinked := by
    intro part hpart hne
    rcases List.prefix_concat_iff.mp hpart with rfl | hpart
    · exact hl
    · exact h.unlinked part hpart hne

end Clean

/-- Walks that begin with `here` come there by exactly these names. -/
def Passable (root : Node) (here : List String) : Prop :=
  ∀ (follow : Bool) (onLink : List String → List String → Except Fault Place) (rest : List String),
    walkAlong root follow onLink [] (here ++ rest) = walkAlong root follow onLink here rest

theorem Passable.nil (root : Node) : Passable root [] := fun _ _ _ => rfl

/-- A walk of a passable place finds it. -/
theorem Passable.walk_eq {root : Node} {here : List String} (h : Passable root here) {node : Node}
    (hn : root.at? here = some node)
    (hs : Text.byteSize (FilePath.text ⟨.root, here⟩) < pathLimit) (follow : Bool) :
    walk root follow ⟨.root, here⟩ = .ok (.found here node) := by
  have ha := h follow (walkThrough root follow 39) []
  rw [List.append_nil] at ha
  rw [walk, if_neg (by omega)]
  change walkAlong root follow (walkThrough root follow 39) [] here = _
  rw [ha, walkAlong, hn]

/-- Where a walk over a proper name finds something, the name is a link or the walk goes on there. -/
theorem found_name {root : Node} {onLink : List String → List String → Except Fault Place}
    {here rest place : List String} {name : String} {node : Node} (hp : isPlainName name = true)
    (hd : name ≠ "..")
    (h : walkAlong root true onLink here (name :: rest) = .ok (.found place node)) :
    ∃ entries next, root.at? here = some (.directory entries) ∧ Text.byteSize name ≤ nameLimit ∧
      lookup name entries = some next ∧
      ((∃ target, next = .link target) ∨
        walkAlong root true onLink (here ++ [name]) rest = .ok (.found place node)) := by
  cases walks_of_walkAlong h with
  | stayed _ dull => exact absurd (hp.symm.trans dull) (by decide)
  | wentUp => exact absurd rfl hd
  | unfollowed _ last => contradiction
  | followed named =>
    obtain ⟨entries, hn, hk⟩ := named.held
    exact ⟨entries, _, hn, named.short, hk, .inl ⟨_, rfl⟩⟩
  | passed named _ next =>
    obtain ⟨entries, hn, hk⟩ := named.held
    exact ⟨entries, _, hn, named.short, hk, .inr (walkAlong_of_walks next)⟩

section Clean

variable {root : Node} {here rest : List String} {name : String} {entries : Entries}

/-- On a clean path the walk comes to no link: it would be seen. -/
theorem Passable.ne_link (h : Passable root here) (hc : Clean root (here ++ name :: rest))
    (hs : Text.byteSize (FilePath.text ⟨.root, here ++ name :: rest⟩) < pathLimit)
    (hn : root.at? here = some (.directory entries)) (hl : Text.byteSize name ≤ nameLimit)
    {node : Node} (hk : lookup name entries = some node) (target : String) : node ≠ .link target := by
  rintro rfl
  have hpart : here ++ [name] <+: here ++ name :: rest := ⟨rest, by simp⟩
  obtain ⟨hp, hd⟩ := hc.plain name (by simp)
  have hlt := Nat.lt_of_le_of_lt (byteSize_text_le hpart) hs
  have hw : walk root false ⟨.root, here ++ [name]⟩ = .ok (.found (here ++ [name]) (.link target)) := by
    rw [walk, if_neg (by omega)]
    change walkAlong root false (walkThrough root false 39) [] (here ++ [name]) = _
    rw [h, walkAlong_name hn hp hd hl, hk]
    rfl
  have hu := hc.unlinked _ hpart (by simp)
  rw [linkTarget?, linkStatus, hw] at hu
  contradiction

theorem Passable.concat (h : Passable root here) (hc : Clean root (here ++ name :: rest))
    (hs : Text.byteSize (FilePath.text ⟨.root, here ++ name :: rest⟩) < pathLimit)
    (hn : root.at? here = some (.directory entries)) (hl : Text.byteSize name ≤ nameLimit)
    {node : Node} (hk : lookup name entries = some node) : Passable root (here ++ [name]) := by
  obtain ⟨hp, hd⟩ := hc.plain name (by simp)
  intro follow onLink more
  rw [List.append_assoc, List.singleton_append, h, walkAlong_name hn hp hd hl, hk]
  cases node with
  | link target => exact absurd rfl (h.ne_link hc hs hn hl hk target)
  | file content => rfl
  | directory inner => rfl

/-- A walk along a clean path that finds something ends at its names, having passed all of them. -/
theorem passable_of_walkAlong {names : List String} (hc : Clean root names)
    (hs : Text.byteSize (FilePath.text ⟨.root, names⟩) < pathLimit)
    {onLink : List String → List String → Except Fault Place} {place : List String} {node : Node}
    (rest : List String) {here : List String} (he : here ++ rest = names) (hh : Passable root here)
    (h : walkAlong root true onLink here rest = .ok (.found place node)) :
    place = names ∧ ∀ more, more <+: rest →
      Passable root (here ++ more) ∧ ∃ node, root.at? (here ++ more) = some node := by
  induction rest generalizing here with
  | nil =>
    rw [List.append_nil] at he
    unfold walkAlong at h
    split at h
    · next hn =>
      cases h
      refine ⟨he, fun more hm => ?_⟩
      rw [List.prefix_nil.mp hm, List.append_nil]
      exact ⟨hh, _, hn⟩
    · contradiction
  | cons name rest ih =>
    subst he
    obtain ⟨hp, hd⟩ := hc.plain name (by simp)
    obtain ⟨entries, next, hn, hl, hk, hlink | hgo⟩ := found_name hp hd h
    · obtain ⟨target, ht⟩ := hlink
      exact absurd ht (hh.ne_link hc hs hn hl hk target)
    · obtain ⟨hplace, hmore⟩ := ih (by simp) (hh.concat hc hs hn hl hk) hgo
      refine ⟨hplace, fun more hm => ?_⟩
      cases more with
      | nil =>
        rw [List.append_nil]
        exact ⟨hh, _, hn⟩
      | cons first more =>
        obtain ⟨rfl, hrest⟩ := List.cons_prefix_cons.mp hm
        have hnext := hmore more hrest
        rwa [List.append_assoc, List.singleton_append] at hnext

/-- A clean path leads to the place it names, if anywhere, and so do its beginnings. -/
theorem walk_clean {names place : List String} {node : Node} (hc : Clean root names)
    (h : walk root true ⟨.root, names⟩ = .ok (.found place node)) :
    place = names ∧ ∀ part, part <+: names →
      ∃ node, walk root true ⟨.root, part⟩ = .ok (.found part node) := by
  have hs : Text.byteSize (FilePath.text ⟨.root, names⟩) < pathLimit := by
    unfold walk at h
    split at h
    · contradiction
    · omega
  have ha : walkAlong root true (walkThrough root true 39) [] names = .ok (.found place node) := by
    rw [walk, if_neg (by omega)] at h
    exact h
  obtain ⟨hplace, hmore⟩ := passable_of_walkAlong hc hs names rfl (Passable.nil root) ha
  refine ⟨hplace, fun part hpart => ?_⟩
  obtain ⟨hpass, next, hn⟩ := hmore part hpart
  exact ⟨next, hpass.walk_eq hn (Nat.lt_of_le_of_lt (byteSize_text_le hpart) hs) true⟩

end Clean
end PlanAssistant.Files
