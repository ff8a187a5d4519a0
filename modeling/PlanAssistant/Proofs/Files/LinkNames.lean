import PlanAssistant.Proofs.Files.Inside

/-!
The names of links.  Work on a real path meets a link by the last name it has taken up.  So if no target
in a tree contains the name of a link, no link is met while a target is resolved, and nothing loops.
-/
namespace PlanAssistant.Files

mutual

/-- The links in a node with a name, each with its own name and its target. -/
def Node.linksNamed (name : String) : Node → List (String × String)
  | .file _ => []
  | .link target => [(name, target)]
  | .directory entries => entriesLinks entries

def entriesLinks : List (String × Node) → List (String × String)
  | [] => []
  | (name, node) :: rest => node.linksNamed name ++ entriesLinks rest

end

/-- The links of a tree. -/
def Node.links (tree : Node) : List (String × String) := tree.linksNamed ""

/-- No target of a link contains the name of a link. -/
def LinksApart (tree : Node) : Prop :=
  ∀ link ∈ tree.links, ∀ other ∈ tree.links, other.1 ∉ pieces link.2

instance : DecidablePred LinksApart := fun tree =>
  inferInstanceAs (Decidable (∀ link ∈ tree.links, ∀ other ∈ tree.links, other.1 ∉ pieces link.2))

/-! ### Where links are met -/

section Met

variable {tree : Node} {name target : String}

theorem linksNamed_subset_of_mem {entries : Entries} {entry : String × Node} (h : entry ∈ entries) :
    entry.2.linksNamed entry.1 ⊆ entriesLinks entries := by
  induction entries with
  | nil => exact absurd h List.not_mem_nil
  | cons first rest ih =>
    rw [entriesLinks]
    rcases List.mem_cons.mp h with rfl | h
    · exact List.subset_append_left _ _
    · exact List.Subset.trans (ih h) (List.subset_append_right _ _)

/-- A link below a node is among its links, with the last name of its place. -/
theorem mem_linksNamed_of_at? {node : Node} {own : String} {place : List String}
    (h : node.at? (place ++ [name]) = some (.link target)) : (name, target) ∈ node.linksNamed own := by
  induction place generalizing node own with
  | nil =>
    obtain ⟨child, hc, hlast⟩ := Option.bind_eq_some_iff.mp h
    obtain rfl := Option.some.inj hlast
    cases node with
    | file content => nomatch hc
    | link other => nomatch hc
    | directory entries =>
      obtain ⟨entry, hf, he⟩ := Option.map_eq_some_iff.mp hc
      have hsub := linksNamed_subset_of_mem (List.mem_of_find?_eq_some hf)
      have hname : entry.1 = name := by simpa using List.find?_some hf
      rw [he, hname] at hsub
      exact hsub (List.mem_singleton_self _)
  | cons first place ih =>
    obtain ⟨child, hc, hrest⟩ := Option.bind_eq_some_iff.mp h
    cases node with
    | file content => nomatch hc
    | link other => nomatch hc
    | directory entries =>
      obtain ⟨entry, hf, rfl⟩ := Option.map_eq_some_iff.mp hc
      exact linksNamed_subset_of_mem (List.mem_of_find?_eq_some hf) (ih hrest)

/-- A link that is not followed is found under the last name. -/
theorem Walks.last_name [Interpreter] {onLink : List String → List String → Except Fault Place}
    {here rest place : List String} {node : Node} (hp : isPlainName name = true) (hd : name ≠ "..")
    (hon : ∀ here rest, rest.getLast? = some name → onLink here rest = .ok (.found place node) →
      ∃ parent, place = parent ++ [name])
    (h : Walks tree false onLink here rest (.found place node)) (hl : rest.getLast? = some name) :
    ∃ parent, place = parent ++ [name] := by
  generalize he : Place.found place node = last at h
  induction h with
  | arrived => nomatch hl
  | @stayed _ rest other _ _ _ dull _ ih =>
    cases rest with
    | nil =>
      obtain rfl := Option.some.inj hl
      exact absurd (hp.symm.trans dull) (by decide)
    | cons next rest => exact ih (by simpa using hl) he
  | @wentUp _ rest _ _ _ _ ih =>
    cases rest with
    | nil => exact absurd (Option.some.inj hl).symm hd
    | cons next rest => exact ih (by simpa using hl) he
  | missed => nomatch he
  | unfollowed =>
    obtain ⟨rfl, -⟩ := Place.found.inj he
    obtain rfl := Option.some.inj hl
    exact ⟨_, rfl⟩
  | @followed _ rest _ _ _ _ goes next =>
    subst he
    cases rest with
    | nil => exact absurd (goes rfl) (by decide)
    | cons second rest => exact hon _ _ (by simpa using hl) next
  | @passed here rest other _ _ _ _ next ih =>
    cases rest with
    | nil =>
      subst he
      obtain rfl := Option.some.inj hl
      cases next
      exact ⟨_, rfl⟩
    | cons second rest => exact ih (by simpa using hl) he

variable [Interpreter]

theorem mem_links_of_linkTarget? {here : List String} (hp : isPlainName name = true) (hd : name ≠ "..")
    (h : linkTarget? tree (here ++ [name]) = some target) : (name, target) ∈ tree.links := by
  have hthrough : ∀ links here rest place node, rest.getLast? = some name →
      walkThrough tree false links here rest = .ok (.found place node) →
      ∃ parent, place = parent ++ [name] := by
    intro links
    induction links with
    | zero =>
      refine fun _ _ _ _ hl hw => (walks_of_walkAlong hw).last_name hp hd ?_ hl
      intro _ _ _ hstop
      contradiction
    | succ links ih =>
      exact fun _ _ _ _ hl hw =>
        (walks_of_walkAlong hw).last_name hp hd (fun _ _ hl' hw' => ih _ _ _ _ hl' hw') hl
  unfold linkTarget? linkStatus at h
  split at h
  · next found hs =>
    obtain rfl := Option.some.inj h
    split at hs
    · next place node hw =>
      obtain rfl := Except.ok.inj hs
      have hat := at?_of_walk hw
      unfold walk at hw
      split at hw
      · contradiction
      obtain ⟨parent, rfl⟩ := hthrough _ _ _ _ _ (by simp) hw
      exact mem_linksNamed_of_at? hat
    · contradiction
    · contradiction
  · contradiction

end Met

/-! ### Work that settles all links -/

/-- Work on names alone, with every link so far settled, or on the target of a link, which contains the
name of no link, with all others settled. -/
inductive Settling (tree : Node) (seen : Seen) : List Task → Prop where
  | between {names : List String} (settled : ∀ link, seen.get? link ≠ some none) :
      Settling tree seen (names.map .name)
  | within {inner outer : List String} {link : List String}
      (apart : ∀ name ∈ inner, ∀ other ∈ tree.links, other.1 ≠ name)
      (settled : ∀ other, other ≠ link → seen.get? other ≠ some none) :
      Settling tree seen (inner.map .name ++ .settled link :: outer.map .name)

theorem Seen.get?_cons (seen : Seen) (link other : List String) (real : Option (List String)) :
    Seen.get? ((link, real) :: seen) other = if other = link then some real else seen.get? other := by
  unfold Seen.get?
  by_cases h : other = link
  · rw [if_pos h, List.find?_cons_of_pos (by simp [h])]
    rfl
  · rw [if_neg h, List.find?_cons_of_neg (by simpa using Ne.symm h)]

section Settling

variable {tree : Node} {seen : Seen} {here : List String} {tasks : List Task} {resolved : Resolution}

theorem Settling.tail {name : String} (h : Settling tree seen (.name name :: tasks)) :
    Settling tree seen tasks := by
  generalize he : Task.name name :: tasks = all at h
  cases h with
  | @between names settled =>
    cases names with
    | nil => nomatch he
    | cons first names =>
      obtain ⟨-, rfl⟩ := List.cons_eq_cons.mp he
      exact .between settled
  | @within inner outer link apart settled =>
    cases inner with
    | nil => nomatch he
    | cons first inner =>
      obtain ⟨-, rfl⟩ := List.cons_eq_cons.mp he
      exact .within (List.forall_mem_cons.mp apart).2 settled

/-- A link is met between targets only, so all links met before are settled. -/
theorem Settling.settled_of_mem {name target : String} (h : Settling tree seen (.name name :: tasks))
    (hm : (name, target) ∈ tree.links) :
    (∃ names : List String, tasks = names.map .name) ∧ ∀ link, seen.get? link ≠ some none := by
  generalize he : Task.name name :: tasks = all at h
  cases h with
  | @between names settled =>
    cases names with
    | nil => nomatch he
    | cons first names => exact ⟨⟨names, (List.cons_eq_cons.mp he).2⟩, settled⟩
  | @within inner outer link apart settled =>
    cases inner with
    | nil => nomatch he
    | cons first inner =>
      obtain ⟨hname, -⟩ := List.cons_eq_cons.mp he
      exact absurd (Task.name.inj hname) (apart first List.mem_cons_self _ hm)

theorem Settling.of_settled {link : List String} (h : Settling tree seen (.settled link :: tasks))
    (here : List String) : Settling tree ((link, some here) :: seen) tasks := by
  generalize he : Task.settled link :: tasks = all at h
  cases h with
  | @between names settled => cases names <;> nomatch he
  | @within inner outer own apart settled =>
    cases inner with
    | cons first inner => nomatch he
    | nil =>
      obtain ⟨hlink, rfl⟩ := List.cons_eq_cons.mp he
      obtain rfl := Task.settled.inj hlink
      refine .between fun other => ?_
      rw [Seen.get?_cons]
      split
      · nofun
      · next hne => exact settled other hne

variable [Interpreter]

theorem settled_resolveAlong (hx : LinksApart tree)
    {onLink : Seen → List String → List Task → Except ResolveError Resolution}
    (hon : ∀ seen here tasks resolved, Settling tree seen tasks → onLink seen here tasks = .ok resolved →
      resolved.settled = true)
    (hs : Settling tree seen tasks) (h : resolveAlong tree onLink seen here tasks = .ok resolved) :
    resolved.settled = true := by
  induction tasks generalizing seen here with
  | nil =>
    obtain rfl := Except.ok.inj h
    rfl
  | cons task rest ih =>
    cases task with
    | settled link => exact ih (hs.of_settled here) h
    | name name =>
      rw [resolveAlong] at h
      split at h
      · exact ih hs.tail h
      next hp =>
      split at h
      · exact ih hs.tail h
      next hd =>
      split at h
      · contradiction
      dsimp only at h
      split at h
      · exact ih hs.tail h
      next target hl =>
      have hm := mem_links_of_linkTarget? (by simpa using hp) (by simpa using hd) hl
      obtain ⟨⟨names, rfl⟩, settled⟩ := hs.settled_of_mem hm
      split at h
      · exact ih (.between settled) h
      · next hg => exact absurd hg (settled _)
      · refine hon _ _ _ _ (.within (fun piece hpiece other ho => ?_) fun other hne => ?_) h
        · rintro rfl
          exact hx _ hm other ho hpiece
        · rw [Seen.get?_cons, if_neg hne]
          exact settled other

/-- If no target contains the name of a link, nothing loops. -/
theorem LinksApart.not_loops (hx : LinksApart tree) : ¬ Loops tree := by
  have hthrough : ∀ links seen here tasks resolved, Settling tree seen tasks →
      resolveThrough tree links seen here tasks = .ok resolved → resolved.settled = true := by
    intro links
    induction links with
    | zero =>
      refine fun _ _ _ _ hs h => settled_resolveAlong hx (fun _ _ _ _ _ hstop => ?_) hs h
      obtain rfl := Except.ok.inj hstop
      rfl
    | succ links ih => exact fun _ _ _ _ hs h => settled_resolveAlong hx ih hs h
  rintro ⟨path, resolved, -, hr, hf⟩
  have hnone : ∀ link, Seen.get? [] link ≠ some none := by
    intro link hg
    contradiction
  have ht := hthrough _ _ _ _ _ (.between hnone) hr
  exact absurd (ht.symm.trans hf) (by decide)

end Settling
end PlanAssistant.Files
