import PlanAssistant.Proofs.Files.Walking

/-!
How the work on a real path ends.  Work that settles every link on the way ends with a clean path.  Work
that is stopped at a link met again spells out what is left: two dots there take back names whether or
not they are links, so that enough of them lead back to the root of the file system, and any names may
follow.
-/
namespace PlanAssistant.Files

/-! ### Names in tasks -/

/-- The names still to come have a property. -/
def NamesIn (T : String → Prop) (tasks : List Task) : Prop := ∀ name, Task.name name ∈ tasks → T name

theorem NamesIn.tail {T : String → Prop} {task : Task} {tasks : List Task}
    (h : NamesIn T (task :: tasks)) : NamesIn T tasks :=
  fun name hn => h name (List.mem_cons_of_mem _ hn)

theorem namesIn_map {T : String → Prop} {names : List String} (h : ∀ name ∈ names, T name) :
    NamesIn T (names.map .name) := by
  intro name hn
  obtain ⟨n, hn, he⟩ := List.mem_map.mp hn
  exact Task.name.inj he ▸ h n hn

/-! ### Spelling out -/

/-- Spelling out what is left adds proper names alone. -/
theorem forall_spellOut {Q : String → Prop} {fresh : Bool} {path : FilePath} {tasks : List Task}
    (hq : ∀ name ∈ path.names, Q name)
    (ht : NamesIn (fun name => isPlainName name = true → name ≠ ".." → Q name) tasks) :
    ∀ name ∈ (spellOut fresh path tasks).names, Q name := by
  induction tasks generalizing fresh path with
  | nil => exact hq
  | cons task rest ih =>
    cases task with
    | settled link => exact ih hq ht.tail
    | name name =>
      rw [spellOut]
      split
      · exact ih (fun _ hm => absurd hm List.not_mem_nil) ht.tail
      · refine ih ?_ ht.tail
        unfold FilePath.push
        split
        · exact hq
        next hp =>
        split
        · exact fun n hn => hq n ((List.dropLast_prefix _).subset hn)
        next hd =>
        intro n hn
        rcases List.mem_append.mp hn with hn | hn
        · exact hq n hn
        · rw [List.mem_singleton.mp hn]
          exact ht name List.mem_cons_self (by simpa using hp) (by simpa using hd)

/-- Spelling out starts at a root of the file system as before. -/
theorem isAbsolute_spellOut {fresh : Bool} {path : FilePath} (h : path.isAbsolute = true)
    (tasks : List Task) : (spellOut fresh path tasks).isAbsolute = true := by
  induction tasks generalizing fresh path with
  | nil => exact h
  | cons task rest ih =>
    cases task with
    | settled link => exact ih h
    | name name =>
      rw [spellOut]
      split
      · next hslash => exact ih (Bool.and_eq_true_iff.mp hslash).2
      · refine ih ?_
        unfold FilePath.push
        split
        · exact h
        · split <;> exact h

/-- The last task is no empty name, so that what comes after is not read as part of it. -/
def Bounded (tasks : List Task) : Prop := tasks.getLast? ≠ some (.name "")

theorem Bounded.tail {task : Task} {tasks : List Task} (h : Bounded (task :: tasks)) :
    Bounded tasks := by
  cases tasks with
  | nil => simp [Bounded]
  | cons next rest => rwa [Bounded, List.getLast?_cons_cons] at h

/-- A target is followed by its link. -/
theorem Bounded.target {rest : List Task} (h : Bounded rest) (target : List Task) (link : List String) :
    Bounded (target ++ .settled link :: rest) := by
  cases rest with
  | nil => simp [Bounded]
  | cons next rest => simpa [Bounded] using h

theorem bounded_names {names : List String} (hn : ∀ name ∈ names, isPlainName name = true) :
    Bounded (names.map .name) := by
  intro h
  obtain ⟨name, hm, he⟩ := List.mem_map.mp (List.mem_of_getLast? h)
  have hp := hn name hm
  rw [Task.name.inj he] at hp
  contradiction

theorem slashes_of_ne {name : String} (h : name ≠ "") (rest : List Task) :
    slashes (.name name :: rest) = 0 := by
  unfold slashes
  split
  · next heq => exact absurd (Task.name.inj (List.cons.inj heq).1) h
  · rfl

/-- A name leads on from where the work is. -/
theorem restAnchor_of_ne {name : String} (h : name ≠ "") (rest : List Task) :
    restAnchor (.name name :: rest) = .here := by
  simp only [restAnchor, slashes_of_ne h]

/-- The slashes in front of a bounded rest do not hang on what comes after it. -/
theorem slashes_append {tasks : List Task} (hb : Bounded tasks) (hne : tasks ≠ []) (more : List Task) :
    slashes (tasks ++ more) = slashes tasks := by
  induction tasks with
  | nil => contradiction
  | cons task rest ih =>
    cases task with
    | settled link => rfl
    | name name =>
      by_cases hname : name = ""
      · subst hname
        cases rest with
        | nil => exact absurd rfl hb
        | cons next rest =>
          cases next with
          | settled link => rfl
          | name name => exact congrArg (· + 1) (ih hb.tail (List.cons_ne_nil _ _))
      · rw [List.cons_append, slashes_of_ne hname, slashes_of_ne hname]

/-- Bounded tasks may be done first. -/
theorem spellOut_append {tasks : List Task} (hb : Bounded tasks) (fresh : Bool) (path : FilePath)
    (more : List Task) :
    ∃ again, spellOut fresh path (tasks ++ more) = spellOut again (spellOut fresh path tasks) more := by
  induction tasks generalizing fresh path with
  | nil => exact ⟨fresh, rfl⟩
  | cons task rest ih =>
    cases task with
    | settled link => exact ih hb.tail true path
    | name name =>
      have ha : restAnchor (.name name :: (rest ++ more)) = restAnchor (.name name :: rest) := by
        rw [restAnchor, restAnchor, ← List.cons_append, slashes_append hb (List.cons_ne_nil _ _)]
      simp only [List.cons_append, spellOut, ha]
      split
      · exact ih hb.tail false _
      · exact ih hb.tail false _

/-- Enough pairs of dots lead back to the root, whichever it is. -/
theorem spellOut_dots (fresh : Bool) {path : FilePath} {count : Nat} (h : path.names.length ≤ count)
    (more : List Task) : ∃ again, spellOut fresh path (List.replicate count (.name "..") ++ more) =
      spellOut again ⟨path.anchor, []⟩ more := by
  induction count generalizing fresh path with
  | zero =>
    obtain ⟨anchor, names⟩ := path
    obtain rfl := List.length_eq_zero_iff.mp (Nat.le_zero.mp h)
    exact ⟨fresh, rfl⟩
  | succ count ih =>
    have hl : path.parent.names.length ≤ count := by
      rw [FilePath.parent, List.length_dropLast]
      omega
    obtain ⟨again, he⟩ := ih false hl
    refine ⟨again, ?_⟩
    rw [List.replicate_succ, List.cons_append, spellOut, restAnchor_of_ne (by decide)]
    rw [show (fresh && Anchor.here != Anchor.here) = false from Bool.and_false fresh,
      if_neg (by decide)]
    exact he

/-- Proper names are spelled out as they stand. -/
theorem spellOut_names {names : List String} (hn : ∀ name ∈ names, Nameable name ∧ name ≠ "..")
    (fresh : Bool) (path : FilePath) :
    spellOut fresh path (names.map .name) = ⟨path.anchor, path.names ++ names⟩ := by
  induction names generalizing fresh path with
  | nil => rw [List.append_nil]; rfl
  | cons name names ih =>
    obtain ⟨⟨⟨hp, -⟩, hd⟩, hrest⟩ := List.forall_mem_cons.mp hn
    have hempty : name ≠ "" := by
      rintro rfl
      contradiction
    have hpush : path.push name = path.child name := by
      rw [FilePath.push, if_neg (by rw [hp]; decide), if_neg (by rw [beq_iff_eq]; exact hd)]
    rw [List.map_cons, spellOut, restAnchor_of_ne hempty,
      show (fresh && Anchor.here != Anchor.here) = false from Bool.and_false fresh,
      if_neg (by decide), hpush, ih hrest, FilePath.child, List.append_assoc]
    rfl

/-! ### What the work keeps -/

theorem Seen.mem_of_get? {seen : Seen} {link : List String} {real : Option (List String)}
    (h : seen.get? link = some real) : (link, real) ∈ seen := by
  obtain ⟨entry, hf, rfl⟩ := Option.map_eq_some_iff.mp h
  have hl : entry.1 = link := by simpa using List.find?_some hf
  rw [← hl]
  exact List.mem_of_find?_eq_some hf

/-- The real paths known by now have a property. -/
def Seen.All (P : List String → Prop) (seen : Seen) : Prop :=
  ∀ link real, (link, some real) ∈ seen → P real

variable [Interpreter]

/-- A property of the path at hand that no step breaks, given one of the names still to come. -/
structure Kept (root : Node) (P : List String → Prop) (T : String → Prop) : Prop where
  nil : P []
  dropLast : ∀ {here}, P here → P here.dropLast
  push : ∀ {here name}, P here → T name → isPlainName name = true → name ≠ ".." →
    linkTarget? root (here ++ [name]) = none → P (here ++ [name])
  target : ∀ target, ∀ name ∈ pieces target, T name

/-- How work ends that keeps a property: with a path that has it, or at a link met again after one. -/
def Resolution.EndsWith (P : List String → Prop) (T : String → Prop) (resolved : Resolution) : Prop :=
  (resolved.settled = true ∧ resolved.path.anchor = .root ∧ P resolved.path.names) ∨
    resolved.settled = false ∧ ∃ here name rest, P here ∧ T name ∧ isPlainName name = true ∧
      name ≠ ".." ∧ NamesIn T rest ∧ resolved.path = spellOut true ⟨.root, here ++ [name]⟩ rest

/-- The work keeps a property, wherever it is taken up. -/
def KeepsOn (P : List String → Prop) (T : String → Prop)
    (work : Seen → List String → List Task → Except ResolveError Resolution) : Prop :=
  ∀ seen here tasks resolved, seen.All P → P here → NamesIn T tasks →
    work seen here tasks = .ok resolved → resolved.EndsWith P T

section Invariant

variable {root : Node} {P : List String → Prop} {T : String → Prop}

theorem keepsOn_resolveAlong (hk : Kept root P T)
    {onLink : Seen → List String → List Task → Except ResolveError Resolution}
    (hon : KeepsOn P T onLink) : KeepsOn P T (resolveAlong root onLink) := by
  intro seen here tasks resolved hs hh ht h
  induction tasks generalizing seen here with
  | nil =>
    obtain rfl := Except.ok.inj h
    exact .inl ⟨rfl, rfl, hh⟩
  | cons task rest ih =>
    cases task with
    | settled link =>
      refine ih _ _ ?_ hh ht.tail h
      intro l real hm
      rcases List.mem_cons.mp hm with he | hm
      · obtain rfl := Option.some.inj (Prod.mk.inj he).2
        exact hh
      · exact hs l real hm
    | name name =>
      have hn : T name := ht name List.mem_cons_self
      rw [resolveAlong] at h
      split at h
      · exact ih _ _ hs hh ht.tail h
      next hp =>
      split at h
      · exact ih _ _ hs (hk.dropLast hh) ht.tail h
      next hd =>
      have hp : isPlainName name = true := by simpa using hp
      have hd : name ≠ ".." := by simpa using hd
      split at h
      · contradiction
      dsimp only at h
      split at h
      · next hl => exact ih _ _ hs (hk.push hh hn hp hd hl) ht.tail h
      next target hl =>
      split at h
      · next real hg => exact ih _ _ hs (hs _ _ (Seen.mem_of_get? hg)) ht.tail h
      · obtain rfl := Except.ok.inj h
        exact .inr ⟨rfl, here, name, rest, hh, hn, hp, hd, ht.tail, rfl⟩
      · refine hon _ _ _ _ ?_ ?_ ?_ h
        · intro l real hm
          rcases List.mem_cons.mp hm with he | hm
          · cases (Prod.mk.inj he).2
          · exact hs l real hm
        · split
          · exact hk.nil
          · exact hh
        · intro n hn
          rcases List.mem_append.mp hn with hn | hn
          · exact namesIn_map (hk.target target) n hn
          · rcases List.mem_cons.mp hn with he | hn
            · cases he
            · exact ht.tail n hn

theorem keepsOn_resolveThrough (hk : Kept root P T) (links : Nat) :
    KeepsOn P T (resolveThrough root links) := by
  induction links with
  | zero =>
    refine keepsOn_resolveAlong hk ?_
    intro seen here tasks resolved hs hh ht h
    obtain rfl := Except.ok.inj h
    exact .inl ⟨rfl, rfl, hh⟩
  | succ links ih => exact keepsOn_resolveAlong hk ih

/-- What the work keeps holds in the end. -/
theorem endsWith_resolution (hk : Kept root P T) {path : FilePath} (ht : ∀ name ∈ path.names, T name)
    {resolved : Resolution} (h : resolution root path = .ok resolved) : resolved.EndsWith P T :=
  keepsOn_resolveThrough hk _ [] [] _ _ (fun _ _ hm => absurd hm List.not_mem_nil) hk.nil
    (namesIn_map ht) h

end Invariant

/-- Work that settles every link ends with a clean path from the root. -/
theorem clean_resolution {root : Node} {path : FilePath} {resolved : Resolution}
    (h : resolution root path = .ok resolved) (hs : resolved.settled = true) :
    resolved.path.anchor = .root ∧ Clean root resolved.path.names := by
  have hk : Kept root (Clean root) fun _ => True :=
    { nil := .nil root
      dropLast := fun hc => hc.of_prefix (List.dropLast_prefix _)
      push := fun hc _ hp hd hl => hc.concat hp hd hl
      target := fun _ _ _ => trivial }
  rcases endsWith_resolution hk (fun _ _ => trivial) h with ⟨-, hc⟩ | ⟨hf, -⟩
  · exact hc
  · rw [hs] at hf
    contradiction

/-- On a clean path there is nothing to resolve; a name that is not taken is found all the same. -/
theorem resolveAlong_clean {root : Node}
    {onLink : Seen → List String → List Task → Except ResolveError Resolution} {seen : Seen}
    {here rest : List String} (hc : Clean root (here ++ rest)) :
    resolveAlong root onLink seen here (rest.map .name) =
      match rest.findSome? (refusal? ·.toList) with
      | some refusal => .error (.refused refusal)
      | none => .ok ⟨⟨.root, here ++ rest⟩, true⟩ := by
  induction rest generalizing here with
  | nil => rw [List.append_nil]; rfl
  | cons name rest ih =>
    obtain ⟨hp, hd⟩ := hc.plain name (by simp)
    have hl : linkTarget? root (here ++ [name]) = none := hc.unlinked _ ⟨rest, by simp⟩ (by simp)
    rw [List.append_cons] at hc ⊢
    rw [List.map_cons, resolveAlong, if_neg (by rw [hp]; decide), if_neg (by rw [beq_iff_eq]; exact hd),
      List.findSome?_cons]
    cases hz : refusal? name.toList with
    | some refusal => rfl
    | none =>
      simp only [hl]
      exact ih hc

/-- The work on a clean path ends with the path itself. -/
theorem resolution_clean {root : Node} {path : FilePath} (hc : Clean root path.names) :
    resolution root path =
      match path.names.findSome? (refusal? ·.toList) with
      | some refusal => .error (.refused refusal)
      | none => .ok ⟨⟨.root, path.names⟩, true⟩ := by
  have hnames : Clean root ([] ++ path.names) := hc
  unfold resolution
  cases root.linkCount with
  | zero => exact resolveAlong_clean hnames
  | succ links => exact resolveAlong_clean hnames

theorem resolution_of_taken {root : Node} {path : FilePath} (hc : Clean root path.names)
    (hz : path.refusal? = none) : resolution root path = .ok ⟨⟨.root, path.names⟩, true⟩ := by
  rw [resolution_clean hc, List.findSome?_eq_none_iff.mpr (FilePath.refusal?_eq_none_iff.mp hz)]

/-- The real path of a clean path is the path itself. -/
theorem resolution_of_clean {root : Node} {path : FilePath} {resolved : Resolution}
    (hc : Clean root path.names) (h : resolution root path = .ok resolved) :
    resolved = ⟨⟨.root, path.names⟩, true⟩ := by
  rw [resolution_clean hc] at h
  split at h
  · contradiction
  · exact (Except.ok.inj h).symm

/-! ### Names of real paths -/

/-- A real path is made of proper names. -/
theorem nameable_resolution {root : Node} {path : FilePath} {resolved : Resolution}
    (hp : ∀ name ∈ path.names, '/' ∉ name.toList) (h : resolution root path = .ok resolved) :
    ∀ name ∈ resolved.path.names, Nameable name ∧ name ≠ ".." := by
  have hk : Kept root (fun names => ∀ name ∈ names, Nameable name ∧ name ≠ "..")
      fun name => '/' ∉ name.toList :=
    { nil := fun _ hm => absurd hm List.not_mem_nil
      dropLast := fun hh n hn => hh n ((List.dropLast_prefix _).subset hn)
      push := fun hh ht hp hd _ => List.forall_mem_append.mpr
        ⟨hh, List.forall_mem_singleton.mpr ⟨⟨hp, ht⟩, hd⟩⟩
      target := slash_notMem_pieces }
  rcases endsWith_resolution hk hp h with ⟨-, -, hn⟩ | ⟨-, here, name, rest, hh, ht, hpl, hd, hr, he⟩
  · exact hn
  · rw [he]
    refine forall_spellOut ?_ fun n hm hpl hd => ⟨⟨hpl, hr n hm⟩, hd⟩
    exact List.forall_mem_append.mpr ⟨hh, List.forall_mem_singleton.mpr ⟨⟨hpl, ht⟩, hd⟩⟩

/-- A real path starts at a root of the file system. -/
theorem isAbsolute_resolution {root : Node} {path : FilePath} {resolved : Resolution}
    (h : resolution root path = .ok resolved) : resolved.path.isAbsolute = true := by
  have hk : Kept root (fun _ => True) fun _ => True :=
    { nil := trivial
      dropLast := fun _ => trivial
      push := fun _ _ _ _ _ => trivial
      target := fun _ _ _ => trivial }
  rcases endsWith_resolution hk (fun _ _ => trivial) h with
    ⟨-, ha, -⟩ | ⟨-, here, name, rest, -, -, -, -, -, he⟩
  · rw [FilePath.isAbsolute, ha]
    rfl
  · rw [he]
    exact isAbsolute_spellOut rfl rest

/-! ### Work that is stopped -/

/-- Work that stops at a link met again stops there whatever comes after, and spells that out too. -/
def StopsOn (work : Seen → List String → List Task → Except ResolveError Resolution) : Prop :=
  ∀ seen here tasks resolved, Bounded tasks → work seen here tasks = .ok resolved →
    resolved.settled = false → ∃ stuck rest, Bounded rest ∧ resolved.path = spellOut true stuck rest ∧
      ∀ more, work seen here (tasks ++ more) = .ok ⟨spellOut true stuck (rest ++ more), false⟩

theorem stopsOn_resolveAlong {root : Node}
    {onLink : Seen → List String → List Task → Except ResolveError Resolution}
    (hon : StopsOn onLink) : StopsOn (resolveAlong root onLink) := by
  intro seen here tasks resolved hb h hs
  induction tasks generalizing seen here with
  | nil =>
    obtain rfl := Except.ok.inj h
    contradiction
  | cons task rest ih =>
    cases task with
    | settled link => exact ih _ _ hb.tail h
    | name name =>
      simp only [List.cons_append, resolveAlong] at h ⊢
      split at h
      · next hp =>
        simp only [if_pos hp]
        exact ih _ _ hb.tail h
      next hp =>
      simp only [if_neg hp]
      split at h
      · next hd =>
        simp only [if_pos hd]
        exact ih _ _ hb.tail h
      next hd =>
      simp only [if_neg hd]
      split at h
      · contradiction
      split at h
      · exact ih _ _ hb.tail h
      next target hl =>
      split at h
      · exact ih _ _ hb.tail h
      · obtain rfl := Except.ok.inj h
        exact ⟨⟨.root, here ++ [name]⟩, rest, hb.tail, rfl, fun more => rfl⟩
      · obtain ⟨stuck, left, hleft, hpath, hmore⟩ := hon _ _ _ _ (hb.tail.target _ _) h hs
        refine ⟨stuck, left, hleft, hpath, fun more => ?_⟩
        have hm := hmore more
        rwa [List.append_assoc, List.cons_append] at hm

theorem stopsOn_resolveThrough (root : Node) (links : Nat) : StopsOn (resolveThrough root links) := by
  induction links with
  | zero =>
    refine stopsOn_resolveAlong ?_
    intro seen here tasks resolved _ h hs
    obtain rfl := Except.ok.inj h
    contradiction
  | succ links ih => exact stopsOn_resolveAlong ih

theorem resolveThrough_nil (root : Node) (links : Nat) (seen : Seen) (here : List String) :
    resolveThrough root links seen here [] = .ok ⟨⟨.root, here⟩, true⟩ := by
  cases links <;> rfl

/-- A path that stops the work can be carried on, over pairs of dots, to any names at all, from the
root that it stopped below. -/
theorem resolution_of_stop {root : Node} {path : FilePath} {resolved : Resolution}
    (hp : ∀ name ∈ path.names, isPlainName name = true)
    (h : resolution root path = .ok resolved) (hs : resolved.settled = false) :
    ∃ count, ∀ names : List String, (∀ name ∈ names, Nameable name ∧ name ≠ "..") →
      ∀ anchor, resolution root ⟨anchor, path.names ++ (List.replicate count ".." ++ names)⟩ =
        .ok ⟨⟨resolved.path.anchor, names⟩, false⟩ := by
  obtain ⟨stuck, rest, hb, hpath, hmore⟩ :=
    stopsOn_resolveThrough root _ [] [] _ _ (bounded_names hp) h hs
  refine ⟨resolved.path.names.length, fun names hn anchor => ?_⟩
  have hm := hmore (List.replicate resolved.path.names.length (.name "..") ++ names.map .name)
  obtain ⟨again, he⟩ := spellOut_append hb true stuck
    (List.replicate resolved.path.names.length (.name "..") ++ names.map .name)
  obtain ⟨last, hd⟩ := spellOut_dots again (Nat.le_refl resolved.path.names.length) (names.map .name)
  rw [he, ← hpath, hd, spellOut_names hn, List.nil_append] at hm
  rw [resolution, List.map_append, List.map_append, List.map_replicate]
  exact hm

end PlanAssistant.Files
