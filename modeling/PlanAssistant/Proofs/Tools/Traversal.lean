import Mathlib.Data.List.Dedup
import Mathlib.Order.Lattice.Nat

/-!
Breadth-first order.  The nodes of a graph in this order are those of its layers, one layer after the
other, each node at its first position; the layers themselves repeat nodes, without end where there are
cycles.  A search that keeps a queue and passes over what it has visited goes through a beginning of this
order, and through all of it once its queue is empty.
-/
namespace PlanAssistant.Traversal

/-! ### First occurrences -/

section FirstOccurrences

variable {α : Type} [DecidableEq α]

theorem eraseDups_filter (p : α → Bool) (l : List α) :
    (l.filter p).eraseDups = l.eraseDups.filter p := by
  match l with
  | [] => rfl
  | a :: l =>
    have hlt : (l.filter fun b => !b == a).length < (a :: l).length :=
      Nat.lt_succ_of_le (List.length_filter_le _ _)
    have ih := eraseDups_filter p (l.filter fun b => !b == a)
    rw [List.eraseDups_cons]
    cases hp : p a with
    | true =>
      rw [List.filter_cons_of_pos hp, List.filter_cons_of_pos hp, List.eraseDups_cons, ← ih,
        List.filter_comm]
    | false =>
      have hf : (l.filter p).filter (fun b => !b == a) = l.filter p := by
        refine List.filter_eq_self.mpr fun b hb => ?_
        have hpb := (List.mem_filter.mp hb).2
        have hne : b ≠ a := fun he => by rw [he, hp] at hpb; contradiction
        simpa using hne
      rw [List.filter_cons_of_neg (by simp [hp]), List.filter_cons_of_neg (by simp [hp]), ← ih,
        List.filter_comm, hf]
termination_by l.length
decreasing_by exact hlt

theorem nodup_eraseDups (l : List α) : l.eraseDups.Nodup := by
  match l with
  | [] => exact List.nodup_nil
  | a :: l =>
    have hlt : (l.filter fun b => !b == a).length < (a :: l).length :=
      Nat.lt_succ_of_le (List.length_filter_le _ _)
    rw [List.eraseDups_cons, List.nodup_cons]
    refine ⟨fun hm => ?_, nodup_eraseDups _⟩
    have hne := (List.mem_filter.mp (List.mem_eraseDups.mp hm)).2
    simp at hne
termination_by l.length
decreasing_by exact hlt

theorem length_eraseDups_le (l : List α) : l.eraseDups.length ≤ l.length := by
  have hsub : l.eraseDups ⊆ l := fun _ ha => List.mem_eraseDups.mp ha
  exact ((nodup_eraseDups l).subperm hsub).length_le

theorem prefix_eraseDups {l l' : List α} (h : l <+: l') : l.eraseDups <+: l'.eraseDups := by
  obtain ⟨more, rfl⟩ := h
  rw [List.eraseDups_append]
  exact List.prefix_append _ _

/-- What repeats earlier members alone adds nothing. -/
theorem eraseDups_append_of_subset {l more : List α} (h : more ⊆ l) :
    (l ++ more).eraseDups = l.eraseDups := by
  have hnil : more.removeAll l = [] := by
    refine List.filter_eq_nil_iff.mpr fun a ha => ?_
    simpa using h ha
  rw [List.eraseDups_append, hnil]
  exact List.append_nil _

theorem eraseDups_concat_of_notMem {l : List α} {a : α} (h : a ∉ l) :
    (l ++ [a]).eraseDups = l.eraseDups ++ [a] := by
  have hone : [a].removeAll l = [a] := by
    refine List.filter_eq_self.mpr fun b hb => ?_
    rw [List.mem_singleton.mp hb]
    simpa using h
  rw [List.eraseDups_append, hone]
  rfl

theorem eraseDups_append_congr (l : List α) {a b : List α} (h : a.eraseDups = b.eraseDups) :
    (l ++ a).eraseDups = (l ++ b).eraseDups := by
  rw [List.eraseDups_append, List.eraseDups_append, List.removeAll, List.removeAll, eraseDups_filter,
    eraseDups_filter, h]

/-- A member that is met again leads to nothing new. -/
theorem eraseDups_flatMap (f : α → List α) (l : List α) :
    (l.flatMap f).eraseDups = (l.eraseDups.flatMap f).eraseDups := by
  induction l using List.reverseRecOn with
  | nil => rfl
  | append_singleton l a ih =>
    rw [List.flatMap_append, List.flatMap_singleton]
    by_cases ha : a ∈ l
    · have hf : f a ⊆ l.flatMap f := fun b hb => List.mem_flatMap.mpr ⟨a, ha, hb⟩
      rw [eraseDups_append_of_subset hf,
        eraseDups_append_of_subset (List.cons_subset.mpr ⟨ha, List.nil_subset _⟩), ih]
    · have hr : (f a).removeAll (l.flatMap f) = (f a).removeAll (l.eraseDups.flatMap f) := by
        refine List.filter_congr fun b _ => ?_
        congr 1
        rw [Bool.eq_iff_iff, List.elem_iff, List.elem_iff]
        simp only [List.mem_flatMap, List.mem_eraseDups]
      rw [eraseDups_concat_of_notMem ha, List.flatMap_append, List.flatMap_singleton,
        List.eraseDups_append, ih, hr]
      exact List.eraseDups_append.symm

end FirstOccurrences

/-! ### Layers -/

variable {α : Type} [DecidableEq α] (next : α → List α) (start : α)

/-- The ends of all walks of a length, in the order in which the walks branch. -/
def layer : Nat → List α
  | 0 => [start]
  | length + 1 => (layer length).flatMap next

/-- The nodes of the first layers, each at its first position. -/
def firstLayers (depth : Nat) : List α := ((List.range depth).flatMap (layer next start)).eraseDups

/-- The nodes that walks lead to, in breadth-first order: further layers add none. -/
def IsBreadthFirst (order : List α) : Prop :=
  ∃ depth, ∀ deeper, depth ≤ deeper → firstLayers next start deeper = order

variable {next start}

omit [DecidableEq α] in
theorem flatMap_layer_succ (depth : Nat) :
    (List.range (depth + 1)).flatMap (layer next start) =
      start :: ((List.range depth).flatMap (layer next start)).flatMap next := by
  rw [List.range_succ_eq_map, List.flatMap_cons, List.flatMap_map, List.flatMap_assoc]
  rfl

/-- One layer more: the start, and what the nodes so far lead to. -/
theorem firstLayers_succ (depth : Nat) :
    firstLayers next start (depth + 1) =
      (start :: (firstLayers next start depth).flatMap next).eraseDups := by
  unfold firstLayers
  rw [flatMap_layer_succ]
  exact eraseDups_append_congr [start] (eraseDups_flatMap next _)

theorem prefix_firstLayers {depth deeper : Nat} (h : depth ≤ deeper) :
    firstLayers next start depth <+: firstLayers next start deeper := by
  obtain ⟨more, rfl⟩ := Nat.exists_eq_add_of_le h
  refine prefix_eraseDups ?_
  rw [List.range_add, List.flatMap_append]
  exact List.prefix_append _ _

/-- Where the layers hold only so many nodes, there is a last new one. -/
theorem exists_isBreadthFirst {bound : Nat} (h : ∀ depth, (firstLayers next start depth).length ≤ bound) :
    ∃ order, IsBreadthFirst next start order := by
  have hbdd : BddAbove (Set.range fun depth => (firstLayers next start depth).length) :=
    ⟨bound, by rintro _ ⟨depth, rfl⟩; exact h depth⟩
  obtain ⟨depth, hmax⟩ := Nat.sSup_mem (Set.range_nonempty _) hbdd
  refine ⟨firstLayers next start depth, depth, fun deeper hd => ?_⟩
  have hle : (firstLayers next start deeper).length ≤ (firstLayers next start depth).length := by
    exact (le_csSup hbdd ⟨deeper, rfl⟩).trans_eq hmax.symm
  exact ((prefix_firstLayers hd).eq_of_length_le hle).symm

/-- A layer that adds no node is the last to add any. -/
theorem isBreadthFirst_firstLayers {depth : Nat}
    (h : firstLayers next start (depth + 1) = firstLayers next start depth) :
    IsBreadthFirst next start (firstLayers next start depth) := by
  refine ⟨depth, fun deeper hd => ?_⟩
  induction deeper, hd using Nat.le_induction with
  | base => rfl
  | succ deeper _ ih => rw [firstLayers_succ, ih, ← firstLayers_succ, h]

theorem IsBreadthFirst.unique {order other : List α} (h : IsBreadthFirst next start order)
    (h' : IsBreadthFirst next start other) : order = other := by
  obtain ⟨depth, hd⟩ := h
  obtain ⟨depth', hd'⟩ := h'
  rw [← hd _ (Nat.le_max_left depth depth'), hd' _ (Nat.le_max_right depth depth')]

theorem IsBreadthFirst.prefix_of {order : List α} (h : IsBreadthFirst next start order) (depth : Nat) :
    firstLayers next start depth <+: order := by
  obtain ⟨last, hl⟩ := h
  rw [← hl _ (Nat.le_max_right depth last)]
  exact prefix_firstLayers (Nat.le_max_left depth last)

theorem IsBreadthFirst.nodup {order : List α} (h : IsBreadthFirst next start order) : order.Nodup := by
  obtain ⟨depth, hd⟩ := h
  rw [← hd depth (Nat.le_refl depth)]
  exact nodup_eraseDups _

/-- The order holds the start, what its nodes lead to, and nothing else. -/
theorem IsBreadthFirst.mem_iff {order : List α} (h : IsBreadthFirst next start order) {a : α} :
    a ∈ order ↔ a = start ∨ ∃ b ∈ order, a ∈ next b := by
  obtain ⟨depth, hd⟩ := h
  have hfix : order = (start :: order.flatMap next).eraseDups := by
    have hsucc : firstLayers next start (depth + 1) = _ := firstLayers_succ depth
    rwa [hd _ (Nat.le_succ depth), hd _ (Nat.le_refl depth)] at hsucc
  conv_lhs => rw [hfix]
  rw [List.mem_eraseDups, List.mem_cons, List.mem_flatMap]

/-! ### Searches with a queue -/

variable (next start) in
/-- A search that has taken `popped` off its queue: the queue gets what each node leads to when the node
is visited, and a node is visited when it is taken off for the first time. -/
structure Explored (popped queue visited : List α) : Prop where
  queue_eq : popped ++ queue = start :: visited.flatMap next
  visited_eq : visited = popped.eraseDups
  reached : ∃ depth, visited <+: firstLayers next start depth

namespace Explored

variable {popped queue visited : List α} {node : α}

variable (next start) in
theorem begin : Explored next start [] [start] [] where
  queue_eq := rfl
  visited_eq := rfl
  reached := ⟨0, List.nil_prefix⟩

/-- Whatever is taken off the queue lies in the next layers. -/
theorem prefix_of_popped (h : Explored next start popped queue visited) {more : List α}
    (hp : more <+: popped ++ queue) : ∃ depth, more.eraseDups <+: firstLayers next start depth := by
  obtain ⟨depth, hd⟩ := h.reached
  refine ⟨depth + 1, ?_⟩
  rw [firstLayers_succ]
  refine prefix_eraseDups (hp.trans ?_)
  rw [h.queue_eq]
  exact List.cons_prefix_cons.mpr ⟨rfl, hd.flatMap next⟩

/-- A node that was visited before is passed over. -/
theorem again (h : Explored next start popped (node :: queue) visited) (hn : node ∈ visited) :
    Explored next start (popped ++ [node]) queue visited where
  queue_eq := by rw [List.append_assoc, List.singleton_append, h.queue_eq]
  visited_eq := by
    rw [h.visited_eq, List.mem_eraseDups] at hn
    rw [eraseDups_append_of_subset (List.cons_subset.mpr ⟨hn, List.nil_subset _⟩), h.visited_eq]
  reached := h.reached

/-- A node that was not visited before is visited. -/
theorem visit (h : Explored next start popped (node :: queue) visited) (hn : node ∉ visited) :
    Explored next start (popped ++ [node]) (queue ++ next node) (visited ++ [node]) := by
  have hv : visited ++ [node] = (popped ++ [node]).eraseDups := by
    rw [h.visited_eq, List.mem_eraseDups] at hn
    rw [eraseDups_concat_of_notMem hn, h.visited_eq]
  refine ⟨?_, hv, ?_⟩
  · rw [List.append_assoc, List.singleton_append, ← List.cons_append, ← List.append_assoc, h.queue_eq,
      List.flatMap_append, List.flatMap_singleton]
    rfl
  · rw [hv]
    exact h.prefix_of_popped ⟨queue, by rw [List.append_assoc]; rfl⟩

theorem prefix_order (h : Explored next start popped queue visited) {order : List α}
    (ho : IsBreadthFirst next start order) : visited <+: order := by
  obtain ⟨depth, hd⟩ := h.reached
  exact hd.trans (ho.prefix_of depth)

/-- A search that has emptied its queue has visited every node. -/
theorem isBreadthFirst (h : Explored next start popped [] visited) :
    IsBreadthFirst next start visited := by
  -- what the visited nodes lead to is visited too, so that no layer gets beyond them
  have hfix : visited = (start :: visited.flatMap next).eraseDups := by
    rw [← h.queue_eq, List.append_nil]
    exact h.visited_eq
  have hle : ∀ depth, firstLayers next start depth <+: visited := by
    intro depth
    induction depth with
    | zero => exact List.nil_prefix
    | succ depth ih =>
      rw [firstLayers_succ, hfix]
      exact prefix_eraseDups (List.cons_prefix_cons.mpr ⟨rfl, ih.flatMap next⟩)
  obtain ⟨depth, hd⟩ := h.reached
  refine ⟨depth, fun deeper hdeep => ?_⟩
  exact (hle deeper).eq_of_length_le (hd.trans (prefix_firstLayers hdeep)).length_le

end Explored
end PlanAssistant.Traversal
