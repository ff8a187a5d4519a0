import PlanAssistant.Proofs.Tools.SearchOrder

/-!
What a search costs.  Every turn of its loop takes one path off the queue, and the queue grows only where
a directory is listed, by no more paths than the directory has entries.  A directory is listed, and a file
opened, only where its path is visited for the first time; so links that lead back cost one turn each, and
the turns are bounded by the entries of the directories that were listed.
-/
namespace PlanAssistant.Tools.Search

open Files

/-- What a turn of the loop does with the path that it takes off the queue. -/
inductive Turn where
  | lists (directory : FilePath) (names : List String)
  | opens (file : FilePath) (content : ByteArray)
  | passes (path : FilePath)

namespace Turn

/-- How many entries are listed. -/
def entryCount : Turn → Nat
  | lists _ names => names.length
  | opens .. => 0
  | passes _ => 0

/-- The directory that is listed, if one is. -/
def listed : Turn → List FilePath
  | lists directory _ => [directory]
  | opens .. => []
  | passes _ => []

/-- The file that is opened, if one is. -/
def opened : Turn → List FilePath
  | lists .. => []
  | opens file _ => [file]
  | passes _ => []

end Turn

variable [Interpreter]

/-- All that a turn can do to a search, by what it does with the path. -/
inductive Moves (setting : Setting) : Search → Turn → Search → Prop
  /-- Listing a directory that was not visited before. -/
  | lists {path : FilePath} {names : List String} {queue visited opened : List FilePath}
      {found : List Match} (fresh : path ∉ visited) (listed : listNames setting.tree path = .ok names) :
    Moves setting ⟨path :: queue, visited, opened, found⟩ (.lists path names)
      ⟨queue ++ children setting path names, path :: visited, opened, found⟩
  /-- Reading a file that was not visited before and is not too large. -/
  | opens {path : FilePath} {content : ByteArray} {queue visited opened : List FilePath}
      {found : List Match} (fresh : path ∉ visited) (read : readBytes setting.tree path = .ok content)
      (small : content.size ≤ largestFile) (more : List Match) :
    Moves setting ⟨path :: queue, visited, opened, found⟩ (.opens path content)
      ⟨queue, path :: visited, opened ++ [path], found ++ more⟩
  /-- Passing by what was visited before, and what is neither a directory nor a file to be read. -/
  | passes {path : FilePath} {queue visited opened : List FilePath} {found : List Match}
      (visited' : List FilePath) (kept : visited ⊆ visited')
      (why : path ∈ visited ∨ (∀ names, listNames setting.tree path ≠ .ok names) ∧
        ∀ content, readBytes setting.tree path = .ok content → largestFile < content.size) :
    Moves setting ⟨path :: queue, visited, opened, found⟩ (.passes path)
      ⟨queue, visited', opened, found⟩

section Turns

variable {setting : Setting} {search next : Search}

/-- Every step is one such turn. -/
theorem moves_of_step (h : step setting search = some next) : ∃ turn, Moves setting search turn next := by
  obtain ⟨queue, visited, opened, found⟩ := search
  unfold step at h
  split at h
  · contradiction
  dsimp only at h
  split at h
  · contradiction
  next path rest _ =>
  split at h
  · next hv =>
    obtain rfl := Option.some.inj h
    exact ⟨.passes path, .passes visited (List.Subset.refl visited) (.inl (by simpa using hv))⟩
  next hv =>
  have fresh : path ∉ visited := by simpa using hv
  have kept : visited ⊆ path :: visited := List.subset_cons_self path visited
  obtain rfl := Option.some.inj h
  unfold visit
  cases hs : status setting.tree path with
  | error fault => exact ⟨.passes path, .passes _ kept (.inr (by simp [listNames, readBytes, hs]))⟩
  | ok node =>
    cases node with
    | link target => exact ⟨.passes path, .passes _ kept (.inr (by simp [listNames, readBytes, hs]))⟩
    | directory entries =>
      have hl : listNames setting.tree path = .ok (sortedNames entries) := by rw [listNames, hs]; rfl
      simp only [hl]
      exact ⟨.lists path _, .lists fresh hl⟩
    | file content =>
      by_cases hlarge : largestFile < content.size
      · simp only [if_pos hlarge]
        exact ⟨.passes path, .passes _ kept (.inr (by simpa [listNames, readBytes, hs] using hlarge))⟩
      · simp only [if_neg hlarge]
        have hr : readBytes setting.tree path = .ok content := by rw [readBytes, hs]
        exact ⟨.opens path content, .opens fresh hr (Nat.le_of_not_lt hlarge) _⟩

/-- The turns of a search from its start on. -/
inductive Course (setting : Setting) (path : FilePath) : List Turn → Search → Prop
  | start : Course setting path [] (Search.start path)
  | turn {turns : List Turn} {turn : Turn} {search next : Search}
      (course : Course setting path turns search) (step : step setting search = some next)
      (moves : Moves setting search turn next) : Course setting path (turns ++ [turn]) next

theorem exists_course_advance {path : FilePath} {turns : List Turn}
    (h : Course setting path turns search) (steps : Nat) :
    ∃ turns, Course setting path turns (advance setting steps search) := by
  induction steps generalizing turns search with
  | zero => exact ⟨turns, h⟩
  | succ steps ih =>
    rw [advance]
    split
    · exact ⟨turns, h⟩
    · next next hs =>
      obtain ⟨turn, hm⟩ := moves_of_step hs
      exact ih (h.turn hs hm)

end Turns

/-! ### Accounts -/

theorem length_children_le (setting : Setting) (directory : FilePath) (names : List String) :
    (children setting directory names).length ≤ names.length := List.length_filterMap_le _ _

/-- A turn takes one path off the queue and puts no more on it than entries are listed. -/
theorem Moves.length_queue_lt {setting : Setting} {turn : Turn} {search next : Search}
    (h : Moves setting search turn next) : next.queue.length < search.queue.length + turn.entryCount := by
  cases h with
  | @lists path names =>
    have hc := length_children_le setting path names
    simp only [Turn.entryCount, List.length_append, List.length_cons]
    omega
  | opens | passes => exact Nat.lt_succ_self _

/-- The accounts of a search after some turns. -/
structure Affords (turns : List Turn) (search : Search) : Prop where
  /-- Each path on the queue was put there by the start or by an entry that was listed. -/
  turns_le : turns.length + search.queue.length ≤ 1 + (turns.map Turn.entryCount).sum
  listed_sub : turns.flatMap Turn.listed ⊆ search.visited
  listed_nodup : (turns.flatMap Turn.listed).Nodup
  opened_eq : turns.flatMap Turn.opened = search.opened
  opened_sub : search.opened ⊆ search.visited
  opened_nodup : search.opened.Nodup
  opened_le : search.opened.length ≤ fileBudget
  small : ∀ file content, .opens file content ∈ turns → content.size ≤ largestFile

omit [Interpreter] in
theorem affords_start (path : FilePath) : Affords [] (Search.start path) where
  turns_le := Nat.le_refl 1
  listed_sub := List.nil_subset _
  listed_nodup := List.nodup_nil
  opened_eq := rfl
  opened_sub := List.nil_subset _
  opened_nodup := List.nodup_nil
  opened_le := Nat.zero_le _
  small := fun _ _ hm => absurd hm List.not_mem_nil

/-- A turn keeps the accounts. -/
theorem Affords.turn {setting : Setting} {turns : List Turn} {turn : Turn} {search next : Search}
    (h : Affords turns search) (hover : ¬ search.isOver = true) (hm : Moves setting search turn next) :
    Affords (turns ++ [turn]) next := by
  obtain ⟨hopened, -⟩ := not_isOver hover
  have hturns : (turns ++ [turn]).length + next.queue.length ≤
      1 + ((turns ++ [turn]).map Turn.entryCount).sum := by
    have hle := h.turns_le
    have hlt := hm.length_queue_lt
    simp only [List.length_append, List.length_singleton, List.map_append, List.map_cons, List.map_nil,
      List.sum_append, List.sum_singleton]
    omega
  cases hm with
  | @lists path names queue visited opened found fresh listed =>
    have hgrow : visited ⊆ path :: visited := List.subset_cons_self path visited
    have hnew : path ∉ turns.flatMap Turn.listed := fun hp => fresh (h.listed_sub hp)
    refine ⟨hturns, ?_, ?_, ?_, List.Subset.trans h.opened_sub hgrow, h.opened_nodup, h.opened_le, ?_⟩
    · simpa [Turn.listed] using List.Subset.trans h.listed_sub hgrow
    · simpa [Turn.listed] using List.Nodup.concat hnew h.listed_nodup
    · simpa [Turn.opened] using h.opened_eq
    · simpa using h.small
  | @opens path content queue visited opened found fresh read small more =>
    have hgrow : visited ⊆ path :: visited := List.subset_cons_self path visited
    have hnew : path ∉ opened := fun hp => fresh (h.opened_sub hp)
    refine ⟨hturns, ?_, ?_, ?_, ?_, ?_, ?_, ?_⟩
    · simpa [Turn.listed] using List.Subset.trans h.listed_sub hgrow
    · simpa [Turn.listed] using h.listed_nodup
    · simpa [Turn.opened] using h.opened_eq
    · simpa using List.Subset.trans h.opened_sub hgrow
    · simpa using List.Nodup.concat hnew h.opened_nodup
    · simpa using hopened
    · simpa [or_imp, forall_and, small] using h.small
  | @passes path queue visited opened found visited' kept _ =>
    refine ⟨hturns, ?_, ?_, ?_, List.Subset.trans h.opened_sub kept, h.opened_nodup, h.opened_le, ?_⟩
    · simpa [Turn.listed] using List.Subset.trans h.listed_sub kept
    · simpa [Turn.listed] using h.listed_nodup
    · simpa [Turn.opened] using h.opened_eq
    · simpa using h.small

theorem Course.affords {setting : Setting} {path : FilePath} {turns : List Turn} {search : Search}
    (h : Course setting path turns search) : Affords turns search := by
  induction h with
  | start => exact affords_start path
  | @turn turns turn search next course step moves ih =>
    refine ih.turn (fun hover => ?_) moves
    rw [Search.step, if_pos hover] at step
    contradiction

/-- A search from any path in any workspace comes to its end, after at most one turn more than there are
entries in the directories it lists.  It lists no directory and opens no file twice, opens no more files
than it may, and none that is too large. -/
theorem exists_course_run (setting : Setting) (path : FilePath) :
    ∃ turns, Course setting path turns (run setting path) ∧ step setting (run setting path) = none ∧
      turns.length ≤ 1 + (turns.map Turn.entryCount).sum ∧
      (turns.flatMap Turn.listed).Nodup ∧ (turns.flatMap Turn.opened).Nodup ∧
      (turns.flatMap Turn.opened).length ≤ fileBudget ∧
      ∀ file content, .opens file content ∈ turns → content.size ≤ largestFile := by
  have hstart : Course setting path [] (Search.start path) := .start
  obtain ⟨turns, hc⟩ := exists_course_advance hstart (stepBound setting.tree)
  have h := hc.affords
  obtain ⟨-, -, hover⟩ := advance_isOver (stepBound setting.tree) (follows_start setting path)
    (by rw [stepBound, List.length_nil]; omega)
  refine ⟨turns, hc, if_pos hover, ?_, h.listed_nodup, ?_, ?_, h.small⟩
  · exact Nat.le_trans (Nat.le_add_right _ _) h.turns_le
  · exact h.opened_eq ▸ h.opened_nodup
  · exact h.opened_eq ▸ h.opened_le

end PlanAssistant.Tools.Search
