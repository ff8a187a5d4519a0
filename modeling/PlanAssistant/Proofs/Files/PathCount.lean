import Mathlib.Data.Nat.Digits.Lemmas
import Mathlib.Data.String.Basic
import PlanAssistant.Proofs.Files.Walking

/-!
How many paths can be followed.  A path is written as a number whose digits spell its names, so that
different paths have different numbers, and a path within the limit has a number below `pathBound`.  A
tree has more nodes than any of its directories has entries.
-/
namespace PlanAssistant.Files

/-! ### Numbers of paths -/

def Anchor.digit : Anchor → Nat
  | here => 2
  | root => 3
  | doubleRoot => 4

/-- The digits of a name; zero and one are none of them. -/
def nameDigits (name : String) : List Nat := name.toList.map (·.toNat + 2)

theorem Anchor.digit_injective : Function.Injective Anchor.digit := by
  intro a b h
  cases a <;> cases b <;> first | rfl | contradiction

theorem nameDigits_injective : Function.Injective nameDigits := by
  intro a b h
  have hd : Function.Injective fun c : Char => c.toNat + 2 :=
    fun c d hcd => Char.toNat_inj.mp (Nat.add_right_cancel hcd)
  exact String.toList_inj.mp (List.map_injective_iff.mpr hd h)

theorem mem_nameDigits {name : String} {digit : Nat} (h : digit ∈ nameDigits name) :
    2 ≤ digit ∧ digit < 0x110002 := by
  obtain ⟨c, -, rfl⟩ := List.mem_map.mp h
  have hc : c.toNat < 0x110000 := by
    rcases c.valid with h | ⟨-, h⟩
    · exact h.trans (by decide)
    · exact h
  omega

/-- Names have as many bytes as digits, or more. -/
theorem length_nameDigits_le [Interpreter] (name : String) :
    (nameDigits name).length ≤ Text.byteSize name := by
  rw [nameDigits, List.length_map]
  exact Text.length_le_byteSize name

namespace FilePath

/-- The digits of where the path starts and of its names, with a one before each name. -/
def digits (path : FilePath) : List Nat :=
  path.anchor.digit :: path.names.flatMap fun name => 1 :: nameDigits name

def number (path : FilePath) : Nat := Nat.ofDigits 0x110002 path.digits

theorem mem_digits {path : FilePath} {digit : Nat} (h : digit ∈ path.digits) :
    1 ≤ digit ∧ digit < 0x110002 := by
  rcases List.mem_cons.mp h with rfl | h
  · cases path.anchor <;> decide
  · obtain ⟨name, -, hd⟩ := List.mem_flatMap.mp h
    rcases List.mem_cons.mp hd with rfl | hd
    · decide
    · have hn := mem_nameDigits hd
      omega

theorem splitOn_digits (path : FilePath) :
    path.digits.splitOn 1 = [path.anchor.digit] :: path.names.map nameDigits := by
  have hjoin : ∀ (piece : List Nat) (names : List String),
      [1].intercalate (piece :: names.map nameDigits) =
        piece ++ names.flatMap fun name => 1 :: nameDigits name := by
    intro piece names
    induction names generalizing piece with
    | nil => simp [List.intercalate]
    | cons name names ih =>
      rw [List.map_cons, List.intercalate_cons_cons, ih, List.flatMap_cons, List.append_assoc,
        List.singleton_append, List.cons_append]
  have hone : ∀ piece ∈ [path.anchor.digit] :: path.names.map nameDigits, 1 ∉ piece := by
    refine List.forall_mem_cons.mpr ⟨by cases path.anchor <;> decide, fun piece hp hm => ?_⟩
    obtain ⟨name, -, rfl⟩ := List.mem_map.mp hp
    exact absurd (mem_nameDigits hm).1 (by decide)
  rw [← List.splitOn_intercalate 1 hone (List.cons_ne_nil _ _), hjoin]
  rfl

theorem digits_injective : Function.Injective digits := by
  intro a b h
  have hs : [a.anchor.digit] :: a.names.map nameDigits = [b.anchor.digit] :: b.names.map nameDigits := by
    rw [← splitOn_digits, ← splitOn_digits, h]
  obtain ⟨ha, hn⟩ := List.cons_eq_cons.mp hs
  have hanchor := Anchor.digit_injective (List.cons_eq_cons.mp ha).1
  have hnames := List.map_injective_iff.mpr nameDigits_injective hn
  cases a
  cases b
  exact congrArg₂ FilePath.mk hanchor hnames

theorem number_injective : Function.Injective number := by
  -- no digit is zero, so none is lost at the end
  have hdigits : ∀ path : FilePath, Nat.digits 0x110002 path.number = path.digits := by
    intro path
    refine Nat.digits_ofDigits _ (by decide) _ (fun d hd => (mem_digits hd).2) fun hne => ?_
    have hlast := (mem_digits (List.getLast_mem hne)).1
    omega
  intro a b h
  refine digits_injective ?_
  rw [← hdigits, ← hdigits, h]

theorem length_digits_le [Interpreter] (path : FilePath) :
    path.digits.length ≤ Text.byteSize path.text + 2 := by
  have hnames : ∀ names : List String,
      (names.flatMap fun name => 1 :: nameDigits name).length ≤
        Text.byteSize ("/".intercalate names) + 1 := by
    intro names
    induction names with
    | nil => simp
    | cons name names ih =>
      have hd := length_nameDigits_le name
      cases names with
      | nil =>
        rw [String.intercalate_singleton]
        simp
        omega
      | cons other names =>
        have hslash := Text.length_le_byteSize "/"
        rw [List.flatMap_cons, List.length_append, List.length_cons, String.intercalate_cons_cons,
          Text.byteSize_append, Text.byteSize_append]
        change 1 ≤ _ at hslash
        omega
  have hn := hnames path.names
  rw [digits, List.length_cons, text]
  split
  · next h =>
    have hnil : path.names = [] := by
      rw [Bool.and_eq_true] at h
      exact List.isEmpty_iff.mp h.2
    rw [hnil]
    simp
  · rw [Text.byteSize_append]
    omega

theorem number_lt [Interpreter] {path : FilePath} (h : Text.byteSize path.text < pathLimit) :
    path.number < pathBound := by
  have hlen : path.digits.length ≤ pathLimit + 1 := by
    have := path.length_digits_le
    omega
  calc path.number
    _ < 0x110002 ^ path.digits.length :=
      Nat.ofDigits_lt_base_pow_length (by decide) fun d hd => (mem_digits hd).2
    _ ≤ 0x110002 ^ (pathLimit + 1) := Nat.pow_le_pow_right (by decide) hlen
    _ = pathBound := by
      unfold pathBound
      rw [Nat.pow_eq]

/-- Only so many different paths are within the limit. -/
theorem length_le_pathBound [Interpreter] {paths : List FilePath} (hn : paths.Nodup)
    (h : ∀ path ∈ paths, Text.byteSize path.text < pathLimit) : paths.length ≤ pathBound := by
  have hsub : paths.map number ⊆ List.range pathBound := by
    intro n hm
    obtain ⟨path, hp, rfl⟩ := List.mem_map.mp hm
    exact List.mem_range.mpr (number_lt (h path hp))
  have hle := ((hn.map number_injective).subperm hsub).length_le
  rwa [List.length_map, List.length_range] at hle

end FilePath

/-! ### Sizes of trees -/

theorem length_le_entriesSize (entries : Entries) : entries.length ≤ entriesSize entries := by
  induction entries with
  | nil => exact Nat.zero_le _
  | cons entry entries ih =>
    obtain ⟨name, node⟩ := entry
    have hpos : 0 < node.size := by cases node <;> simp [Node.size]
    rw [List.length_cons, entriesSize]
    omega

theorem size_le_entriesSize {entries : Entries} {entry : String × Node} (h : entry ∈ entries) :
    entry.2.size ≤ entriesSize entries := by
  induction entries with
  | nil => exact absurd h List.not_mem_nil
  | cons first entries ih =>
    rw [entriesSize]
    rcases List.mem_cons.mp h with rfl | h
    · omega
    · have := ih h
      omega

theorem size_le_of_at? {tree node : Node} {place : List String} (h : tree.at? place = some node) :
    node.size ≤ tree.size := by
  induction place generalizing tree with
  | nil =>
    obtain rfl := Option.some.inj h
    exact Nat.le_refl _
  | cons name place ih =>
    obtain ⟨child, hc, hrest⟩ := Option.bind_eq_some_iff.mp h
    refine (ih hrest).trans ?_
    cases tree with
    | directory entries =>
      obtain ⟨entry, hf, rfl⟩ := Option.map_eq_some_iff.mp hc
      have hle := size_le_entriesSize (List.mem_of_find?_eq_some hf)
      rw [Node.size]
      omega
    | file content => nomatch hc
    | link target => nomatch hc

end PlanAssistant.Files
