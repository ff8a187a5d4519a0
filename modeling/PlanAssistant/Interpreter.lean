import PlanAssistant.Text.CommonNames

/-!
What the program has from the interpreter it runs on.  How deep the interpreter goes before its stack is
used up, and which characters it knows by name, differs from one to another; nothing here hangs on it.
Its texts may hold surrogates, which are code points but no characters: they come from names of files
that are not text, and from escapes for half of a pair.  A character for private use stands for each of
them.  Which ones do is left open too, so for every set of texts there is a choice under which those
characters mean nothing else in them.
-/
namespace PlanAssistant

/-- Half of a pair of units, which alone is no character. -/
def isSurrogate (code : Nat) : Bool := 0xD800 ≤ code && code < 0xE000

/-- Characters that no standard gives a meaning. -/
def isPrivateUse (code : Nat) : Bool :=
  (0xE000 ≤ code && code < 0xF900) || (0xF0000 ≤ code && code < 0xFFFFE) ||
    (0x100000 ≤ code && code < 0x10FFFE)

/-- An interpreter, and the characters that stand for surrogates in the texts of a run. -/
class Interpreter where
  /-- Lists and records of a JSON text may be nested this deep. -/
  jsonDepth : Nat
  /-- Arrays and inline tables of a TOML text may be nested this deep. -/
  tomlDepth : Nat
  /-- Groups of a pattern may be nested this deep. -/
  patternDepth : Nat
  /-- The most directories missing one below the other that can be made at once. -/
  directoryDepth : Nat
  /-- Names of characters in capital letters, with their codes; names that follow a rule are not listed. -/
  characterNames : List (String × Nat)
  /-- The surrogate that a character stands for. -/
  surrogate? : Char → Option Nat
  /-- The character that stands for a surrogate. -/
  standIn : Nat → Char
  surrogate?_eq_some_iff : ∀ c code, surrogate? c = some code ↔ isSurrogate code = true ∧ standIn code = c
  isPrivateUse_standIn : ∀ code, isSurrogate code = true → isPrivateUse (standIn code).toNat = true

theorem toNat_standIn {code : Nat} (h : isSurrogate code = true) :
    (Char.ofNat (code + 0x101800)).toNat = code + 0x101800 := by
  simp only [isSurrogate, Bool.and_eq_true, decide_eq_true_eq] at h
  have hvalid : (code + 0x101800).isValidChar := .inr ⟨by omega, by omega⟩
  rw [Char.ofNat, dif_pos hvalid]
  rfl

/-- The usual room on the stack, the names of common characters, and characters close to the last one for
surrogates. -/
instance Interpreter.usual : Interpreter where
  jsonDepth := 990
  tomlDepth := 490
  patternDepth := 480
  directoryDepth := 980
  characterNames := Text.commonNames
  surrogate? c := if isSurrogate (c.toNat - 0x101800) then some (c.toNat - 0x101800) else none
  standIn code := Char.ofNat (code + 0x101800)
  surrogate?_eq_some_iff := by
    intro c code
    simp only [Option.ite_none_right_eq_some, Option.some.injEq]
    constructor
    · rintro ⟨hc, rfl⟩
      have hle : 0x101800 ≤ c.toNat := by
        simp only [isSurrogate, Bool.and_eq_true, decide_eq_true_eq] at hc
        omega
      rw [Nat.sub_add_cancel hle, Char.ofNat_toNat]
      exact ⟨hc, rfl⟩
    · rintro ⟨hcode, rfl⟩
      rw [toNat_standIn hcode, Nat.add_sub_cancel]
      exact ⟨hcode, rfl⟩
  isPrivateUse_standIn := by
    intro code hcode
    rw [toNat_standIn hcode]
    simp only [isSurrogate, isPrivateUse, Bool.and_eq_true, Bool.or_eq_true, decide_eq_true_eq] at *
    omega

end PlanAssistant
