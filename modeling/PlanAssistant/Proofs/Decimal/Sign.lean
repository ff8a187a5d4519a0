import Mathlib
import PlanAssistant.Decimal.Nearest

/-!
Signs of floating-point numbers.  A number that is not below zero is positive, a zero of either sign, or
no number at all; sums and products of such numbers are such numbers again, however they are rounded.
-/
namespace PlanAssistant.Decimal

open Float.Model Float.Model.UnpackedFloat

/-! ### Unpacked numbers -/

/-- Whatever has a sign and is no zero is positive. -/
def Upward : UnpackedFloat → Prop
  | .notANumber => True
  | .zero _ => True
  | .infinity sign => sign = .positive
  | .finite sign .. => sign = .positive

section Unpacked

variable {x y : UnpackedFloat}

/-- Rounding keeps the sign. -/
theorem upward_round (spec : Format) (mantissa : Nat) (exponent : Int) (accuracy : Accuracy) :
    Upward (roundWithAccuracy spec .positive mantissa exponent accuracy) := by
  unfold roundWithAccuracy
  dsimp only
  split <;> trivial

theorem upward_normalize (spec : Format) {mantissa : Int} (exponent : Int) (h : 0 < mantissa) :
    Upward (UnpackedFloat.normalize spec mantissa exponent .positive) := by
  rw [UnpackedFloat.normalize, Int.compare_eq_gt.mpr h]
  exact upward_round _ _ _ _

theorem decreaseExponent_pos {mantissa : Nat} (h : 0 < mantissa) (exponent least : Int) :
    0 < (decreaseExponent mantissa exponent least).1 := by
  rw [decreaseExponent, Nat.shiftLeft_eq]
  exact Nat.mul_pos h (Nat.two_pow_pos _)

theorem upward_mul (spec : Format) (hx : Upward x) (hy : Upward y) : Upward (mul spec x y) := by
  cases x with
  | notANumber => exact trivial
  | zero sign => cases y <;> trivial
  | infinity sign =>
    obtain rfl : sign = .positive := hx
    cases y with
    | notANumber | zero => exact trivial
    | infinity other | finite other =>
      obtain rfl : other = .positive := hy
      rfl
  | finite sign mantissa exponent hm =>
    obtain rfl : sign = .positive := hx
    cases y with
    | notANumber | zero => exact trivial
    | infinity other =>
      obtain rfl : other = .positive := hy
      rfl
    | finite other =>
      obtain rfl : other = .positive := hy
      exact upward_round _ _ _ _

theorem upward_add (spec : Format) (hx : Upward x) (hy : Upward y) : Upward (add spec x y) := by
  cases x with
  | notANumber => exact trivial
  | zero sign =>
    cases y with
    | notANumber => exact trivial
    | zero other => cases sign <;> cases other <;> trivial
    | infinity other | finite other => exact hy
  | infinity sign =>
    obtain rfl : sign = .positive := hx
    cases y with
    | notANumber => exact trivial
    | zero | finite => rfl
    | infinity other =>
      obtain rfl : other = .positive := hy
      rfl
  | finite sign mantissa exponent hm =>
    obtain rfl : sign = .positive := hx
    cases y with
    | notANumber => exact trivial
    | zero other => rfl
    | infinity other => exact hy
    | finite other mantissa' exponent' hm' =>
      obtain rfl : other = .positive := hy
      have hleft := decreaseExponent_pos hm exponent (min exponent exponent')
      have hright := decreaseExponent_pos hm' exponent' (min exponent exponent')
      exact upward_normalize spec _ (Int.add_pos (Int.natCast_pos.mpr hleft) (Int.natCast_pos.mpr hright))

/-- Without a sign bit a number is upward. -/
theorem upward_unpack {spec : Format} {bits : BitVec spec.numBits} (h : unpackSign bits = 0#1) :
    Upward (unpack spec bits) := by
  unfold UnpackedFloat.unpack
  simp only [h]
  split
  · split <;> trivial
  · split
    · split <;> trivial
    · rfl

theorem upward_unpack_packComponents (spec : Format) (exponent : BitVec spec.exponentBits)
    (mantissa : BitVec spec.mantissaBitsWithoutImplicit) :
    Upward (unpack spec (packComponents spec .positive exponent mantissa)) :=
  upward_unpack (unpackSign_packComponents _ _ _)

/-- What is packed is unpacked as upward as it was. -/
theorem upward_unpack_pack (spec : Format) (h : Upward x) : Upward (unpack spec (pack spec x)) := by
  cases x with
  | notANumber => exact upward_unpack_packComponents _ _ _
  | zero sign =>
    rw [UnpackedFloat.pack, unpack_packedZero]
    trivial
  | infinity sign =>
    obtain rfl : sign = .positive := h
    exact upward_unpack_packComponents _ _ _
  | finite sign mantissa exponent hm =>
    obtain rfl : sign = .positive := h
    unfold UnpackedFloat.pack
    dsimp only
    split
    · exact upward_unpack_packComponents _ _ _
    · split <;> exact upward_unpack_packComponents _ _ _

end Unpacked

/-! ### Numbers -/

section Numbers

variable {x y : Float}

theorem unpack_zero : (0 : Float).toModel.unpack = .zero .positive := rfl

theorem lt_iff : x < y ↔ x.toModel.unpack.compare y.toModel.unpack = some .lt := by
  rw [← beq_iff_eq]
  exact decide_eq_true_iff

theorem le_iff : x ≤ y ↔ (x.toModel.unpack.compare y.toModel.unpack).any (·.isLE) = true :=
  decide_eq_true_iff

theorem not_lt_zero_iff : ¬ x < 0 ↔ Upward x.toModel.unpack := by
  rw [lt_iff, unpack_zero]
  cases x.toModel.unpack with
  | notANumber | zero => simp [UnpackedFloat.compare, Upward]
  | infinity sign | finite sign => cases sign <;> simp [UnpackedFloat.compare, Upward]

/-- What is not below zero is at least zero, if it is a number. -/
theorem zero_le_iff : 0 ≤ x ↔ ¬ x < 0 ∧ x.isNaN = false := by
  rw [not_lt_zero_iff, le_iff, unpack_zero, Float.isNaN, Float.Model.isNaN]
  cases x.toModel.unpack with
  | notANumber | zero => simp [UnpackedFloat.compare, UnpackedFloat.isNaN, Upward]
  | infinity sign | finite sign =>
    cases sign <;> simp [UnpackedFloat.compare, UnpackedFloat.isNaN, Upward]

theorem not_mul_lt_zero (hx : ¬ x < 0) (hy : ¬ y < 0) : ¬ x * y < 0 := by
  rw [not_lt_zero_iff] at hx hy ⊢
  exact upward_unpack_pack _ (upward_mul Format.binary64 hx hy)

theorem not_add_lt_zero (hx : ¬ x < 0) (hy : ¬ y < 0) : ¬ x + y < 0 := by
  rw [not_lt_zero_iff] at hx hy ⊢
  exact upward_unpack_pack _ (upward_add Format.binary64 hx hy)

theorem not_ofBits_lt_zero {bits : UInt64} (h : bits.toNat < 2 ^ 63) : ¬ Float.ofBits bits < 0 := by
  rw [not_lt_zero_iff]
  have hsign : @unpackSign Format.binary64 bits.toBitVec = 0#1 := by
    rw [unpackSign_def]
    apply BitVec.eq_of_toNat_eq
    rw [BitVec.extractLsb'_toNat, Nat.shiftRight_eq_div_pow]
    exact congrArg (· % 2) (Nat.div_eq_of_lt h)
  exact upward_unpack_pack _ (upward_unpack hsign)

end Numbers
end PlanAssistant.Decimal
