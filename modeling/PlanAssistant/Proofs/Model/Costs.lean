import PlanAssistant.Model.Output
import PlanAssistant.Proofs.Decimal.Sign

/-!
What calls cost.  The prices of a profile that has passed its check are not below zero, and neither is
the cost of some tokens at such prices; so a usage whose cost is a number passes its own check.
-/
namespace PlanAssistant

open Validation

/-! ### Checks that are passed -/

section Checked

variable {α β : Type}

theorem Checked.seq_eq_passed_iff {f : Checked (α → β)} {x : Checked α} {value : β} :
    f <*> x = .passed value ↔ ∃ g a, f = .passed g ∧ x = .passed a ∧ g a = value := by
  change f.both x = _ ↔ _
  cases f <;> cases x <;> simp [Checked.both]

theorem Checked.map_eq_passed_iff {f : α → β} {x : Checked α} {value : β} :
    f <$> x = .passed value ↔ ∃ a, x = .passed a ∧ f a = value := by
  change Checked.both (.passed f) x = _ ↔ _
  cases x <;> simp [Checked.both]

theorem exists_of_required {name : String} {check : Datum → Checked α} {fields : Fields} {value : α}
    (h : required name check fields = .passed value) : ∃ datum, check datum = .passed value := by
  unfold required at h
  split at h
  · next datum _ =>
    refine ⟨datum, ?_⟩
    cases hc : check datum with
    | passed other => simpa [hc, Checked.within] using h
    | failed failures => simp [hc, Checked.within] at h
  · contradiction

theorem le_of_floatAtLeast {low x : Float} {check : Datum → Checked Float} {datum : Datum}
    (h : floatAtLeast low check datum = .passed x) : low ≤ x := by
  unfold floatAtLeast Checked.ensure at h
  cases hc : check datum with
  | failed failures => simp [hc, Checked.andThen] at h
  | passed other =>
    simp only [hc, Checked.andThen] at h
    split at h
    · next hle =>
      cases h
      exact of_decide_eq_true hle
    · contradiction

end Checked

/-! ### Costs -/

/-- The profile has passed its check. -/
def ModelProfile.Valid (profile : ModelProfile) : Prop :=
  ∃ fields, ModelProfile.check fields = .passed profile

theorem ModelProfile.Valid.prices {profile : ModelProfile} (h : profile.Valid) :
    0 ≤ profile.costInput ∧ 0 ≤ profile.costOutput := by
  obtain ⟨fields, h⟩ := h
  -- one field after the other, the last first; the prices are the last two
  obtain ⟨_, output, hmost, houtput, rfl⟩ := Checked.seq_eq_passed_iff.mp h
  obtain ⟨_, input, hothers, hinput, rfl⟩ := Checked.seq_eq_passed_iff.mp hmost
  simp only [Checked.seq_eq_passed_iff, Checked.map_eq_passed_iff] at hothers
  obtain ⟨_, _, ⟨_, _, ⟨_, _, ⟨_, _, ⟨_, _, ⟨_, _, ⟨_, -, rfl⟩, -, rfl⟩, -, rfl⟩, -, rfl⟩, -, rfl⟩,
    -, rfl⟩, -, rfl⟩ := hothers
  obtain ⟨_, hinput⟩ := exists_of_required hinput
  obtain ⟨_, houtput⟩ := exists_of_required houtput
  exact ⟨le_of_floatAtLeast hinput, le_of_floatAtLeast houtput⟩

namespace TokenUsage

/-- The bits of a magnitude have no sign. -/
theorem toNat_nearestBits_lt (num den : Nat) : (Decimal.nearestBits num den).toNat < 2 ^ 63 := by
  have hinfinity : Decimal.infinityBits.toNat < 2 ^ 63 := by decide
  have hunit : Decimal.twoTo 52 < 2 ^ 63 := by decide
  have hle : ∀ m : Nat, m.toUInt64.toNat ≤ m := fun m => by
    rw [Nat.toUInt64, UInt64.toNat_ofNat']
    exact Nat.mod_le _ _
  unfold Decimal.nearestBits
  split
  · decide
  · dsimp only
    split
    · next hm => exact Nat.lt_of_le_of_lt (hle _) (Nat.lt_trans hm hunit)
    · split
      · next hf => exact Nat.lt_of_le_of_lt (hle _) (Nat.lt_trans hf hinfinity)
      · exact hinfinity

theorem millions?_not_lt_zero {tokens : Int} {x : Float} (ht : 0 ≤ tokens)
    (h : millions? tokens = some x) : ¬ x < 0 := by
  unfold millions? at h
  dsimp only at h
  split at h
  · contradiction
  · obtain rfl := Option.some.inj h
    rw [decide_eq_false (Int.not_lt.mpr ht)]
    exact Decimal.not_ofBits_lt_zero (toNat_nearestBits_lt _ _)

/-- Tokens cost nothing less than zero. -/
theorem cost?_not_lt_zero {profile : ModelProfile} (hv : profile.Valid) {prompt completion : Int}
    (hp : 0 ≤ prompt) (hc : 0 ≤ completion) {cost : Float}
    (h : cost? profile prompt completion = some cost) : ¬ cost < 0 := by
  obtain ⟨input, hi, h⟩ := Option.bind_eq_some_iff.mp h
  obtain ⟨output, ho, h⟩ := Option.bind_eq_some_iff.mp h
  obtain rfl := Option.some.inj h
  obtain ⟨hinput, houtput⟩ := hv.prices
  exact Decimal.not_add_lt_zero
    (Decimal.not_mul_lt_zero (millions?_not_lt_zero hp hi) (Decimal.zero_le_iff.mp hinput).1)
    (Decimal.not_mul_lt_zero (millions?_not_lt_zero hc ho) (Decimal.zero_le_iff.mp houtput).1)

/-- Counts and a cost that are not below zero make a usage. -/
theorem ofCounts_of_le {prompt completion : Int} {cost : Float} (hp : 0 ≤ prompt) (hc : 0 ≤ completion)
    (hx : 0 ≤ cost) : ofCounts prompt completion cost = .passed ⟨prompt, completion, cost⟩ := by
  have hwhole : ∀ n : Int, 0 ≤ n → atLeast 0 whole (.int n) = .passed n := by
    intro n hn
    simp [atLeast, whole, Checked.ensure, Checked.andThen, hn]
  have hfloat : floatAtLeast 0 float (.float cost) = .passed cost := by
    simp [floatAtLeast, float, Checked.ensure, Checked.andThen, hx]
  simp only [ofCounts, check, required, Datum.lookup, List.reverse_cons, List.reverse_nil, List.nil_append,
    List.cons_append, List.find?_cons, beq_self_eq_true, String.reduceBEq, Option.map_some]
  rw [hwhole prompt hp, hwhole completion hc, hfloat]
  rfl

end TokenUsage
end PlanAssistant
