import Mathlib.Data.Nat.Bitwise
import Mathlib.Data.Nat.Log

/-!
# Smearing the highest bit

`v |= v >> 1; v |= v >> 2; v |= v >> 4; ...` sets all bits below the highest one.
-/

namespace Smear

/-- A bit of `u` is set if one of the `k` bits of `v` from there on is. -/
def Covers (k v u : Nat) : Prop := ∀ i, u.testBit i = true ↔ ∃ j < k, v.testBit (i + j) = true

lemma covers_one (v : Nat) : Covers 1 v v := by
  intro i
  simp

/-- One step of the smearing. -/
lemma Covers.step {k s v u : Nat} (h : Covers k v u) (hs : s ≤ k) :
    Covers (k + s) v (u ||| u >>> s) := by
  intro i
  rw [Nat.testBit_or, Bool.or_eq_true, Nat.testBit_shiftRight, h i, h (s + i)]
  constructor
  · rintro (⟨j, hj, hbit⟩ | ⟨j, hj, hbit⟩)
    · exact ⟨j, by omega, hbit⟩
    · refine ⟨s + j, by omega, ?_⟩
      rwa [← Nat.add_assoc, Nat.add_comm i s]
  · rintro ⟨j, hj, hbit⟩
    by_cases hlt : j < k
    · exact Or.inl ⟨j, hlt, hbit⟩
    · refine Or.inr ⟨j - s, by omega, ?_⟩
      have hij : s + i + (j - s) = i + j := by omega
      rwa [hij]

/-- When the bits of the whole number are covered all bits up to the highest one are set. -/
lemma Covers.eq {k v u : Nat} (h : Covers k v u) (hv : v ≠ 0) (hlt : v < 2 ^ k) :
    u = 2 ^ (Nat.log2 v + 1) - 1 := by
  have htop : v.testBit (Nat.log2 v) = true := Nat.testBit_log2 hv
  have hlog : Nat.log2 v < k := (Nat.log2_lt hv).mpr hlt
  apply Nat.eq_of_testBit_eq
  intro i
  rw [Nat.testBit_two_pow_sub_one, Bool.eq_iff_iff, h i, decide_eq_true_iff]
  constructor
  · rintro ⟨j, -, hbit⟩
    have hge := Nat.ge_two_pow_of_testBit hbit
    have hle : i + j ≤ Nat.log2 v := (Nat.le_log2 hv).mpr hge
    omega
  · intro hi
    refine ⟨Nat.log2 v - i, by omega, ?_⟩
    have hij : i + (Nat.log2 v - i) = Nat.log2 v := by omega
    rwa [hij]

end Smear
