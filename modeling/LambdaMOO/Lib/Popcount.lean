import Mathlib.Data.Nat.Bitwise
import Mathlib.Tactic.Ring

/-!
# Counting bits in parallel

A number is cut into fields of one width. Adding every field at an odd place to the one
before it gives fields of twice the width with the same sum. The bits of a number are its
fields of width 1, so they are counted by doubling the width until one field is left.
-/

namespace Popcount

variable {w n x : Nat}

/-- The sum of the first `n` fields of width `w`. -/
def fieldSum (w : Nat) : Nat → Nat → Nat
  | 0, _ => 0
  | n + 1, x => x % 2 ^ w + fieldSum w n (x / 2 ^ w)

/-- The mask of the fields of width `w` at the first `n` even places. -/
def evenMask (w : Nat) : Nat → Nat
  | 0 => 0
  | n + 1 => 2 ^ (2 * w) * evenMask w n + (2 ^ w - 1)

/-- The first `n` pairs of fields of width `w` added up. -/
def addPairs (w n x : Nat) : Nat := (x >>> w &&& evenMask w n) + (x &&& evenMask w n)

/-- The first `2 ^ k` fields of width `w` added up in `k` rounds. -/
def collapse : Nat → Nat → Nat → Nat
  | _, 0, x => x
  | w, k + 1, x => collapse (2 * w) k (addPairs w (2 ^ k) x)

lemma two_pow_two_mul (w : Nat) : 2 ^ (2 * w) = 2 ^ w * 2 ^ w := by
  rw [Nat.two_mul, Nat.pow_add]

/-- Two fields of width `w` add up to one of twice the width. -/
lemma add_lt_two_pow (hw : 0 < w) (x y : Nat) : x % 2 ^ w + y % 2 ^ w < 2 ^ (2 * w) := by
  have hx : x % 2 ^ w < 2 ^ w := Nat.mod_lt _ (Nat.two_pow_pos w)
  have hy : y % 2 ^ w < 2 ^ w := Nat.mod_lt _ (Nat.two_pow_pos w)
  have htwo : 2 ≤ 2 ^ w := by
    calc 2 = 2 ^ 1 := rfl
      _ ≤ 2 ^ w := Nat.pow_le_pow_right (by decide) hw
  calc x % 2 ^ w + y % 2 ^ w < 2 * 2 ^ w := by omega
    _ ≤ 2 ^ w * 2 ^ w := Nat.mul_le_mul_right _ htwo
    _ = 2 ^ (2 * w) := (two_pow_two_mul w).symm

lemma and_evenMask_succ (w n x : Nat) :
    x &&& evenMask w (n + 1) = 2 ^ (2 * w) * (x / 2 ^ (2 * w) &&& evenMask w n) + x % 2 ^ w := by
  have hlow : 2 ^ w - 1 < 2 ^ (2 * w) := by
    have hle : 2 ^ w ≤ 2 ^ (2 * w) := Nat.pow_le_pow_right (by decide) (by omega)
    have hpos := Nat.two_pow_pos w
    omega
  have hdiv : evenMask w (n + 1) / 2 ^ (2 * w) = evenMask w n := by
    rw [evenMask, Nat.mul_add_div (Nat.two_pow_pos _), Nat.div_eq_of_lt hlow, Nat.add_zero]
  have hmod : evenMask w (n + 1) % 2 ^ (2 * w) = 2 ^ w - 1 := by
    rw [evenMask, Nat.mul_add_mod, Nat.mod_eq_of_lt hlow]
  rw [← Nat.div_add_mod (x &&& evenMask w (n + 1)) (2 ^ (2 * w)), Nat.and_div_two_pow,
    Nat.and_mod_two_pow, hdiv, hmod, Nat.and_two_pow_sub_one_eq_mod, two_pow_two_mul,
    Nat.mod_mul_right_mod]

lemma addPairs_succ (w n x : Nat) :
    addPairs w (n + 1) x
      = 2 ^ (2 * w) * addPairs w n (x / 2 ^ (2 * w)) + (x / 2 ^ w % 2 ^ w + x % 2 ^ w) := by
  unfold addPairs
  rw [and_evenMask_succ, and_evenMask_succ, Nat.shiftRight_eq_div_pow, Nat.shiftRight_eq_div_pow,
    Nat.div_div_eq_div_mul, Nat.div_div_eq_div_mul, Nat.mul_comm (2 ^ w) (2 ^ (2 * w))]
  ring

lemma addPairs_lt (hw : 0 < w) (n x : Nat) : addPairs w n x < 2 ^ (2 * w * n) := by
  induction n generalizing x with
  | zero => simp [addPairs, evenMask]
  | succ n ih =>
    have hrest := ih (x / 2 ^ (2 * w))
    have hpair := add_lt_two_pow hw (x / 2 ^ w) x
    rw [addPairs_succ, Nat.mul_succ, Nat.pow_add, Nat.mul_comm (2 ^ (2 * w * n))]
    calc 2 ^ (2 * w) * addPairs w n (x / 2 ^ (2 * w)) + (x / 2 ^ w % 2 ^ w + x % 2 ^ w)
        < 2 ^ (2 * w) * (addPairs w n (x / 2 ^ (2 * w)) + 1) := by
          rw [Nat.mul_succ]
          omega
      _ ≤ 2 ^ (2 * w) * 2 ^ (2 * w * n) := Nat.mul_le_mul_left _ hrest

/-- Adding the pairs up keeps the sum of the fields. -/
lemma fieldSum_addPairs (hw : 0 < w) (n x : Nat) :
    fieldSum (2 * w) n (addPairs w n x) = fieldSum w (2 * n) x := by
  induction n generalizing x with
  | zero => rfl
  | succ n ih =>
    have hpair := add_lt_two_pow hw (x / 2 ^ w) x
    rw [Nat.mul_succ, fieldSum, fieldSum, fieldSum, addPairs_succ, Nat.mul_add_mod,
      Nat.mod_eq_of_lt hpair, Nat.mul_add_div (Nat.two_pow_pos _), Nat.div_eq_of_lt hpair,
      Nat.add_zero, ih, Nat.div_div_eq_div_mul, ← two_pow_two_mul]
    ring

lemma collapse_lt (hw : 0 < w) (k : Nat) (hx : x < 2 ^ (w * 2 ^ k)) :
    collapse w k x < 2 ^ (w * 2 ^ k) := by
  induction k generalizing w x with
  | zero => exact hx
  | succ k ih =>
    have hwidth : w * 2 ^ (k + 1) = 2 * w * 2 ^ k := by ring
    rw [hwidth, collapse]
    exact ih (by omega) (addPairs_lt hw _ _)

/-- The rounds leave the sum of the fields. -/
lemma collapse_eq (hw : 0 < w) (k : Nat) (hx : x < 2 ^ (w * 2 ^ k)) :
    collapse w k x = fieldSum w (2 ^ k) x := by
  induction k generalizing w x with
  | zero =>
    rw [Nat.pow_zero, Nat.mul_one] at hx
    simp [collapse, fieldSum, Nat.mod_eq_of_lt hx]
  | succ k ih =>
    rw [collapse, ih (by omega) (addPairs_lt hw _ _), fieldSum_addPairs hw, Nat.pow_succ,
      Nat.mul_comm 2]

/-- The fields of width 1 are the bits. -/
lemma fieldSum_one (n x : Nat) : fieldSum 1 n x = (List.range n).countP x.testBit := by
  induction n generalizing x with
  | zero => rfl
  | succ n ih =>
    have hsucc : x.testBit ∘ Nat.succ = (x / 2).testBit := by
      funext i
      exact Nat.testBit_add_one x i
    rw [fieldSum, ih, List.range_succ_eq_map, List.countP_cons, List.countP_map, hsucc,
      Nat.testBit_zero, Nat.pow_one]
    rcases Nat.mod_two_eq_zero_or_one x with h | h <;> simp [h, Nat.add_comm]

end Popcount
