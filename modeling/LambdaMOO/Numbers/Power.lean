import LambdaMOO.Numbers.Arith
import Mathlib.Tactic.Ring

/-!
# Powers

`do_power` squares its way through the bits of the exponent; products wrap around. Negative
exponents are a table, whose entry for the base -1 has the parities the wrong way round.
-/

namespace LambdaMOO

variable {t : IntType}

/-- The loop of `do_power`, cut off after `n` turns. -/
def powerLoop : Nat → Num t → Num t → Num t → Option (Num t)
  | 0, _, b, r => if b = 0 then some r else none
  | n + 1, a, b, r =>
    if b = 0 then some r
    else powerLoop n (a * a) (b.sshiftRight 1) (if b &&& 1 ≠ 0 then r * a else r)

/-- `do_power`. An exponent has no more bits than `Num`. -/
def doPower (fl : FloatOps t) : ArithVar t → ArithVar t → Option (ArithVar t)
  | .int a, .int b =>
    if b.slt 0 then
      if a = -1 then some (.int (if b &&& 1 ≠ 0 then 1 else -1))
      else if a = 0 then some (.err .eDiv)
      else if a = 1 then some (.int 1)
      else some (.int 0)
    else (powerLoop t.bits a b 1).map .int
  | .float a, .int b => some (boxFl (fl.pow a (fl.ofNum b)))
  | .float a, .float b => some (boxFl (fl.pow a b))
  | _, _ => some (.err .eType)

/-- The power for an exponent that is not negative, and else the truncated quotient of 1 and
the power; `E_DIV` where that would divide by zero. -/
def Powers (fl : FloatOps t) (a b : Num t) : Prop :=
  if 0 ≤ b.toInt then
    doPower fl (.int a) (.int b)
      = some (.int (BitVec.ofInt t.bits (a.toInt ^ b.toInt.toNat)))
  else if a = 0 then doPower fl (.int a) (.int b) = some (.err .eDiv)
  else
    doPower fl (.int a) (.int b)
      = some (.int (BitVec.ofInt t.bits (Int.tdiv 1 (a.toInt ^ (-b.toInt).toNat))))

/-! ## The loop -/

lemma ofInt_pow (w : Nat) (x : Int) (n : Nat) :
    BitVec.ofInt w (x ^ n) = BitVec.ofInt w x ^ n := by
  induction n with
  | zero => simp
  | succ n ih => rw [pow_succ, BitVec.ofInt_mul, ih, pow_succ]

/-- The last bit of an exponent. -/
lemma and_one_ne_zero_iff (b : Num t) : b &&& 1 ≠ 0 ↔ b.toNat % 2 = 1 := by
  have hone : (1 : Num t).toNat = 1 := by cases t <;> decide
  rw [Ne, ← BitVec.toNat_inj, BitVec.toNat_and, hone, Nat.and_one_is_mod]
  have hzero : (0 : Num t).toNat = 0 := by cases t <;> decide
  rw [hzero]
  omega

/-- `r * a ^ b` is the same before and after a turn. -/
lemma powerLoop_eq {n : Nat} {a b r : Num t} (hb : b.msb = false) (hn : b.toNat < 2 ^ n) :
    powerLoop n a b r = some (r * a ^ b.toNat) := by
  induction n generalizing a b r with
  | zero =>
    have hzero : b = 0 := by
      apply BitVec.eq_of_toNat_eq
      rw [Nat.lt_one_iff.mp hn]
      rfl
    rw [powerLoop, if_pos hzero, hzero]
    exact congrArg some (mul_one r).symm
  | succ n ih =>
    unfold powerLoop
    split
    · rename_i hzero
      rw [hzero]
      exact congrArg some (mul_one r).symm
    · have hshift : (b.sshiftRight 1).toNat = b.toNat / 2 := by
        rw [BitVec.sshiftRight_eq_of_msb_false hb, BitVec.toNat_ushiftRight, Nat.shiftRight_one]
      have hmsb : (b.sshiftRight 1).msb = false := by
        rw [BitVec.msb_sshiftRight, hb]
      have hlt : (b.sshiftRight 1).toNat < 2 ^ n := by
        rw [hshift]
        omega
      rw [ih hmsb hlt, hshift]
      congr 1
      by_cases hodd : b.toNat % 2 = 1
      · -- the bit is set: `r * a * (a * a) ^ (b / 2)`
        have hsplit : b.toNat = 2 * (b.toNat / 2) + 1 := by omega
        rw [if_pos ((and_one_ne_zero_iff b).mpr hodd)]
        conv_rhs => rw [hsplit]
        ring
      · have hsplit : b.toNat = 2 * (b.toNat / 2) := by omega
        rw [if_neg fun h => hodd ((and_one_ne_zero_iff b).mp h)]
        conv_rhs => rw [hsplit]
        ring

lemma doPower_of_nonneg (fl : FloatOps t) (a : Num t) {b : Num t} (hb : 0 ≤ b.toInt) :
    doPower fl (.int a) (.int b)
      = some (.int (BitVec.ofInt t.bits (a.toInt ^ b.toInt.toNat))) := by
  have hmsb : b.msb = false := by
    rw [BitVec.msb_eq_toInt]
    simpa using hb
  have hslt : ¬ b.slt 0 := by
    intro h
    have hset := (Num.slt_zero_iff b).mp h
    rw [hmsb] at hset
    cases hset
  have hnat : b.toInt.toNat = b.toNat := by
    rw [BitVec.toInt_eq_toNat_of_msb hmsb, Int.toNat_natCast]
  rw [doPower, if_neg hslt, powerLoop_eq hmsb b.isLt, Option.map_some, hnat, one_mul, ofInt_pow,
    BitVec.ofInt_toInt]

/-! ## Negative exponents -/

/-- The reciprocal of a power is 0 unless the base is a unit. -/
lemma tdiv_pow_eq_zero {a : Int} {n : Nat} (hn : n ≠ 0) (ha : 1 < a.natAbs) :
    Int.tdiv 1 (a ^ n) = 0 := by
  have hlt : 1 < (a ^ n).natAbs := by
    rw [Int.natAbs_pow]
    exact Nat.one_lt_pow hn ha
  rcases Int.natAbs_eq (a ^ n) with h | h
  · rw [h]
    exact Int.tdiv_eq_zero_of_lt (by decide) (by omega)
  · rw [h, Int.tdiv_neg, Int.tdiv_eq_zero_of_lt (by decide) (by omega), Int.neg_zero]

lemma tdiv_neg_one_pow (n : Nat) :
    Int.tdiv 1 ((-1) ^ n) = if n % 2 = 1 then -1 else 1 := by
  rcases Nat.even_or_odd n with h | h
  · rw [h.neg_one_pow, if_neg (by rw [Nat.even_iff.mp h]; decide)]
    rfl
  · rw [h.neg_one_pow, if_pos (Nat.odd_iff.mp h)]
    rfl

/-- Two's complement keeps the parity. -/
lemma toNat_mod_two (b : Num t) (hb : b.toInt < 0) :
    b.toNat % 2 = (-b.toInt).toNat % 2 := by
  have hmsb : b.msb = true := by
    rw [BitVec.msb_eq_toInt]
    simpa using hb
  have hneg : b.toInt = b.toNat - 2 ^ t.bits := BitVec.toInt_eq_msb_cond b ▸ by simp [hmsb]
  have heven : (2 : Int) ^ t.bits % 2 = 0 := by cases t <;> decide
  omega

/-- `do_power` is right unless the base is -1 and the exponent negative. -/
theorem powers_iff (fl : FloatOps t) (a b : Num t) :
    Powers fl a b ↔ ¬ (a = -1 ∧ b.toInt < 0) := by
  unfold Powers
  by_cases hb : 0 ≤ b.toInt
  · rw [if_pos hb]
    exact iff_of_true (doPower_of_nonneg fl a hb) fun h => absurd h.2 (Int.not_lt.mpr hb)
  · have hneg : b.toInt < 0 := Int.not_le.mp hb
    have hslt : b.slt 0 := by
      have hzero : (0 : Num t).toInt = 0 := by cases t <;> rfl
      rwa [BitVec.slt_iff_toInt_lt, hzero]
    have hne : (-b.toInt).toNat ≠ 0 := by omega
    rw [if_neg hb, doPower, if_pos hslt]
    by_cases hminus : a = -1
    · -- the table has 1 for odd exponents and -1 for even ones
      have hint : a.toInt = -1 := by
        rw [hminus]
        cases t <;> decide
      have hzero : a ≠ 0 := by
        rw [hminus]
        cases t <;> decide
      have hdiff : (1 : Num t) ≠ -1 := by cases t <;> decide
      have hone : BitVec.ofInt t.bits 1 = (1 : Num t) := by cases t <;> decide
      have hmone : BitVec.ofInt t.bits (-1) = (-1 : Num t) := by cases t <;> decide
      rw [if_neg hzero, if_pos hminus, hint, tdiv_neg_one_pow, ← toNat_mod_two b hneg]
      refine iff_of_false ?_ fun h => h ⟨hminus, hneg⟩
      intro heq
      by_cases hodd : b.toNat % 2 = 1
      · rw [if_pos ((and_one_ne_zero_iff b).mpr hodd), if_pos hodd, hmone] at heq
        exact hdiff (ArithVar.int.inj (Option.some.inj heq))
      · rw [if_neg fun h => hodd ((and_one_ne_zero_iff b).mp h), if_neg hodd, hone] at heq
        exact hdiff (ArithVar.int.inj (Option.some.inj heq)).symm
    · refine iff_of_true ?_ fun h => hminus h.1
      rw [if_neg hminus]
      by_cases hzero : a = 0
      · rw [if_pos hzero, if_pos hzero]
      · rw [if_neg hzero, if_neg hzero]
        by_cases hone : a = 1
        · have hint : a.toInt = 1 := by
            rw [hone]
            cases t <;> decide
          rw [if_pos hone, hint, one_pow]
          cases t <;> decide
        · have hbig : 1 < a.toInt.natAbs := by
            have hints : ∀ c : Num t, a ≠ c → a.toInt ≠ c.toInt :=
              fun c h heq => h (BitVec.eq_of_toInt_eq heq)
            have h0 : a.toInt ≠ 0 := by
              have := hints 0 hzero
              cases t <;> exact this
            have h1 : a.toInt ≠ 1 := by
              have := hints 1 hone
              cases t <;> exact this
            have h2 : a.toInt ≠ -1 := by
              have := hints (-1) hminus
              cases t <;> exact this
            omega
          rw [if_neg hone, tdiv_pow_eq_zero hne hbig]
          rfl

/-- `-1 ^ -1` is 1. -/
theorem not_powers_neg_one : ¬ Powers (noFloats .int64) (-1) (-1) := by
  intro h
  have hval : doPower (noFloats .int64) (.int (-1)) (.int (-1)) = some (.int 1) := rfl
  have hspec : doPower (noFloats .int64) (.int (-1)) (.int (-1)) = some (.int (-1)) := h
  rw [hval] at hspec
  cases hspec

end LambdaMOO
