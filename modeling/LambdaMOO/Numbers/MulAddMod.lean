import LambdaMOO.Lib.Smear
import Mathlib.Algebra.Order.Ring.Nat
import Mathlib.Tactic.Common
import Mathlib.Tactic.LinearCombination
import Mathlib.Tactic.Ring
import Mathlib.Tactic.Zify

/-!
# Multiplication in a word

The fallback of `muladdmod` for platforms without an integer of twice the width of `URNum`, for
each width of it. Whether results that exceed the word are cut off, as in C, or have no result
is a parameter.
-/

namespace LambdaMOO

/-- `URNUM_BITS`. -/
inductive URNumType where
  | uint16
  | uint32
  | uint64
  deriving DecidableEq, Repr

namespace URNumType

/-- `HALFWORD`. -/
def halfword : URNumType → Nat
  | .uint16 => 8
  | .uint32 => 16
  | .uint64 => 32

/-- The width of `URNum`. -/
def bits (t : URNumType) : Nat := 2 * t.halfword

/-- The factor of the hash in `rlg2`. -/
def hashFactor : URNumType → Nat
  | .uint16 => 0x0f59
  | .uint32 => 0x07c4acdd
  | .uint64 => 0x03f566ed27179461

/-- The shift of the hash. -/
def hashShift : URNumType → Nat
  | .uint16 => 12
  | .uint32 => 27
  | .uint64 => 58

/-- `evil`. -/
def evil : URNumType → List Nat
  | .uint16 => [15, 3, 14, 2, 8, 6, 13, 1, 4, 9, 7, 5, 10, 11, 12, 0]
  | .uint32 =>
    [31, 22, 30, 21, 18, 10, 29, 2, 20, 17, 15, 13, 9, 6, 28, 1,
      23, 19, 11, 3, 16, 14, 7, 24, 12, 4, 8, 25, 5, 26, 27, 0]
  | .uint64 =>
    [63, 5, 62, 4, 24, 10, 61, 3, 32, 15, 23, 9, 45, 29, 60, 2,
      12, 34, 31, 14, 52, 50, 22, 8, 48, 37, 44, 28, 41, 20, 59, 1,
      6, 25, 11, 33, 16, 46, 30, 13, 35, 53, 51, 49, 38, 42, 21, 7,
      26, 17, 47, 36, 54, 39, 43, 27, 18, 55, 40, 19, 56, 57, 58, 0]

/-- The shifts by 16 and 32 are compiled for the wider types only. -/
def smear : URNumType → Nat → Nat
  | .uint16, v =>
    let v := v ||| v >>> 1
    let v := v ||| v >>> 2
    let v := v ||| v >>> 4
    v ||| v >>> 8
  | .uint32, v =>
    let v := v ||| v >>> 1
    let v := v ||| v >>> 2
    let v := v ||| v >>> 4
    let v := v ||| v >>> 8
    v ||| v >>> 16
  | .uint64, v =>
    let v := v ||| v >>> 1
    let v := v ||| v >>> 2
    let v := v ||| v >>> 4
    let v := v ||| v >>> 8
    let v := v ||| v >>> 16
    v ||| v >>> 32

/-- The result of an operation as a `URNum`. One that is `checked` has a result only if it fits;
otherwise it is cut off. -/
def result (t : URNumType) (checked : Bool) (x : Nat) : Option Nat :=
  if x < 2 ^ t.bits then some x else if checked then none else some (x % 2 ^ t.bits)

end URNumType

/-- Which operations are checked: the sums, products and shifts of `muladdmod`, and the product
that `rlg2` hashes with. -/
structure Checks where
  arith : Bool
  hash : Bool

variable (t : URNumType) (checks : Checks)

/-- `rlg2`. -/
def rlg2 (v : Nat) : Option Nat := do
  let product ← t.result checks.hash (t.smear v * t.hashFactor)
  t.evil[product >>> t.hashShift]?

/-- `LO`. -/
def loHalf (x : Nat) : Nat := x &&& (2 ^ t.halfword - 1)

/-- `HI`. -/
def hiHalf (x : Nat) : Nat := x >>> t.halfword

/-- The loop of `muladdmod`, cut off after `n` turns: the value of `hi` where it is left. -/
def shiftLoop (m : Nat) : Nat → Nat → Nat → Nat → Option Nat
  | 0, _, _, _ => none
  | n + 1, hi, d_sh, sh => do
    let hi ← t.result checks.arith (hi <<< d_sh)
    let hi := hi % m
    if hi = 0 then return hi
    let d_sh ← rlg2 t checks hi
    if d_sh ≥ sh then
      let hi ← t.result checks.arith (hi <<< sh)
      return hi % m
    shiftLoop m n hi d_sh (sh - d_sh)

/-- The high word, shifted to the left by a word modulo `m`. -/
def shiftHigh (m n hi : Nat) : Option Nat :=
  if hi ≠ 0 then do
    let d_sh ← rlg2 t checks hi
    shiftLoop t checks m n hi d_sh (2 * t.halfword - d_sh)
  else some hi

/-- `muladdmod`, with at most `n` turns of its loop. -/
def muladdmod (n a b c m : Nat) : Option Nat := do
  let word := t.result checks.arith
  let (LO, HI) := (loHalf t, hiHalf t)
  let lo ← word ((← word (LO a * LO b)) + LO c)
  let mi1 ← word ((← word ((← word (HI a * LO b)) + HI c)) + HI lo)
  let mi2 ← word ((← word (LO a * HI b)) + LO mi1)
  let hi ← word ((← word ((← word (HI a * HI b)) + HI mi1)) + HI mi2)
  let lo ← word (LO lo + (← word (LO mi2 <<< t.halfword)))
  let lo := lo % m
  let hi ← shiftHigh t checks m n hi
  let sum ← word (lo + hi)
  return sum % m

variable {t checks}

/-! ## The highest bit -/

namespace URNumType

lemma bits_pos (t : URNumType) : 0 < t.bits := by
  cases t <;> decide

lemma result_eq {checked : Bool} {x : Nat} (h : x < 2 ^ t.bits) : t.result checked x = some x :=
  if_pos h

lemma result_unchecked (x : Nat) : t.result false x = some (x % 2 ^ t.bits) := by
  unfold result
  by_cases h : x < 2 ^ t.bits
  · rw [if_pos h, Nat.mod_eq_of_lt h]
  · rw [if_neg h, if_neg Bool.false_ne_true]

/-- The shifts set all bits below the highest one. -/
lemma smear_eq {v : Nat} (hv : v ≠ 0) (hlt : v < 2 ^ t.bits) :
    t.smear v = 2 ^ (Nat.log2 v + 1) - 1 := by
  have h8 := (((Smear.covers_one v).step (s := 1) (by decide)).step (s := 2) (by decide)).step
    (s := 4) (by decide)
  have h16 := h8.step (s := 8) (by decide)
  cases t with
  | uint16 => exact h16.eq hv hlt
  | uint32 => exact (h16.step (s := 16) (by decide)).eq hv hlt
  | uint64 => exact ((h16.step (s := 16) (by decide)).step (s := 32) (by decide)).eq hv hlt

/-- The hash of a smeared number leads to the right entry of the table. -/
lemma evil_hash (t : URNumType) : ∀ k < t.bits,
    t.evil[((2 ^ (k + 1) - 1) * t.hashFactor % 2 ^ t.bits) >>> t.hashShift]?
      = some (t.bits - 1 - k) := by
  cases t <;> decide +kernel

end URNumType

lemma rlg2_eq (hhash : checks.hash = false) {v : Nat} (hv : v ≠ 0) (hlt : v < 2 ^ t.bits) :
    rlg2 t checks v = some (t.bits - 1 - Nat.log2 v) := by
  have hlog : Nat.log2 v < t.bits := (Nat.log2_lt hv).mpr hlt
  unfold rlg2
  rw [hhash, URNumType.result_unchecked, Option.bind_eq_bind, Option.bind_some,
    URNumType.smear_eq hv hlt]
  exact t.evil_hash _ hlog

/-- Shifted by `rlg2` the number fits, and a number without the top bit moves. -/
lemma shiftLeft_rlg2_lt {v : Nat} (hv : v ≠ 0) (hlt : v < 2 ^ t.bits) :
    v * 2 ^ (t.bits - 1 - Nat.log2 v) < 2 ^ t.bits := by
  have hlog : Nat.log2 v < t.bits := (Nat.log2_lt hv).mpr hlt
  have hv : v < 2 ^ (Nat.log2 v + 1) := Nat.lt_log2_self
  calc v * 2 ^ (t.bits - 1 - Nat.log2 v)
      < 2 ^ (Nat.log2 v + 1) * 2 ^ (t.bits - 1 - Nat.log2 v) :=
        Nat.mul_lt_mul_of_pos_right hv (Nat.two_pow_pos _)
    _ = 2 ^ t.bits := by
        rw [← Nat.pow_add]
        congr 1
        omega

/-! ## The loop -/

/-- `m` is at most `NUM_MAX`, which does not use the top bit of a `URNum`. -/
def IsModulus (t : URNumType) (m : Nat) : Prop := 0 < m ∧ m < 2 ^ (t.bits - 1)

lemma IsModulus.two_mul_lt {m : Nat} (hm : IsModulus t m) : 2 * m < 2 ^ t.bits := by
  have hbits := t.bits_pos
  calc 2 * m < 2 * 2 ^ (t.bits - 1) := Nat.mul_lt_mul_of_pos_left hm.2 (by decide)
    _ = 2 ^ t.bits := by
      rw [← Nat.pow_succ']
      congr 1
      omega

/-- The loop multiplies by the power of 2 that is left of the word. -/
lemma shiftLoop_eq (hhash : checks.hash = false) {m : Nat} (hm : IsModulus t m) {n hi d sh : Nat}
    (hfits : hi * 2 ^ d < 2 ^ t.bits) (hpos : 0 < sh) (hn : sh ≤ n) :
    shiftLoop t checks m n hi d sh = some (hi * 2 ^ (d + sh) % m) := by
  induction n generalizing hi d sh with
  | zero => omega
  | succ n ih =>
    have hrest : hi * 2 ^ (d + sh) % m = hi * 2 ^ d % m * 2 ^ sh % m := by
      rw [Nat.pow_add, ← Nat.mul_assoc, Nat.mod_mul_mod]
    rw [shiftLoop, Nat.shiftLeft_eq, URNumType.result_eq hfits, Option.bind_eq_bind,
      Option.bind_some, hrest]
    dsimp only
    have hlt : hi * 2 ^ d % m < m := Nat.mod_lt _ hm.1
    generalize hi * 2 ^ d % m = r at hlt ⊢
    split_ifs with hzero
    · rw [hzero, Nat.zero_mul, Nat.zero_mod]
      rfl
    have hword : r < 2 ^ t.bits := by
      have htwo := hm.two_mul_lt
      omega
    have hlog : Nat.log2 r < t.bits - 1 := (Nat.log2_lt hzero).mpr (hlt.trans hm.2)
    have hshift := shiftLeft_rlg2_lt hzero hword
    rw [rlg2_eq hhash hzero hword, Option.bind_some]
    split_ifs with hlast
    · have hle : r * 2 ^ sh < 2 ^ t.bits :=
        Nat.lt_of_le_of_lt
          (Nat.mul_le_mul_left r (Nat.pow_le_pow_right (by decide) hlast)) hshift
      rw [Nat.shiftLeft_eq, URNumType.result_eq hle, Option.bind_some]
      rfl
    · rw [ih hshift (by omega) (by omega)]
      congr 4
      omega

/-! ## The partial products -/

lemma mul_add_add_lt {p q r s h : Nat} (hp : p < h) (hq : q < h) (hr : r < h) (hs : s < h) :
    p * q + r + s < h * h := by
  obtain ⟨k, rfl⟩ := Nat.exists_eq_succ_of_ne_zero (Nat.ne_zero_of_lt hp)
  have hmul : p * q ≤ k * k :=
    Nat.mul_le_mul (Nat.le_of_lt_succ hp) (Nat.le_of_lt_succ hq)
  have hsquare : (k + 1) * (k + 1) = k * k + 2 * k + 1 := by ring
  rw [Nat.succ_eq_add_one, hsquare]
  omega

/-- The schoolbook product with its carries. -/
lemma schoolbook {h ah al bh bl ch cl q₁ r₁ q₂ r₂ q₃ r₃ : Nat}
    (h₁ : al * bl + cl = h * q₁ + r₁) (h₂ : ah * bl + ch + q₁ = h * q₂ + r₂)
    (h₃ : al * bh + r₂ = h * q₃ + r₃) :
    (h * ah + al) * (h * bh + bl) + (h * ch + cl)
      = (ah * bh + q₂ + q₃) * (h * h) + (r₁ + r₃ * h) := by
  zify at h₁ h₂ h₃ ⊢
  linear_combination h₁ + h * h₂ + h * h₃

lemma loHalf_eq (x : Nat) : loHalf t x = x % 2 ^ t.halfword := Nat.and_two_pow_sub_one_eq_mod x _

lemma hiHalf_eq (x : Nat) : hiHalf t x = x / 2 ^ t.halfword := Nat.shiftRight_eq_div_pow x _

lemma loHalf_lt (x : Nat) : loHalf t x < 2 ^ t.halfword := by
  rw [loHalf_eq]
  exact Nat.mod_lt _ (Nat.two_pow_pos _)

lemma two_pow_bits (t : URNumType) : 2 ^ t.bits = 2 ^ t.halfword * 2 ^ t.halfword := by
  rw [URNumType.bits, Nat.two_mul, Nat.pow_add]

lemma hiHalf_lt {x : Nat} (hx : x < 2 ^ t.bits) : hiHalf t x < 2 ^ t.halfword := by
  rw [hiHalf_eq]
  rw [two_pow_bits] at hx
  exact Nat.div_lt_of_lt_mul hx

lemma halves (t : URNumType) (x : Nat) : 2 ^ t.halfword * hiHalf t x + loHalf t x = x := by
  rw [loHalf_eq, hiHalf_eq]
  exact Nat.div_add_mod x _

/-- The sum `p * q + r + s` of halves fits, and so do its parts. -/
lemma result_mul_add (checked : Bool) {p q r s : Nat} (hp : p < 2 ^ t.halfword)
    (hq : q < 2 ^ t.halfword) (hr : r < 2 ^ t.halfword) (hs : s < 2 ^ t.halfword) :
    t.result checked (p * q) = some (p * q) ∧
      t.result checked (p * q + r) = some (p * q + r) ∧
      t.result checked (p * q + r + s) = some (p * q + r + s) ∧ p * q + r + s < 2 ^ t.bits := by
  have hlt : p * q + r + s < 2 ^ t.bits := by
    rw [two_pow_bits]
    exact mul_add_add_lt hp hq hr hs
  exact ⟨t.result_eq (by omega), t.result_eq (by omega), t.result_eq hlt, hlt⟩

variable (checks) in
/-- The high and the low word of `a * b + c`, as the first half of `muladdmod` computes them. -/
lemma muladdmod_halves (n : Nat) {a b c : Nat} (ha : a < 2 ^ t.bits) (hb : b < 2 ^ t.bits)
    (hc : c < 2 ^ t.bits) (m : Nat) :
    ∃ hi lo, hi < 2 ^ t.bits ∧ a * b + c = hi * 2 ^ t.bits + lo ∧
      muladdmod t checks n a b c m = (shiftHigh t checks m n hi).bind fun hi =>
        (t.result checks.arith (lo % m + hi)).bind fun sum => some (sum % m) := by
  have hah := hiHalf_lt ha
  have hbh := hiHalf_lt hb
  have hch := hiHalf_lt hc
  obtain ⟨hlo₁, hlo₂, -, -⟩ :=
    result_mul_add checks.arith (loHalf_lt a) (loHalf_lt b) (loHalf_lt c) (Nat.two_pow_pos _)
  have hlo_lt : loHalf t a * loHalf t b + loHalf t c < 2 ^ t.bits := by
    rw [two_pow_bits]
    exact mul_add_add_lt (loHalf_lt a) (loHalf_lt b) (loHalf_lt c) (Nat.two_pow_pos _)
  generalize hlo : loHalf t a * loHalf t b + loHalf t c = lo at hlo₂ hlo_lt
  obtain ⟨hmi₁, hmi₂, hmi₃, hmi_lt⟩ :=
    result_mul_add checks.arith hah (loHalf_lt b) hch (hiHalf_lt hlo_lt)
  generalize hmi1 : hiHalf t a * loHalf t b + hiHalf t c + hiHalf t lo = mi1 at hmi₃ hmi_lt
  obtain ⟨hni₁, hni₂, -, -⟩ :=
    result_mul_add checks.arith (loHalf_lt a) hbh (loHalf_lt mi1) (Nat.two_pow_pos _)
  have hni_lt : loHalf t a * hiHalf t b + loHalf t mi1 < 2 ^ t.bits := by
    rw [two_pow_bits]
    exact mul_add_add_lt (loHalf_lt a) hbh (loHalf_lt mi1) (Nat.two_pow_pos _)
  generalize hmi2 : loHalf t a * hiHalf t b + loHalf t mi1 = mi2 at hni₂ hni_lt
  obtain ⟨hhi₁, hhi₂, hhi₃, hhi_lt⟩ :=
    result_mul_add checks.arith hah hbh (hiHalf_lt hmi_lt) (hiHalf_lt hni_lt)
  have hshift : loHalf t mi2 <<< t.halfword < 2 ^ t.bits := by
    rw [Nat.shiftLeft_eq, two_pow_bits]
    exact Nat.mul_lt_mul_of_pos_right (loHalf_lt mi2) (Nat.two_pow_pos _)
  have hsum : loHalf t lo + loHalf t mi2 <<< t.halfword < 2 ^ t.bits := by
    have hlo := loHalf_lt (t := t) lo
    have hmul := Nat.mul_le_mul_right (2 ^ t.halfword) (loHalf_lt (t := t) mi2)
    rw [Nat.succ_mul] at hmul
    rw [Nat.shiftLeft_eq, two_pow_bits]
    omega
  refine ⟨_, loHalf t lo + loHalf t mi2 <<< t.halfword, hhi_lt, ?_, ?_⟩
  · rw [Nat.shiftLeft_eq, two_pow_bits]
    nth_rewrite 1 [← halves t a, ← halves t b, ← halves t c]
    exact schoolbook (hlo.trans (halves t lo).symm) (hmi1.trans (halves t mi1).symm)
      (hmi2.trans (halves t mi2).symm)
  · unfold muladdmod
    simp only [hlo₁, hlo, hlo₂, hmi₁, hmi₂, hmi1, hmi₃, hni₁, hmi2, hni₂, hhi₁, hhi₂, hhi₃,
      t.result_eq hshift, t.result_eq hsum, Option.bind_eq_bind, Option.bind_some]
    rfl

lemma shiftHigh_eq (hhash : checks.hash = false) {m n hi : Nat} (hm : IsModulus t m)
    (hhi : hi < 2 ^ t.bits) (hn : t.bits ≤ n) :
    shiftHigh t checks m n hi = some (hi * 2 ^ t.bits % m) := by
  unfold shiftHigh
  split_ifs with hzero
  · have hlog : Nat.log2 hi < t.bits := (Nat.log2_lt hzero).mpr hhi
    have hbits : 2 * t.halfword = t.bits := rfl
    rw [rlg2_eq hhash hzero hhi, Option.bind_eq_bind, Option.bind_some, hbits,
      shiftLoop_eq hhash hm (shiftLeft_rlg2_lt hzero hhi) (by omega) (by omega)]
    congr 4
    omega
  · rw [not_not.mp hzero, Nat.zero_mul, Nat.zero_mod]

lemma muladdmod_exact (hhash : checks.hash = false) {n a b c m : Nat} (ha : a < 2 ^ t.bits)
    (hb : b < 2 ^ t.bits) (hc : c < 2 ^ t.bits) (hm : IsModulus t m) (hn : t.bits ≤ n) :
    muladdmod t checks n a b c m = some ((a * b + c) % m) := by
  obtain ⟨hi, lo, hhi, hsplit, heq⟩ := muladdmod_halves checks n ha hb hc m
  have hlt : lo % m + hi * 2 ^ t.bits % m < 2 ^ t.bits := by
    have htwo := hm.two_mul_lt
    have hlo := Nat.mod_lt lo hm.1
    have hhi := Nat.mod_lt (hi * 2 ^ t.bits) hm.1
    omega
  rw [heq, shiftHigh_eq hhash hm hhi hn, Option.bind_some, t.result_eq hlt, Option.bind_some,
    hsplit, ← Nat.add_mod, Nat.add_comm lo]

/-- `muladdmod` is exact for every modulus up to `NUM_MAX`. No sum, product or shift exceeds the
word, apart from the product that `rlg2` hashes with. -/
theorem muladdmod_eq (t : URNumType) (checked : Bool) {n a b c m : Nat} (ha : a < 2 ^ t.bits)
    (hb : b < 2 ^ t.bits) (hc : c < 2 ^ t.bits) (hm : IsModulus t m) (hn : t.bits ≤ n) :
    muladdmod t ⟨checked, false⟩ n a b c m = some ((a * b + c) % m) :=
  muladdmod_exact rfl ha hb hc hm hn

/-- The greatest words modulo the greatest number. -/
theorem muladdmod_eq_greatest :
    muladdmod .uint64 ⟨true, false⟩ 64 0xffffffffffffffff 0xffffffffffffffff 0xffffffffffffffff
        0x7fffffffffffffff
      = some ((0xffffffffffffffff * 0xffffffffffffffff + 0xffffffffffffffff)
          % 0x7fffffffffffffff) :=
  muladdmod_eq .uint64 true (by decide) (by decide) (by decide) ⟨by decide, by decide⟩ (by decide)

/-- `2 ^ 70` modulo 3: the high word is 64, and 127 times the factor of the hash exceeds the
word. -/
theorem muladdmod_hash_exceeds :
    muladdmod .uint64 ⟨true, true⟩ 64 0x4000000000 0x100000000 0 3 = none ∧
      muladdmod .uint64 ⟨true, false⟩ 64 0x4000000000 0x100000000 0 3 = some (2 ^ 70 % 3) :=
  ⟨rfl, by decide +kernel⟩

end LambdaMOO
