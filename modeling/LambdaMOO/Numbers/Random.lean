import LambdaMOO.Lib.Sampler
import LambdaMOO.Numbers.Arith
import LambdaMOO.Numbers.MulAddMod
import LambdaMOO.Structures

/-!
# Random numbers

`bf_random` for each width of `Num` and each range of the platform's generator, whose results
are a list of draws.
-/

namespace LambdaMOO

/-- What the preprocessor finds out about the platform. `RAND_MAX` is `2 ^ randBits - 1`, and
`int` the width of `Num`. -/
structure RandConfig where
  int : IntType
  randBits : Nat
  /-- There is an integer type of twice the width of `URNum`. -/
  hasURNum2 : Bool
  pos : 0 < randBits
  /-- The generators that the code can cope with. -/
  known : randBits < int.bits ∨ randBits = 31 ∨ randBits = 63

/-- What `bf_random` comes to. -/
inductive Sampled (α : Type) where
  | value (r : α) (rest : List Nat)
  | error (e : ErrorCode)
  /-- The generator is called again. -/
  | waiting
  /-- `muladdmod` does not return. -/
  | stuck
  deriving DecidableEq, Repr

namespace RandConfig

open Sampler

variable (c : RandConfig)

/-- `RAND_MAX`. -/
def randMax : Nat := 2 ^ c.randBits - 1

/-- `RANGE`. -/
def range : Nat := c.randMax + 1

/-- The type of `URNum`. -/
def urnum : URNumType :=
  if c.randBits < c.int.bits then
    match c.int with
    | .int16 => .uint16
    | .int32 => .uint32
    | .int64 => .uint64
  else if c.randBits = 31 then .uint32
  else .uint64

/-- The width of `URNum2`. -/
def urnum2Bits : Nat :=
  match c.urnum with
  | .uint64 => 128
  | _ => 64

/-- The assignment to a `URNum`. -/
def toURNum (x : Nat) : Nat := x % 2 ^ c.urnum.bits

/-- `NUM_MAX > RAND_MAX`. -/
def IsGeneral : Prop := (c.randMax : Int) < (Num.numMax c.int).toInt

instance : Decidable c.IsGeneral := inferInstanceAs (Decidable (_ < _))

/-- `OR_ZERO`. -/
def orZero (n : Nat) : Nat := if c.IsGeneral then n else 0

/-- `muladdmod`, with or without a type of twice the width. -/
def muladdmod (x y z m : Nat) : Option Nat :=
  if c.hasURNum2 then some (c.toURNum ((x * y + z) % 2 ^ c.urnum2Bits % m))
  else LambdaMOO.muladdmod c.urnum ⟨false, false⟩ c.urnum.bits x y z m

/-- `1 + n`, assigned to a `Num`. -/
def succ (n : Nat) : Num c.int := BitVec.ofNat c.int.bits (c.toURNum (1 + n))

/-- The endless loop of `bf_random` for a positive `num`. A turn of the loop inside it ends, as
one of the loop itself begins, with a draw. -/
def loop (num range_l : Nat) : List Nat → Nat → Nat → Sampled (Num c.int)
  | [], _, _ => .waiting
  | rnd_next :: draws, rnd, e =>
    let range := c.range
    if c.IsGeneral ∧ (e < num / range ∨ e = num / range ∧ num % range ≠ 0) then
      loop num range_l draws (c.toURNum (rnd * range + rnd_next)) (c.toURNum (e * range))
    else if c.orZero (num / range) < rnd then
      match c.muladdmod rnd range_l rnd_next num with
      | none => .stuck
      | some n => .value (c.succ n) draws
    else
      let rnd := c.toURNum (c.orZero (rnd * range) + rnd_next)
      match c.muladdmod e range_l 0 num with
      | none => .stuck
      | some e =>
        if e ≤ rnd then .value (c.succ (rnd % num)) draws else loop num range_l draws rnd e

/-- `range_l`. The sum is positive. -/
def rangeL (num : Int) : Int :=
  ((if c.IsGeneral then (c.randMax : Int) else c.randMax - num) + 1).tmod num

/-- `bf_random`. -/
def bfRandom (arg : Option (Num c.int)) (draws : List Nat) : Sampled (Num c.int) :=
  let num := (arg.getD (Num.numMax c.int)).toInt
  if num ≤ 0 then .error .eInvarg
  else
    let range_l := (c.rangeL num).toNat
    let num := num.toNat
    if c.IsGeneral then c.loop num range_l draws 0 1
    else
      match draws with
      | [] => .waiting
      | rnd :: draws =>
        let e := range_l
        if e ≤ rnd then .value (c.succ (rnd % num)) draws else c.loop num range_l draws rnd e

/-- What the samples are as values of `bf_random`. -/
def ofSample : Option (Nat × List Nat) → Sampled (Num c.int)
  | none => .waiting
  | some (n, rest) => .value (c.succ n) rest

/-- The number of sequences of `k` draws on which `random(num)` stops with the result `r`. -/
def stopsWith (num : Num c.int) (k : Nat) (r : Num c.int) : Nat :=
  (Finset.univ.filter fun d : Fin k → Fin c.range =>
    c.bfRandom (some num) (List.ofFn fun i => (d i).val) = .value r []).card

/-- A result of `random(num)`. -/
def IsResult (num r : Num c.int) : Prop := 1 ≤ r.toInt ∧ r.toInt ≤ num.toInt

/-- `random(num)` is uniform. -/
structure IsUniform (num : Num c.int) : Prop where
  isResult : ∀ draws : List Nat, (∀ d ∈ draws, d ≤ c.randMax) → ∀ r rest,
    c.bfRandom (some num) draws = .value r rest → c.IsResult num r
  uniform : ∀ k r r', c.IsResult num r → c.IsResult num r' →
    c.stopsWith num k r = c.stopsWith num k r'
  /-- It is always possible that the loop stops. -/
  stops : ∀ draws : List Nat, (∀ d ∈ draws, d ≤ c.randMax) → ∃ more : List Nat,
    (∀ d ∈ more, d ≤ c.randMax) ∧
      ∃ r rest, c.bfRandom (some num) (draws ++ more) = .value r rest

/-! ## Bounds -/

variable {c}

lemma urnum_bits (c : RandConfig) : c.urnum.bits =
    if c.randBits < c.int.bits then c.int.bits else if c.randBits = 31 then 32 else 64 := by
  unfold urnum
  split_ifs
  · cases c.int <;> rfl
  · rfl
  · rfl

/-- A `URNum` holds the numbers of the generator and the positive values of a `Num`. -/
lemma bounds (c : RandConfig) : c.randBits < c.urnum.bits ∧ c.int.bits ≤ c.urnum.bits := by
  have hpow : c.int.bits = 16 ∨ c.int.bits = 32 ∨ c.int.bits = 64 := by cases c.int <;> decide
  rw [urnum_bits]
  by_cases hlt : c.randBits < c.int.bits
  · rw [if_pos hlt]
    exact ⟨hlt, le_rfl⟩
  · rw [if_neg hlt]
    rcases c.known with h | h | h
    · exact absurd h hlt
    · rw [if_pos h]
      omega
    · rw [if_neg (by omega)]
      omega

lemma two_mul_le_urnum2Bits (c : RandConfig) : 2 * c.urnum.bits ≤ c.urnum2Bits := by
  unfold urnum2Bits
  cases c.urnum <;> decide

lemma range_eq (c : RandConfig) : c.range = 2 ^ c.randBits :=
  Nat.sub_add_cancel (Nat.two_pow_pos _)

lemma two_le_range (c : RandConfig) : 2 ≤ c.range := by
  rw [range_eq]
  exact Nat.pow_le_pow_right (n := 2) (by decide) c.pos

lemma two_mul_range_le (c : RandConfig) : 2 * c.range ≤ 2 ^ c.urnum.bits := by
  rw [range_eq, ← Nat.pow_succ']
  exact Nat.pow_le_pow_right (by decide) c.bounds.1

lemma toURNum_eq {x : Nat} (h : x < 2 ^ c.urnum.bits) : c.toURNum x = x := Nat.mod_eq_of_lt h

/-- `n` is the value of a positive `Num`. -/
structure IsNum (c : RandConfig) (n : Nat) : Prop where
  pos : 0 < n
  le : n < 2 ^ (c.int.bits - 1)

lemma IsNum.isModulus {n : Nat} (h : c.IsNum n) : IsModulus c.urnum n := by
  refine ⟨h.pos, h.le.trans_le (Nat.pow_le_pow_right (by decide) ?_)⟩
  have hbits := c.bounds.2
  omega

lemma isNum_toNat {num : Num c.int} (h : 0 < num.toInt) : c.IsNum num.toInt.toNat := by
  refine ⟨by omega, ?_⟩
  have hlt := BitVec.toInt_lt (x := num)
  have hcast : ((2 ^ (c.int.bits - 1) : Nat) : Int) = 2 ^ (c.int.bits - 1) := by push_cast; rfl
  omega

lemma toInt_numMax (t : IntType) : (Num.numMax t).toInt = ((2 ^ (t.bits - 1) - 1 : Nat) : Int) := by
  cases t <;> rfl

lemma isGeneral_iff (c : RandConfig) : c.IsGeneral ↔ c.range < 2 ^ (c.int.bits - 1) := by
  unfold IsGeneral range
  rw [toInt_numMax]
  omega

/-! ## The loop -/

lemma muladdmod_eq_mod {x y z m : Nat} (hx : x < 2 ^ c.urnum.bits) (hy : y < 2 ^ c.urnum.bits)
    (hz : z < 2 ^ c.urnum.bits) (hm : IsModulus c.urnum m) :
    c.muladdmod x y z m = some ((x * y + z) % m) := by
  unfold muladdmod
  split_ifs
  · have hlt : x * y + z < 2 ^ c.urnum2Bits := by
      calc x * y + z + 0 < 2 ^ c.urnum.bits * 2 ^ c.urnum.bits :=
            mul_add_add_lt hx hy hz (Nat.two_pow_pos _)
        _ = 2 ^ (2 * c.urnum.bits) := by rw [Nat.two_mul, Nat.pow_add]
        _ ≤ 2 ^ c.urnum2Bits := Nat.pow_le_pow_right (by decide) c.two_mul_le_urnum2Bits
    have hmod : (x * y + z) % m < 2 ^ c.urnum.bits := by
      have htwo := hm.two_mul_lt
      have hlt := Nat.mod_lt (x * y + z) hm.1
      omega
    rw [Nat.mod_eq_of_lt hlt, toURNum_eq hmod]
  · exact muladdmod_exact rfl hx hy hz hm le_rfl

/-- The test of the inner loop. -/
lemma mul_lt_iff {R e n : Nat} (hR : 0 < R) :
    e < n / R ∨ e = n / R ∧ n % R ≠ 0 ↔ e * R < n := by
  have hdiv := Nat.div_add_mod' n R
  have hmod := Nat.mod_lt n hR
  generalize n / R = q at hdiv ⊢
  constructor
  · rintro (hlt | ⟨rfl, hne⟩)
    · have hmul := Nat.mul_le_mul_right R hlt
      rw [Nat.succ_mul] at hmul
      omega
    · omega
  · intro hlt
    rcases Nat.lt_trichotomy e q with h | h | h
    · exact .inl h
    · exact .inr ⟨h, by subst h; omega⟩
    · have hmul := Nat.mul_le_mul_right R h
      rw [Nat.succ_mul] at hmul
      omega

/-- Where `OR_ZERO` is zero, every `num` is below the range. -/
lemma le_range (hgen : ¬ c.IsGeneral) {n : Nat} (hn : c.IsNum n) : n < c.range := by
  rw [isGeneral_iff] at hgen
  have hlt := hn.le
  omega

lemma orZero_div {n : Nat} (hn : c.IsNum n) : c.orZero (n / c.range) = n / c.range := by
  unfold orZero
  split_ifs with hgen
  · rfl
  · exact (Nat.div_eq_of_lt (le_range hgen hn)).symm

lemma orZero_mul {n rnd : Nat} (hn : c.IsNum n) (h : rnd ≤ n / c.range) :
    c.orZero (rnd * c.range) = rnd * c.range := by
  unfold orZero
  split_ifs with hgen
  · rfl
  · rw [Nat.div_eq_of_lt (le_range hgen hn)] at h
    rw [Nat.le_zero.mp h, Nat.zero_mul]

/-- The loop of `bf_random` samples. -/
lemma loop_eq {n : Nat} (hn : c.IsNum n) {draws : List Nat} (hdraws : ∀ d ∈ draws, d < c.range)
    {rnd e : Nat} (hlt : rnd < e) (hle : e ≤ n) :
    c.loop n (c.range % n) draws rnd e = c.ofSample (sample c.range n draws rnd e) := by
  induction draws generalizing rnd e with
  | nil => rfl
  | cons d ds ih =>
    have hrange : 0 < c.range := Nat.zero_lt_of_lt c.two_le_range
    have hd : d < c.range := hdraws d List.mem_cons_self
    have hds := fun d h => hdraws d (List.mem_cons_of_mem _ h)
    have hmod := hn.isModulus
    have htwo := hmod.two_mul_lt
    have hword := c.two_mul_range_le
    have hrem : c.range % n < 2 ^ c.urnum.bits := by
      have hlt := Nat.mod_lt c.range hn.pos
      omega
    have hdigit : rnd * c.range + d < e * c.range := by
      have hmul := Nat.mul_le_mul_right c.range hlt
      rw [Nat.succ_mul] at hmul
      omega
    simp only [loop, sample, mul_lt_iff hrange, orZero_div hn]
    by_cases hmore : e * c.range < n
    · have hgen : c.IsGeneral := by
        by_contra hgen
        have hbelow := le_range hgen hn
        have hmul := Nat.mul_le_mul_right c.range (Nat.one_le_of_lt hlt)
        omega
      rw [if_pos ⟨hgen, hmore⟩, if_pos hmore, toURNum_eq (by omega), toURNum_eq (by omega)]
      exact ih hds hdigit hmore.le
    rw [if_neg (fun h => hmore h.2), if_neg hmore]
    have hcarry : e * c.range % n < n := Nat.mod_lt _ hn.pos
    by_cases hskip : n / c.range < rnd
    · -- the combined number is at least `num`, and so not below the remainder
      have hover : n < rnd * c.range := by
        have hdiv := Nat.lt_mul_div_succ n hrange
        have hmul := Nat.mul_le_mul_right c.range hskip
        rw [Nat.mul_comm] at hdiv
        exact hdiv.trans_le hmul
      rw [if_pos hskip, if_neg (by omega), muladdmod_eq_mod (by omega) hrem (by omega) hmod,
        Nat.add_mod, Nat.mul_mod_mod, ← Nat.add_mod]
      rfl
    · have hdiv : rnd * c.range ≤ n :=
        (Nat.mul_le_mul_right c.range (Nat.le_of_not_lt hskip)).trans (Nat.div_mul_le_self n _)
      rw [if_neg hskip, orZero_mul hn (Nat.le_of_not_lt hskip), toURNum_eq (by omega),
        muladdmod_eq_mod (by omega) hrem (Nat.two_pow_pos _) hmod, Nat.add_zero, Nat.mul_mod_mod]
      dsimp only
      by_cases hstop : rnd * c.range + d < e * c.range % n
      · rw [if_neg (Nat.not_le_of_lt hstop), if_pos hstop]
        exact ih hds hstop hcarry.le
      · rw [if_pos (Nat.le_of_not_lt hstop), if_neg hstop]
        rfl

/-! ## The result -/

lemma rangeL_eq {n : Nat} (hn : c.IsNum n) : c.rangeL n = (c.range % n : Nat) := by
  unfold rangeL
  split_ifs with hgen
  · exact (Int.ofNat_tmod (c.randMax + 1) n).symm
  · have hlt := le_range hgen hn
    have hsub : (c.randMax : Int) - n + 1 = (c.range - n : Nat) := by
      unfold range at hlt ⊢
      omega
    rw [hsub, Nat.mod_eq_sub_mod hlt.le]
    exact (Int.ofNat_tmod _ _).symm

lemma bfRandom_eq {num : Num c.int} (hnum : 0 < num.toInt) {draws : List Nat}
    (hdraws : ∀ d ∈ draws, d < c.range) :
    c.bfRandom (some num) draws =
      c.ofSample (sample c.range num.toInt.toNat draws 0 1) := by
  have hn := isNum_toNat hnum
  have hcast : num.toInt = (num.toInt.toNat : Int) := by omega
  unfold bfRandom
  simp only [Option.getD_some]
  rw [if_neg (Int.not_le_of_gt hnum)]
  generalize num.toInt.toNat = n at hn hcast ⊢
  rw [hcast, rangeL_eq hn, Int.toNat_natCast]
  split_ifs with hgen
  · exact loop_eq hn hdraws Nat.zero_lt_one hn.pos
  · have hlt := le_range hgen hn
    cases draws with
    | nil => rfl
    | cons d ds =>
      have hds := fun d h => hdraws d (List.mem_cons_of_mem _ h)
      simp only [sample, Nat.zero_mul, Nat.zero_add, Nat.one_mul]
      rw [if_neg (Nat.not_lt_of_gt hlt)]
      by_cases hstop : d < c.range % n
      · rw [if_neg (Nat.not_le_of_lt hstop), if_pos hstop]
        exact loop_eq hn hds hstop (Nat.mod_lt _ hn.pos).le
      · rw [if_pos (Nat.le_of_not_lt hstop), if_neg hstop]
        rfl

lemma toInt_succ {num : Num c.int} (hnum : 0 < num.toInt) {n : Nat} (hn : n < num.toInt.toNat) :
    (c.succ n).toInt = n + 1 := by
  have hle := (isNum_toNat hnum).le
  have hbits := c.bounds.2
  have hpow : 2 ^ (c.int.bits - 1) ≤ 2 ^ (c.urnum.bits - 1) :=
    Nat.pow_le_pow_right (by decide) (by omega)
  have htwo : ∀ b, 0 < b → 2 ^ b = 2 * 2 ^ (b - 1) := by
    intro b hb
    rw [← Nat.pow_succ']
    congr 1
    omega
  have hint := htwo _ c.int.bits_pos
  have hurnum := htwo _ c.urnum.bits_pos
  unfold succ
  rw [toURNum_eq (by omega), BitVec.toInt_eq_toNat_of_lt] <;>
    rw [BitVec.toNat_ofNat, Nat.mod_eq_of_lt (by omega)] <;> omega

/-- The results are the numbers below `num`, plus one. -/
lemma succ_eq_iff {num r : Num c.int} (hnum : 0 < num.toInt) (hr : c.IsResult num r) {n : Nat}
    (hn : n < num.toInt.toNat) : c.succ n = r ↔ n = r.toInt.toNat - 1 := by
  rw [← BitVec.toInt_inj, toInt_succ hnum hn]
  obtain ⟨hpos, -⟩ := hr
  omega

lemma stopsWith_eq {num r : Num c.int} (hnum : 0 < num.toInt) (hr : c.IsResult num r) (k : Nat) :
    c.stopsWith num k r = stops c.range num.toInt.toNat k 0 1 (r.toInt.toNat - 1) := by
  unfold stopsWith stops
  congr 1
  apply Finset.filter_congr
  intro d _
  have hdraws : ∀ x ∈ List.ofFn fun i => (d i).val, x < c.range := by
    intro x hx
    obtain ⟨i, rfl⟩ := List.mem_ofFn.mp hx
    exact (d i).isLt
  rw [bfRandom_eq hnum hdraws]
  cases hs : sample c.range num.toInt.toNat (List.ofFn fun i => (d i).val) 0 1 with
  | none => simp [ofSample]
  | some p =>
    obtain ⟨n, rest⟩ := p
    have hlt := sample_lt (isNum_toNat hnum).pos hs
    simp [ofSample, succ_eq_iff hnum hr hlt]

/-- `random(num)` is uniform on the numbers from 1 to `num`, for every positive `num`. -/
theorem bfRandom_isUniform (c : RandConfig) (num : Num c.int) (hnum : 0 < num.toInt) :
    c.IsUniform num := by
  have hn := isNum_toNat hnum
  have hbelow : ∀ {draws : List Nat}, (∀ d ∈ draws, d ≤ c.randMax) → ∀ d ∈ draws, d < c.range :=
    fun h d hd => Nat.lt_succ_of_le (h d hd)
  constructor
  case isResult =>
    intro draws hdraws r rest hret
    rw [bfRandom_eq hnum (hbelow hdraws)] at hret
    cases hs : sample c.range num.toInt.toNat draws 0 1 with
    | none =>
      rw [hs] at hret
      cases hret
    | some p =>
      rw [hs] at hret
      cases hret
      have hlt := sample_lt hn.pos hs
      rw [IsResult, toInt_succ hnum hlt]
      omega
  case uniform =>
    intro k r r' hr hr'
    rw [stopsWith_eq hnum hr, stopsWith_eq hnum hr']
    obtain ⟨-, hle⟩ := hr
    obtain ⟨-, hle'⟩ := hr'
    exact stops_start (by omega) (by omega) k
  case stops =>
    intro draws hdraws
    have hmore : ∀ d ∈ List.replicate num.toInt.toNat (c.range - 1), d ≤ c.randMax := by
      intro d hd
      rw [List.eq_of_mem_replicate hd]
      exact le_rfl
    refine ⟨_, hmore, ?_⟩
    obtain ⟨⟨n, rest⟩, hs⟩ := Option.isSome_iff_exists.mp
      (sample_append c.two_le_range (hbelow hdraws) Nat.zero_lt_one hn.pos)
    rw [bfRandom_eq hnum, hs]
    · exact ⟨_, _, rfl⟩
    · intro d hd
      rcases List.mem_append.mp hd with hd | hd
      · exact hbelow hdraws d hd
      · exact hbelow hmore d hd

/-- 31 bits a draw, and the greatest 64-bit integer. -/
theorem bfRandom_isUniform_greatest :
    IsUniform ⟨.int64, 31, false, by decide, by decide⟩ (Num.numMax .int64) :=
  bfRandom_isUniform _ _ (by decide)

end RandConfig

end LambdaMOO
