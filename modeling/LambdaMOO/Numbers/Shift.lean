import LambdaMOO.Numbers.Arith

/-!
# Shifts

`EOP_SHL`, `EOP_SHR` and `EOP_LSHR` of `execute.c`. The sign is extended with masks that are
made by a shift themselves, and that shift is by the whole width if the count is 0.
-/

namespace LambdaMOO

variable {t : IntType}

section CShifts

variable {p : Nat}

/-- C leaves a shift undefined whose count is not below the width of the operand. -/
def cShl (x : BitVec p) (n : Nat) : Option (BitVec p) := if n < p then some (x <<< n) else none

/-- The right shift of an operand that is not negative. -/
def cShr (x : BitVec p) (n : Nat) : Option (BitVec p) := if n < p then some (x >>> n) else none

end CShifts

/-- `HIGHONES`. -/
def highones (t : IntType) (c : Nat) : Option (Num t) :=
  (cShl (BitVec.allOnes t.promoted) (t.bits - c)).map Num.ofPromoted

/-- `LOWONES`. -/
def lowones (t : IntType) (c : Nat) : Option (Num t) := (highones t c).map (~~~ ·)

/-- `LOGSHIFTR`. -/
def logshiftr (a : Num t) (b : Nat) : Option (Num t) := do
  let x ← cShr (a.setWidth t.promoted) b
  let mask ← lowones t b
  some (Num.ofPromoted x &&& mask)

/-- `a < 0 ? HIGHONES(b) : 0`. -/
def signOnes (a : Num t) (b : Nat) : Option (Num t) := if a.slt 0 then highones t b else some 0

/-- `SHIFTR`. -/
def shiftr (a : Num t) (b : Nat) : Option (Num t) := do
  let x ← logshiftr a b
  let ones ← signOnes a b
  some (x ^^^ ones)

inductive ShiftOp where
  | shl
  | shr
  | lshr
  deriving DecidableEq, Repr

/-- What is computed if the count is admitted. -/
def ShiftOp.compute (op : ShiftOp) (a : Num t) (n : Nat) : Option (Num t) :=
  match op with
  | .shl => (cShl a.promote n).map Num.ofPromoted
  | .shr => shiftr a n
  | .lshr => logshiftr a n

/-- `EOP_SHL`, `EOP_SHR` and `EOP_LSHR`: what is pushed, also as an error. None where C is
undefined. -/
def execShift (op : ShiftOp) : ArithVar t → ArithVar t → Option (ArithVar t)
  | .int lhs, .int rhs =>
    if rhs.slt 0 || t.bits ≤ rhs.toNat then some (.err .eInvarg)
    else (op.compute lhs rhs.toNat).map .int
  | _, _ => some (.err .eType)

/-- The mathematical result modulo `2 ^ bits`. -/
def ShiftOp.result (op : ShiftOp) (a : Num t) (n : Nat) : Num t :=
  match op with
  | .shl => BitVec.ofInt t.bits (a.toInt * 2 ^ n)
  | .shr => BitVec.ofInt t.bits (a.toInt / 2 ^ n)
  | .lshr => BitVec.ofNat t.bits (a.toNat / 2 ^ n)

/-! ## Bits -/

lemma getLsbD_ofPromoted (x : BitVec t.promoted) (i : Nat) :
    (Num.ofPromoted x).getLsbD i = (decide (i < t.bits) && x.getLsbD i) :=
  BitVec.getLsbD_setWidth t.bits x i

/-- A mask is undefined for the count 0, unless C computes it in a wider type. -/
lemma highones_eq_none_iff {c : Nat} (hc : c < t.bits) :
    highones t c = none ↔ c = 0 ∧ t ≠ .int16 := by
  have hnone : highones t c = none ↔ t.promoted ≤ t.bits - c := by
    rw [highones, Option.map_eq_none_iff, cShl, ite_eq_right_iff]
    constructor
    · intro h
      by_contra hlt
      cases h (Nat.lt_of_not_le hlt)
    · intro hle hlt
      exact absurd hle (Nat.not_le_of_lt hlt)
  rw [hnone]
  cases t with
  | int16 =>
    -- here int has more bits than the operand
    refine iff_of_false ?_ fun h => h.2 rfl
    change ¬ 32 ≤ 16 - c
    omega
  | int32 =>
    change 32 ≤ 32 - c ↔ _
    rw [and_iff_left (by decide)]
    omega
  | int64 =>
    change 64 ≤ 64 - c ↔ _
    rw [and_iff_left (by decide)]
    omega

lemma exists_highones {c : Nat} (hc : c < t.bits) (h : ¬ (c = 0 ∧ t ≠ .int16)) :
    ∃ m, highones t c = some m ∧
      ∀ i, m.getLsbD i = (decide (i < t.bits) && decide (t.bits - c ≤ i)) := by
  obtain ⟨m, hm⟩ : ∃ m, highones t c = some m := by
    rw [← Option.ne_none_iff_exists']
    exact fun hnone => h ((highones_eq_none_iff hc).mp hnone)
  refine ⟨m, hm, fun i => ?_⟩
  obtain ⟨x, hx, rfl⟩ := Option.map_eq_some_iff.mp hm
  have hlt : t.bits - c < t.promoted := by
    by_contra hge
    rw [cShl, if_neg hge] at hx
    cases hx
  rw [cShl, if_pos hlt, Option.some.injEq] at hx
  have hle := t.bits_le_promoted
  rw [getLsbD_ofPromoted, ← hx, BitVec.getLsbD_shiftLeft, BitVec.getLsbD_allOnes]
  by_cases hi : i < t.bits
  · have h₁ : i < t.promoted := by omega
    have h₂ : i - (t.bits - c) < t.promoted := by omega
    rw [Bool.eq_iff_iff]
    simp only [hi, h₁, h₂, decide_true, Bool.true_and, Bool.and_true, Bool.not_eq_true',
      decide_eq_false_iff_not, decide_eq_true_eq, Nat.not_lt]
  · simp [hi]

/-- The mask takes nothing away. -/
lemma logshiftr_eq (a : Num t) {b : Nat} (hb : b < t.bits) (h : ¬ (b = 0 ∧ t ≠ .int16)) :
    logshiftr a b = some (a >>> b) := by
  obtain ⟨m, hm, hbits⟩ := exists_highones hb h
  have hlt : b < t.promoted := Nat.lt_of_lt_of_le hb t.bits_le_promoted
  simp only [logshiftr, cShr, if_pos hlt, lowones, hm, Option.map_some, Option.bind_eq_bind,
    Option.bind_some]
  congr 1
  apply BitVec.eq_of_getLsbD_eq
  intro i hi
  have hin : i < t.promoted := Nat.lt_of_lt_of_le hi t.bits_le_promoted
  rw [BitVec.getLsbD_and, getLsbD_ofPromoted, BitVec.getLsbD_not, hbits,
    BitVec.getLsbD_ushiftRight, BitVec.getLsbD_ushiftRight, BitVec.getLsbD_setWidth]
  by_cases hlow : b + i < t.bits
  · have h₁ : ¬ t.bits - b ≤ i := by omega
    have h₂ : b + i < t.promoted := by
      have := t.bits_le_promoted
      omega
    simp [hi, h₁, h₂]
  · have hzero : a.getLsbD (b + i) = false := BitVec.getLsbD_of_ge a _ (Nat.not_lt.mp hlow)
    simp [hzero]

/-- The mask is the extended sign. -/
lemma shiftr_eq (a : Num t) {b : Nat} (hb : b < t.bits) (h : ¬ (b = 0 ∧ t ≠ .int16)) :
    shiftr a b = some (a.sshiftRight b) := by
  obtain ⟨m, hm, hbits⟩ := exists_highones hb h
  have hsign : signOnes a b = some (if a.msb then m else 0) := by
    unfold signOnes
    by_cases hneg : a.msb = true
    · rw [if_pos ((Num.slt_zero_iff a).mpr hneg), if_pos hneg, hm]
    · rw [if_neg fun hslt => hneg ((Num.slt_zero_iff a).mp hslt), if_neg hneg]
  simp only [shiftr, logshiftr_eq a hb h, hsign, Option.bind_eq_bind, Option.bind_some]
  congr 1
  apply BitVec.eq_of_getLsbD_eq
  intro i hi
  rw [BitVec.getLsbD_xor, BitVec.getLsbD_ushiftRight, BitVec.getLsbD_sshiftRight]
  by_cases hlow : b + i < t.bits
  · have h₁ : ¬ t.bits - b ≤ i := by omega
    by_cases hneg : a.msb = true
    · rw [if_pos hneg, hbits]
      simp [hi, h₁, hlow, Nat.not_le.mpr hi]
    · simp [hneg, hi, hlow]
  · have h₁ : t.bits - b ≤ i := by omega
    have hzero : a.getLsbD (b + i) = false := BitVec.getLsbD_of_ge a _ (Nat.not_lt.mp hlow)
    by_cases hneg : a.msb = true
    · rw [if_pos hneg, hbits, hzero]
      simp [hi, h₁, hlow, hneg, Nat.not_le.mpr hi]
    · simp [hneg, hi, hlow, hzero]

lemma ofPromoted_promote_shiftLeft (a : Num t) (n : Nat) :
    Num.ofPromoted (a.promote <<< n) = BitVec.ofInt t.bits (a.toInt * 2 ^ n) := by
  have hpow : Num.ofPromoted (BitVec.twoPow t.promoted n) = BitVec.ofInt t.bits (2 ^ n) := by
    have hcast : ((2 : Int) ^ n) = ((2 ^ n : Nat) : Int) := by push_cast; rfl
    have hdvd : 2 ^ t.bits ∣ 2 ^ t.promoted := Nat.pow_dvd_pow 2 t.bits_le_promoted
    apply BitVec.eq_of_toNat_eq
    rw [hcast, BitVec.ofInt_natCast, BitVec.toNat_ofNat, Num.ofPromoted, BitVec.toNat_setWidth,
      BitVec.toNat_twoPow, Nat.mod_mod_of_dvd _ hdvd]
  rw [BitVec.shiftLeft_eq_mul_twoPow, Num.ofPromoted_mul, Num.ofPromoted_promote, hpow,
    BitVec.ofInt_mul, BitVec.ofInt_toInt]

lemma sshiftRight_eq_ofInt (a : Num t) (n : Nat) :
    a.sshiftRight n = BitVec.ofInt t.bits (a.toInt / 2 ^ n) := by
  rw [← BitVec.ofInt_toInt (x := a.sshiftRight n), BitVec.toInt_sshiftRight,
    Int.shiftRight_eq_div_pow]
  push_cast
  rfl

lemma ushiftRight_eq_ofNat (a : Num t) (n : Nat) :
    a >>> n = BitVec.ofNat t.bits (a.toNat / 2 ^ n) := by
  rw [← Nat.shiftRight_eq_div_pow, ← BitVec.toNat_ushiftRight, BitVec.ofNat_toNat, BitVec.setWidth_eq]

lemma execShift_eq (op : ShiftOp) (a b : Num t) :
    execShift op (.int a) (.int b)
      = if b.slt 0 || t.bits ≤ b.toNat then some (.err .eInvarg)
        else (op.compute a b.toNat).map .int := rfl

lemma ShiftOp.compute_iff (op : ShiftOp) (a : Num t) {n : Nat} (hn : n < t.bits) :
    op.compute a n = some (op.result a n) ↔ ¬ (op ≠ .shl ∧ n = 0 ∧ t ≠ .int16) := by
  have hlog : n = 0 ∧ t ≠ .int16 → logshiftr a n = none := by
    intro hbad
    have hnone : highones t n = none := (highones_eq_none_iff hn).mpr hbad
    simp [logshiftr, lowones, hnone]
  cases op with
  | shl =>
    refine iff_of_true ?_ fun h => h.1 rfl
    have hlt : n < t.promoted := Nat.lt_of_lt_of_le hn t.bits_le_promoted
    rw [ShiftOp.compute, cShl, if_pos hlt, Option.map_some, ofPromoted_promote_shiftLeft]
    rfl
  | shr =>
    by_cases hbad : n = 0 ∧ t ≠ .int16
    · refine iff_of_false ?_ fun h => h ⟨by decide, hbad⟩
      simp [ShiftOp.compute, shiftr, hlog hbad]
    · refine iff_of_true ?_ fun h => hbad h.2
      rw [ShiftOp.compute, shiftr_eq a hn hbad, sshiftRight_eq_ofInt]
      rfl
  | lshr =>
    by_cases hbad : n = 0 ∧ t ≠ .int16
    · refine iff_of_false ?_ fun h => h ⟨by decide, hbad⟩
      simp [ShiftOp.compute, hlog hbad]
    · refine iff_of_true ?_ fun h => hbad h.2
      rw [ShiftOp.compute, logshiftr_eq a hn hbad, ushiftRight_eq_ofNat]
      rfl

/-- A shift that is admitted is defined and gives the mathematical result, unless it is a
right shift by 0 in a type that is not narrower than `int`. -/
theorem shifts_iff (op : ShiftOp) (a b : Num t) :
    (execShift op (.int a) (.int b) ≠ some (.err .eInvarg) →
      execShift op (.int a) (.int b) = some (.int (op.result a b.toNat))) ↔
    ¬ (op ≠ .shl ∧ b = 0 ∧ t ≠ .int16) := by
  have hzero : b = 0 ↔ b.toNat = 0 := by
    rw [← BitVec.toNat_inj]
    cases t <;> rfl
  rw [execShift_eq, hzero]
  by_cases hadmit : (b.slt 0 || decide (t.bits ≤ b.toNat)) = true
  · rw [if_pos hadmit]
    refine iff_of_true (fun h => absurd rfl h) ?_
    rintro ⟨-, hb, -⟩
    rw [hzero.mpr hb] at hadmit
    cases t <;> revert hadmit <;> decide
  · have hb : b.toNat < t.bits := by
      simp only [Bool.or_eq_true, decide_eq_true_eq, not_or, Nat.not_le] at hadmit
      exact hadmit.2
    rw [if_neg hadmit, ← op.compute_iff a hb]
    constructor
    · intro h
      cases hop : op.compute a b.toNat with
      | none => simp [hop] at h
      | some x => simpa [hop] using h
    · intro h _
      rw [h, Option.map_some]

/-- A logical right shift by 0 shifts the mask by 64. -/
theorem not_shifts_zero :
    ¬ (execShift .lshr (.int (5 : Num .int64)) (.int 0) ≠ some (.err .eInvarg) →
      execShift .lshr (.int (5 : Num .int64)) (.int 0)
        = some (.int (ShiftOp.lshr.result 5 0))) := by
  decide

end LambdaMOO
