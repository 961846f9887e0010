import LambdaMOO.Structures
import Mathlib.Data.BitVec

/-!
# Arithmetic

`do_divide`, `do_modulus` and `do_power` of `numbers.c` for each width of `Num`. C computes
in `int` where `Num` is narrower, and an operation that C leaves undefined has no result. The
arithmetic of floats is a parameter.
-/

namespace LambdaMOO

/-- `INT_TYPE_BITSIZE`. -/
inductive IntType where
  | int16
  | int32
  | int64
  deriving DecidableEq, Repr

namespace IntType

/-- The width of `Num`. -/
def bits : IntType → Nat
  | .int16 => 16
  | .int32 => 32
  | .int64 => 64

/-- The width at which C computes: no smaller than that of `int`. -/
def promoted : IntType → Nat
  | .int16 => 32
  | .int32 => 32
  | .int64 => 64

lemma bits_le_promoted (t : IntType) : t.bits ≤ t.promoted := by
  cases t <;> decide

lemma bits_pos (t : IntType) : 0 < t.bits := by
  cases t <;> decide

end IntType

abbrev Num (t : IntType) := BitVec t.bits

variable {t : IntType}

namespace Num

/-- The value as an operand of C. -/
def promote (a : Num t) : BitVec t.promoted := a.signExtend t.promoted

/-- The assignment of a result to a `Num`. -/
def ofPromoted (x : BitVec t.promoted) : Num t := x.setWidth t.bits

/-- `NUM_MIN`. -/
def numMin (t : IntType) : Num t := BitVec.intMin t.bits

/-- `NUM_MAX`. -/
def numMax (t : IntType) : Num t := BitVec.intMax t.bits

lemma toInt_promote (a : Num t) : a.promote.toInt = a.toInt :=
  BitVec.toInt_signExtend_of_le t.bits_le_promoted

lemma promote_inj {a b : Num t} : a.promote = b.promote ↔ a = b := by
  rw [← BitVec.toInt_inj, toInt_promote, toInt_promote, BitVec.toInt_inj]

lemma slt_zero_iff (a : Num t) : a.slt 0 ↔ a.msb = true := BitVec.slt_zero_iff_msb_cond

/-- Truncation is a reduction modulo `2 ^ bits`. -/
lemma ofPromoted_eq (x : BitVec t.promoted) : ofPromoted x = BitVec.ofInt t.bits x.toInt := by
  apply BitVec.eq_of_toInt_eq
  have hdvd : 2 ^ t.bits ∣ 2 ^ t.promoted := Nat.pow_dvd_pow 2 t.bits_le_promoted
  rw [ofPromoted, BitVec.toInt_setWidth, BitVec.toInt_ofInt, BitVec.toInt_eq_toNat_bmod,
    Int.bmod_bmod_of_dvd hdvd]

lemma ofPromoted_promote (a : Num t) : ofPromoted a.promote = a := by
  rw [ofPromoted_eq, toInt_promote, BitVec.ofInt_toInt]

lemma ofPromoted_mul (x y : BitVec t.promoted) :
    ofPromoted (x * y) = ofPromoted x * ofPromoted y :=
  BitVec.setWidth_mul x y t.bits_le_promoted

lemma ofPromoted_add (x y : BitVec t.promoted) :
    ofPromoted (x + y) = ofPromoted x + ofPromoted y :=
  BitVec.setWidth_add x y t.bits_le_promoted

end Num

/-! ## Values -/

/-- `Var`, as far as arithmetic looks at it. -/
inductive ArithVar (t : IntType) where
  | int (num : Num t)
  | float (fnum : FlNum)
  | err (err : ErrorCode)
  | other
  deriving DecidableEq, Repr

/-- The arithmetic of floats; none where the result is not `IS_REAL` or `errno` is set. -/
structure FloatOps (t : IntType) where
  divide : FlNum → FlNum → Option FlNum
  fmod : FlNum → FlNum → Option FlNum
  pow : FlNum → FlNum → Option FlNum
  ofNum : Num t → FlNum

/-- A float, or `E_FLOAT`. -/
def boxFl : Option FlNum → ArithVar t
  | some d => .float d
  | none => .err .eFloat

/-! ## Division -/

section Division

variable {p : Nat}

/-- C leaves a quotient undefined that is not representable. -/
def cDiv (x y : BitVec p) : Option (BitVec p) :=
  if y = 0 ∨ x = BitVec.intMin p ∧ y = -1 then none else some (x.sdiv y)

/-- A remainder is undefined where the quotient is. -/
def cMod (x y : BitVec p) : Option (BitVec p) :=
  if y = 0 ∨ x = BitVec.intMin p ∧ y = -1 then none else some (x.srem y)

lemma sdiv_mul_add_srem (x y : BitVec p) : x = x.sdiv y * y + x.srem y := by
  have hint : x.toInt = x.toInt.tdiv y.toInt * y.toInt + x.toInt.tmod y.toInt :=
    (Int.tdiv_mul_add_tmod x.toInt y.toInt).symm
  apply BitVec.eq_of_toInt_eq
  rw [BitVec.toInt_add, BitVec.toInt_mul, BitVec.toInt_sdiv, BitVec.toInt_srem,
    Int.bmod_add_bmod, Int.add_bmod, Int.bmod_mul_bmod, ← Int.add_bmod, ← hint,
    BitVec.toInt_bmod_cancel]

end Division

/-- `DIVISION_OP`. None where C is undefined. -/
def divisionOp (iop : BitVec t.promoted → BitVec t.promoted → Option (BitVec t.promoted))
    (fexpr : FlNum → FlNum → Option FlNum) : ArithVar t → ArithVar t → Option (ArithVar t)
  | .int a, .int b =>
    if b ≠ 0 then (iop a.promote b.promote).map fun x => .int (Num.ofPromoted x)
    else some (.err .eDiv)
  | .float a, .float b => if b.mag ≠ 0 then some (boxFl (fexpr a b)) else some (.err .eDiv)
  | .err _, .err _ | .other, .other => some (.err .eDiv)
  | _, _ => some (.err .eType)

/-- `do_divide`. -/
def doDivide (fl : FloatOps t) : ArithVar t → ArithVar t → Option (ArithVar t) :=
  divisionOp cDiv fl.divide

/-- `do_modulus`. -/
def doModulus (fl : FloatOps t) : ArithVar t → ArithVar t → Option (ArithVar t) :=
  divisionOp cMod fl.fmod

/-- `type == TYPE_INT || type == TYPE_FLOAT`. -/
def ArithVar.isNumber : ArithVar t → Bool
  | .int _ | .float _ => true
  | _ => false

/-- `OP_DIV`: what is pushed, also as an error. -/
def opDiv (fl : FloatOps t) (lhs rhs : ArithVar t) : Option (ArithVar t) :=
  if lhs.isNumber && rhs.isNumber then doDivide fl lhs rhs else some (.err .eType)

/-- `OP_MOD`. -/
def opMod (fl : FloatOps t) (lhs rhs : ArithVar t) : Option (ArithVar t) :=
  if lhs.isNumber && rhs.isNumber then doModulus fl lhs rhs else some (.err .eType)

/-- Division and modulus are defined for a divisor that is not zero, fit together, and raise
`E_DIV` for the divisor zero and no other. -/
structure Divides (fl : FloatOps t) (a b : Num t) : Prop where
  div_zero : opDiv fl (.int a) (.int b) = some (.err .eDiv) ↔ b = 0
  mod_zero : opMod fl (.int a) (.int b) = some (.err .eDiv) ↔ b = 0
  quotient : b ≠ 0 → ∃ q r, opDiv fl (.int a) (.int b) = some (.int q) ∧
    opMod fl (.int a) (.int b) = some (.int r) ∧ a = q * b + r

/-- In `int` the quotient of every 16-bit number is representable. -/
lemma promote_eq_intMin_iff {a : Num t} :
    a.promote = BitVec.intMin t.promoted ↔ t ≠ .int16 ∧ a = Num.numMin t := by
  rw [← BitVec.toInt_inj, Num.toInt_promote, Num.numMin, ← BitVec.toInt_inj]
  cases t with
  | int16 =>
    have hlow := BitVec.le_toInt a
    simp only [IntType.bits, IntType.promoted] at *
    rw [BitVec.toInt_intMin_of_pos (by decide)]
    simp
    omega
  | int32 => simp [IntType.bits, IntType.promoted]
  | int64 => simp [IntType.bits, IntType.promoted]

lemma promote_eq_neg_one_iff {b : Num t} : b.promote = -1 ↔ b = -1 := by
  have hone : (-1 : Num t).promote = -1 := by cases t <;> decide
  rw [← hone, Num.promote_inj]

lemma promote_eq_zero_iff {b : Num t} : b.promote = 0 ↔ b = 0 := by
  have hzero : (0 : Num t).promote = 0 := by cases t <;> decide
  rw [← hzero, Num.promote_inj]

lemma opDiv_int (fl : FloatOps t) (a : Num t) {b : Num t} (hb : b ≠ 0) :
    opDiv fl (.int a) (.int b)
      = (cDiv a.promote b.promote).map fun x => .int (Num.ofPromoted x) :=
  if_pos hb

lemma opMod_int (fl : FloatOps t) (a : Num t) {b : Num t} (hb : b ≠ 0) :
    opMod fl (.int a) (.int b)
      = (cMod a.promote b.promote).map fun x => .int (Num.ofPromoted x) :=
  if_pos hb

/-- The operators are right unless `NUM_MIN` is divided by -1 in a type that is not narrower
than `int`. -/
theorem divides_iff (fl : FloatOps t) (a b : Num t) :
    Divides fl a b ↔ ¬ (t ≠ .int16 ∧ a = Num.numMin t ∧ b = -1) := by
  constructor
  · rintro h ⟨ht, ha, hb⟩
    have hne : b ≠ 0 := by
      rw [hb]
      cases t <;> decide
    have hundef : cDiv a.promote b.promote = none :=
      if_pos (Or.inr ⟨promote_eq_intMin_iff.mpr ⟨ht, ha⟩, promote_eq_neg_one_iff.mpr hb⟩)
    obtain ⟨q, r, hq, -, -⟩ := h.quotient hne
    rw [opDiv_int fl a hne, hundef] at hq
    cases hq
  · intro h
    by_cases hzero : b = 0
    · subst hzero
      exact ⟨iff_of_true rfl rfl, iff_of_true rfl rfl, fun hne => absurd rfl hne⟩
    · have hdef : ¬ (b.promote = 0 ∨ a.promote = BitVec.intMin t.promoted ∧ b.promote = -1) := by
        rw [promote_eq_zero_iff, promote_eq_intMin_iff, promote_eq_neg_one_iff]
        rintro (hb | ⟨⟨ht, ha⟩, hb⟩)
        · exact hzero hb
        · exact h ⟨ht, ha, hb⟩
      have hdiv : opDiv fl (.int a) (.int b)
          = some (.int (Num.ofPromoted (a.promote.sdiv b.promote))) := by
        rw [opDiv_int fl a hzero, cDiv, if_neg hdef, Option.map_some]
      have hmod : opMod fl (.int a) (.int b)
          = some (.int (Num.ofPromoted (a.promote.srem b.promote))) := by
        rw [opMod_int fl a hzero, cMod, if_neg hdef, Option.map_some]
      refine ⟨iff_of_false ?_ hzero, iff_of_false ?_ hzero, fun _ => ⟨_, _, hdiv, hmod, ?_⟩⟩
      · simp [hdiv]
      · simp [hmod]
      · have heq := congrArg Num.ofPromoted (sdiv_mul_add_srem a.promote b.promote)
        rwa [Num.ofPromoted_add, Num.ofPromoted_mul, Num.ofPromoted_promote,
          Num.ofPromoted_promote] at heq

/-- No floats are divided here. -/
def noFloats (t : IntType) : FloatOps t :=
  { divide := fun _ _ => none, fmod := fun _ _ => none, pow := fun _ _ => none
    ofNum := fun _ => ⟨false, 0⟩ }

/-- The quotient of the smallest 64-bit number and -1 is not representable. -/
theorem not_divides_numMin :
    ¬ Divides (noFloats .int64) (Num.numMin .int64) (-1) := by
  intro h
  have hne : (-1 : Num .int64) ≠ 0 := by decide
  obtain ⟨q, r, hq, -, -⟩ := h.quotient hne
  have hundef : cDiv (Num.numMin .int64).promote (-1 : Num .int64).promote = none := by decide
  rw [opDiv_int (noFloats .int64) (Num.numMin .int64) hne, hundef] at hq
  cases hq

end LambdaMOO
