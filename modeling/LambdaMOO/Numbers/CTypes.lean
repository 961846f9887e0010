import LambdaMOO.Numbers.Arith

/-!
# Types of C

The ranges of the integer types, and the conversions between them that an assignment or a call
does without saying so.
-/

namespace LambdaMOO

/-- An integer type of C: its least and its greatest value. -/
structure CType where
  min : Int
  max : Int

namespace CType

def int : CType := ⟨-0x80000000, 0x7fffffff⟩

def unsigned : CType := ⟨0, 0xffffffff⟩

def sizeT : CType := ⟨0, 0xffffffffffffffff⟩

/-- The type in which C computes with a `Num`. -/
def promoted : IntType → CType
  | .int64 => ⟨-0x8000000000000000, 0x7fffffffffffffff⟩
  | _ => int

/-- The result of an operation, if the type has it. -/
def result (τ : CType) (x : Int) : Option Int := if τ.min ≤ x ∧ x ≤ τ.max then some x else none

lemma result_eq {τ : CType} {x : Int} (hmin : τ.min ≤ x) (hmax : x ≤ τ.max) :
    τ.result x = some x :=
  if_pos ⟨hmin, hmax⟩

lemma result_eq_none {τ : CType} {x : Int} (h : τ.max < x) : τ.result x = none :=
  if_neg fun hx => absurd hx.2 (Int.not_le_of_gt h)

/-- The conversion to `int`, which keeps the low 32 bits. -/
def toInt32 (x : Int) : Int := (BitVec.ofInt 32 x).toInt

lemma toInt32_eq {x : Int} (hmin : -0x80000000 ≤ x) (hmax : x ≤ 0x7fffffff) :
    toInt32 x = x := by
  have hpow : (2 : Int) ^ (32 - 1) = 0x80000000 := by decide
  apply BitVec.toInt_ofInt_eq_self (Nat.zero_lt_succ 31)
  · rw [hpow]
    exact hmin
  · rw [hpow]
    omega

/-- The conversion to `unsigned`. -/
def toUnsigned32 (x : Int) : Int := x % 2 ^ 32

end CType

end LambdaMOO
