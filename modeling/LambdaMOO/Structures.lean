import Mathlib.Tactic.Common
import Mathlib.Data.List.Basic
import Mathlib.Algebra.Group.Int.Defs
import Mathlib.Algebra.GroupWithZero.Nat

/-!
# Literal values

The values the scanner can hand to the parser: integers, object numbers, strings,
error codes and floating-point numbers.
-/

namespace LambdaMOO

/-- `NOTHING`. -/
def nothing : Int := -1

/-- The error codes of `ERR_SPEC_LIST`, in the order of the enumeration. -/
inductive ErrorCode where
  | eNone | eType | eDiv | ePerm | ePropnf | eVerbnf | eVarnf | eInvind
  | eRecmove | eMaxrec | eRange | eArgs | eNacc | eInvarg | eQuota | eFloat
  deriving DecidableEq, Repr

/-- A finite floating-point number: its sign bit and the remaining bits. No literal is
an infinity or a NaN, so the pattern `mag = 0` is exactly the two zeros. -/
structure FlNum where
  neg : Bool
  mag : Nat
  deriving DecidableEq, Repr

namespace FlNum

/-- The unary minus of C: it flips the sign bit, also of a zero. -/
def negate (f : FlNum) : FlNum := { f with neg := !f.neg }

/-- The `==` of C. The two zeros have different bits and compare equal. -/
def ceq (f g : FlNum) : Bool := f = g || (f.mag = 0 && g.mag = 0)

@[simp] lemma negate_negate (f : FlNum) : f.negate.negate = f := by
  simp [negate]

@[simp] lemma ceq_self (f : FlNum) : f.ceq f = true := by
  simp [ceq]

lemma ceq_iff {f g : FlNum} : f.ceq g = true ↔ f = g ∨ (f.mag = 0 ∧ g.mag = 0) := by
  simp [ceq]

lemma ceq_comm (f g : FlNum) : f.ceq g = g.ceq f := by
  rw [Bool.eq_iff_iff, ceq_iff, ceq_iff]
  constructor
  · rintro (h | ⟨hf, hg⟩)
    · exact Or.inl h.symm
    · exact Or.inr ⟨hg, hf⟩
  · rintro (h | ⟨hg, hf⟩)
    · exact Or.inl h.symm
    · exact Or.inr ⟨hf, hg⟩

lemma ceq_trans {f g h : FlNum} (hfg : f.ceq g = true) (hgh : g.ceq h = true) :
    f.ceq h = true := by
  rw [ceq_iff] at *
  rcases hfg with rfl | ⟨hf, hg⟩
  · exact hgh
  · rcases hgh with rfl | ⟨_, hh⟩
    · exact Or.inr ⟨hf, hg⟩
    · exact Or.inr ⟨hf, hh⟩

end FlNum

/-- The part of `Var` that an `EXPR_VAR` node can carry. -/
inductive Literal where
  | int (num : Int)
  | obj (obj : Int)
  | str (str : String)
  | err (err : ErrorCode)
  | float (fnum : FlNum)
  deriving DecidableEq, Repr

namespace Literal

/-- `v.type == w.type && equality(v, w, 1)`. Strings are compared with `strcmp`, floats
with `==`. -/
def equality : Literal → Literal → Bool
  | .int m, .int n => m = n
  | .obj m, .obj n => m = n
  | .str s, .str t => s = t
  | .err d, .err e => d = e
  | .float f, .float g => f.ceq g
  | _, _ => false

/-- A numeric literal, the kind a unary minus is folded into. -/
def isNumeric : Literal → Bool
  | .int _ | .float _ => true
  | _ => false

/-- Negative as the unparser prints it: with a leading minus sign. -/
def isNegative : Literal → Bool
  | .int n => n < 0
  | .float f => f.neg
  | _ => false

@[simp] lemma equality_self (v : Literal) : v.equality v = true := by
  cases v <;> simp [equality]

lemma equality_comm (v w : Literal) : v.equality w = w.equality v := by
  cases v <;> cases w <;> simp [equality, eq_comm, FlNum.ceq_comm]

lemma equality_trans {u v w : Literal} (huv : u.equality v = true)
    (hvw : v.equality w = true) : u.equality w = true := by
  cases u <;> cases v <;> simp only [equality, Bool.false_eq_true] at huv <;>
    cases w <;> simp only [equality, Bool.false_eq_true, decide_eq_true_eq] at *
  all_goals first
    | exact huv.trans hvw
    | exact FlNum.ceq_trans huv hvw

/-- Only the two zeros are distinct and equal. -/
lemma eq_or_zero_of_equality {v w : Literal} (h : v.equality w = true) :
    v = w ∨ ∃ f g : FlNum, v = .float f ∧ w = .float g ∧ f.mag = 0 ∧ g.mag = 0 := by
  cases v <;> cases w <;> simp only [equality, Bool.false_eq_true, decide_eq_true_eq] at h
  case float.float f g =>
    rcases FlNum.ceq_iff.mp h with rfl | hz
    · exact Or.inl rfl
    · exact Or.inr ⟨f, g, rfl, rfl, hz.1, hz.2⟩
  all_goals exact Or.inl (by rw [h])

end Literal

end LambdaMOO
