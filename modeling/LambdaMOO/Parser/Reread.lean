import LambdaMOO.Parser.Unparse

/-!
# The tree that is read back

The sign of a negative number is a token of its own, and the grammar gives it the precedence of
a unary minus: where the number is the base of a property reference, a verb call, an index or a
range, the sign goes to the whole of it. What is read of a printed tree is the tree with all
signs moved like that.
-/

namespace LambdaMOO

/-! ### Negative bases -/

def Expr.isNegativeLiteral : Expr → Bool
  | .var v => v.isNegative
  | _ => false

mutual
/-- A negative number is the base of a property reference, a verb call, an index or a range. -/
def Expr.hasNegativeBase : Expr → Bool
  | .var _ | .id _ | .length => false
  | .prop lhs rhs | .index lhs rhs =>
    lhs.isNegativeLiteral || lhs.hasNegativeBase || rhs.hasNegativeBase
  | .verb obj verb args =>
    obj.isNegativeLiteral || obj.hasNegativeBase || verb.hasNegativeBase || args.hasNegativeBase
  | .range base lo hi =>
    base.isNegativeLiteral || base.hasNegativeBase || lo.hasNegativeBase || hi.hasNegativeBase
  | .asgn lhs rhs | .binary _ lhs rhs | .logical _ lhs rhs =>
    lhs.hasNegativeBase || rhs.hasNegativeBase
  | .call _ args | .list args => args.hasNegativeBase
  | .unary _ e => e.hasNegativeBase
  | .cond c a b => c.hasNegativeBase || a.hasNegativeBase || b.hasNegativeBase
  | .catchExpr body codes dflt =>
    body.hasNegativeBase || codes.hasNegativeBase || dflt.hasNegativeBase
  | .scatter targets => targets.hasNegativeBase

def Default.hasNegativeBase : Default → Bool
  | .none => false
  | .some e => e.hasNegativeBase

def ArgList.hasNegativeBase : ArgList → Bool
  | .nil => false
  | .cons _ e next => e.hasNegativeBase || next.hasNegativeBase

def Scatter.hasNegativeBase : Scatter → Bool
  | .nil => false
  | .required _ next | .rest _ next => next.hasNegativeBase
  | .optional _ dflt next => dflt.hasNegativeBase || next.hasNegativeBase
end

/-! ### Moving the signs -/

variable (t : IntType)

/-- The literal of the token behind the sign. -/
def Literal.core : Literal → Literal
  | .int num => .int (BitVec.ofInt t.bits (if num < 0 then -num else num)).toInt
  | .obj num => .obj (BitVec.ofInt t.bits num).toInt
  | .float fnum => .float (if fnum.neg then fnum.negate else fnum)
  | v => v

/-- A sign in front of an expression. -/
def withSign (minus : Bool) (e : Expr) : Expr := if minus then makeUnary t .negate e else e

/-- Whether the first token of an expression is the sign of a number. -/
def Expr.minus : Expr → Bool
  | .var v => v.isNegative
  | .prop lhs _ => lhs.minus
  | .verb obj _ _ => obj.minus
  | .index lhs _ => lhs.minus
  | .range base _ _ => base.minus
  | _ => false

mutual
/-- What is read behind that sign. -/
def Expr.core : Expr → Expr
  | .var v => .var (v.core t)
  | .id slot => .id slot
  | .prop lhs rhs => .prop lhs.core (withSign t rhs.minus rhs.core)
  | .verb obj verb args => .verb obj.core (withSign t verb.minus verb.core) args.reread
  | .index lhs rhs => .index lhs.core (withSign t rhs.minus rhs.core)
  | .range base lo hi =>
    .range base.core (withSign t lo.minus lo.core) (withSign t hi.minus hi.core)
  | .asgn lhs rhs => .asgn (withSign t lhs.minus lhs.core) (withSign t rhs.minus rhs.core)
  | .call func args => .call func args.reread
  | .binary op lhs rhs =>
    .binary op (withSign t lhs.minus lhs.core) (withSign t rhs.minus rhs.core)
  | .unary op e => makeUnary t op (withSign t e.minus e.core)
  | .logical op lhs rhs =>
    .logical op (withSign t lhs.minus lhs.core) (withSign t rhs.minus rhs.core)
  | .list args => .list args.reread
  | .cond c a b =>
    .cond (withSign t c.minus c.core) (withSign t a.minus a.core) (withSign t b.minus b.core)
  | .catchExpr body codes dflt =>
    .catchExpr (withSign t body.minus body.core) codes.reread dflt.reread
  | .length => .length
  | .scatter targets => .scatter targets.reread

def Default.reread : Default → Default
  | .none => .none
  | .some e => .some (withSign t e.minus e.core)

def ArgList.reread : ArgList → ArgList
  | .nil => .nil
  | .cons kind e next => .cons kind (withSign t e.minus e.core) next.reread

def Scatter.reread : Scatter → Scatter
  | .nil => .nil
  | .required slot next => .required slot next.reread
  | .optional slot dflt next => .optional slot dflt.reread next.reread
  | .rest slot next => .rest slot next.reread
end

/-- The tree that is read back. -/
def Expr.reread (e : Expr) : Expr := withSign t e.minus (e.core t)

variable {t}

@[simp] lemma withSign_false (e : Expr) : withSign t false e = e := rfl

lemma makeUnary_eq_unary {op op' : UnOp} {e e' : Expr} (h : makeUnary t op e = .unary op' e') :
    e = e' := by
  unfold makeUnary at h
  split at h
  · split at h
    · cases h
    · cases h; rfl
  · cases h; rfl

lemma makeUnary_of_not {op : UnOp} {e : Expr}
    (h : op = .negate → e.isNumericLiteral = false) : makeUnary t op e = .unary op e := by
  unfold makeUnary
  split
  · split
    · next v _ _ hv =>
      have hnum := h rfl
      cases v <;> simp_all [negateLiteral, Expr.isNumericLiteral, Literal.isNumeric]
    · rfl
  · rfl

/-- A unary minus is either of a number, which it goes into, or an expression of its own. -/
@[simp] lemma isBuilt_makeUnary (op : UnOp) (e : Expr) (dollars : Bool) :
    (makeUnary t op e).isBuilt dollars = e.isBuilt dollars := by
  by_cases h : op = .negate → e.isNumericLiteral = false
  · rw [makeUnary_of_not h, Expr.isBuilt]
    by_cases hop : op = .negate
    · simp [h hop]
    · simp [hop]
  · obtain ⟨rfl, hnum⟩ := Classical.not_imp.mp h
    cases e with
    | var v => cases v <;>
        simp_all [makeUnary, negateLiteral, Expr.isBuilt, Expr.isNumericLiteral, Literal.isNumeric]
    | _ => simp [Expr.isNumericLiteral] at hnum

@[simp] lemma isBuilt_withSign (minus : Bool) (e : Expr) (dollars : Bool) :
    (withSign t minus e).isBuilt dollars = e.isBuilt dollars := by
  cases minus with
  | true => exact isBuilt_makeUnary .negate e dollars
  | false => rfl

lemma Expr.isBuilt_reread (e : Expr) (dollars : Bool) :
    (e.reread t).isBuilt dollars = (e.core t).isBuilt dollars :=
  isBuilt_withSign e.minus (e.core t) dollars

/-! ### Trees that are read back as they are -/

lemma withSign_eq_iff {minus : Bool} {e e' : Expr} (he : e.isNumericLiteral = false)
    (he' : ∀ op x, e' ≠ .unary op x) : withSign t minus e = e' ↔ minus = false ∧ e = e' := by
  cases minus with
  | false => simp [withSign]
  | true =>
    rw [withSign, if_pos rfl, makeUnary_of_not fun _ => he]
    simp [(he' .negate e).symm]

lemma Expr.isNegativeLiteral_or_of_minus {e : Expr} (h : e.minus = true) :
    (e.isNegativeLiteral || e.hasNegativeBase) = true := by
  match e with
  | .var v =>
    rw [minus] at h
    simp [isNegativeLiteral, h]
  | .prop lhs rhs =>
    simp [hasNegativeBase, isNegativeLiteral_or_of_minus (e := lhs) h]
  | .verb obj name args =>
    simp [hasNegativeBase, isNegativeLiteral_or_of_minus (e := obj) h]
  | .index lhs rhs =>
    simp [hasNegativeBase, isNegativeLiteral_or_of_minus (e := lhs) h]
  | .range base lo hi =>
    simp [hasNegativeBase, isNegativeLiteral_or_of_minus (e := base) h]

/-- What has to hold of a base. -/
lemma Expr.base_iff {e : Expr} (h : e.reread t = e ↔ e.hasNegativeBase = false) :
    e.minus = false ∧ e.core t = e ↔ (e.isNegativeLiteral || e.hasNegativeBase) = false := by
  constructor
  · rintro ⟨hminus, hcore⟩
    have hneg : e.isNegativeLiteral = false := by
      cases e with
      | var v => exact hminus
      | _ => rfl
    have hreread : e.reread t = e := by rwa [reread, hminus]
    rw [hneg, h.mp hreread]
    rfl
  · intro hneg
    have hminus : e.minus = false := by
      by_contra hminus
      rw [isNegativeLiteral_or_of_minus (Bool.eq_true_of_not_eq_false hminus)] at hneg
      cases hneg
    have hreread := h.mpr (Bool.or_eq_false_iff.mp hneg).2
    exact ⟨hminus, by rwa [reread, hminus] at hreread⟩

variable {u : Unparser t}

lemma reread_literal {v : Literal} (h : u.PrintsLiteral v) :
    (Expr.var v).reread t = .var v := by
  cases v with
  | int num =>
    obtain ⟨n, rfl⟩ := h
    by_cases hneg : n.toInt < 0
    · simp [Expr.reread, Expr.minus, Literal.isNegative, hneg, withSign, Expr.core, Literal.core,
        makeUnary, negateLiteral, BitVec.ofInt_neg]
    · simp [Expr.reread, Expr.minus, Literal.isNegative, hneg, withSign, Expr.core, Literal.core]
  | obj num =>
    obtain ⟨n, rfl⟩ := h
    simp [Expr.reread, Expr.minus, Literal.isNegative, withSign, Expr.core, Literal.core]
  | float fnum =>
    cases hneg : fnum.neg <;>
      simp [Expr.reread, Expr.minus, Literal.isNegative, hneg, withSign, Expr.core, Literal.core,
        makeUnary, negateLiteral]
  | str s => rfl
  | err e => rfl

mutual
/-- A tree is read back as it is unless a negative number is a base. -/
lemma Expr.reread_eq_iff {e : Expr} {dollars : Bool} (hp : e.IsPrinted u)
    (hb : e.isBuilt dollars = true) : e.reread t = e ↔ e.hasNegativeBase = false := by
  match e with
  | .var v => simp [reread_literal hp, Expr.hasNegativeBase]
  | .id slot | .length => simp [Expr.reread, Expr.minus, withSign, Expr.core, Expr.hasNegativeBase]
  | .prop lhs rhs =>
    simp only [Expr.isBuilt, Bool.and_eq_true] at hb
    have hlhs := Expr.base_iff (Expr.reread_eq_iff hp.1 hb.1)
    have hrhs := Expr.reread_eq_iff hp.2 hb.2
    rw [Expr.reread, withSign_eq_iff rfl (by simp), Expr.core, Expr.prop.injEq, Expr.hasNegativeBase,
      Bool.or_eq_false_iff, ← hlhs, ← hrhs, Expr.minus, and_assoc]
    rfl
  | .index lhs rhs =>
    simp only [Expr.isBuilt, Bool.and_eq_true] at hb
    have hlhs := Expr.base_iff (Expr.reread_eq_iff hp.1 hb.1)
    have hrhs := Expr.reread_eq_iff hp.2 hb.2
    rw [Expr.reread, withSign_eq_iff rfl (by simp), Expr.core, Expr.index.injEq, Expr.hasNegativeBase,
      Bool.or_eq_false_iff, ← hlhs, ← hrhs, Expr.minus, and_assoc]
    rfl
  | .verb obj name args =>
    simp only [Expr.isBuilt, Bool.and_eq_true] at hb
    have hobj := Expr.base_iff (Expr.reread_eq_iff hp.1 hb.1.1)
    have hname := Expr.reread_eq_iff hp.2.1 hb.1.2
    have hargs := ArgList.reread_eq_iff hp.2.2 hb.2
    rw [Expr.reread, withSign_eq_iff rfl (by simp), Expr.core, Expr.verb.injEq, Expr.hasNegativeBase,
      Bool.or_eq_false_iff, Bool.or_eq_false_iff, ← hobj, ← hname, ← hargs, Expr.minus]
    simp only [and_assoc]
    rfl
  | .range base lo hi =>
    simp only [Expr.isBuilt, Bool.and_eq_true] at hb
    have hbase := Expr.base_iff (Expr.reread_eq_iff hp.1 hb.1.1)
    have hlo := Expr.reread_eq_iff hp.2.1 hb.1.2
    have hhi := Expr.reread_eq_iff hp.2.2 hb.2
    rw [Expr.reread, withSign_eq_iff rfl (by simp), Expr.core, Expr.range.injEq, Expr.hasNegativeBase,
      Bool.or_eq_false_iff, Bool.or_eq_false_iff, ← hbase, ← hlo, ← hhi, Expr.minus]
    simp only [and_assoc]
    rfl
  | .asgn (.scatter targets) rhs =>
    simp only [Expr.isBuilt, Bool.and_eq_true] at hb
    have htargets := Scatter.reread_eq_iff hp.1 hb.1.2
    have hrhs := Expr.reread_eq_iff hp.2 hb.2
    simp only [Expr.reread, Expr.minus, Expr.core, withSign, Bool.false_eq_true, if_false, Expr.asgn.injEq,
      Expr.scatter.injEq, Expr.hasNegativeBase, Bool.or_eq_false_iff]
    rw [htargets, ← hrhs]
    rfl
  | .asgn (.var _) rhs | .asgn (.id _) rhs | .asgn (.prop _ _) rhs | .asgn (.verb _ _ _) rhs
  | .asgn (.index _ _) rhs | .asgn (.range _ _ _) rhs | .asgn (.asgn _ _) rhs
  | .asgn (.call _ _) rhs | .asgn (.binary _ _ _) rhs | .asgn (.unary _ _) rhs
  | .asgn (.logical _ _ _) rhs | .asgn (.list _) rhs | .asgn (.cond _ _ _) rhs
  | .asgn (.catchExpr _ _ _) rhs | .asgn .length rhs =>
    obtain ⟨-, hlhs, hrhs⟩ | ⟨_, h, _⟩ := Expr.isBuilt_asgn hb
    swap
    · cases h
    rw [Expr.reread, withSign_eq_iff rfl (by simp), Expr.core, Expr.asgn.injEq,
      Expr.hasNegativeBase, Bool.or_eq_false_iff, ← Expr.reread_eq_iff hp.1 hlhs,
      ← Expr.reread_eq_iff hp.2 hrhs]
    simp [Expr.minus, Expr.reread]
  | .scatter _ => simp [Expr.isBuilt] at hb
  | .call func args =>
    simp only [Expr.isBuilt, Bool.and_eq_true] at hb
    rw [Expr.reread, withSign_eq_iff rfl (by simp), Expr.core, Expr.call.injEq,
      Expr.hasNegativeBase, ← ArgList.reread_eq_iff hp.2 hb.2]
    simp [Expr.minus]
  | .list args =>
    rw [Expr.reread, withSign_eq_iff rfl (by simp), Expr.core, Expr.list.injEq,
      Expr.hasNegativeBase, ← ArgList.reread_eq_iff hp hb]
    simp [Expr.minus]
  | .binary op lhs rhs =>
    simp only [Expr.isBuilt, Bool.and_eq_true] at hb
    rw [Expr.reread, withSign_eq_iff rfl (by simp), Expr.core, Expr.binary.injEq, Expr.hasNegativeBase,
      Bool.or_eq_false_iff, ← Expr.reread_eq_iff hp.2.1 hb.1, ← Expr.reread_eq_iff hp.2.2 hb.2]
    simp [Expr.minus, Expr.reread]
  | .logical op lhs rhs =>
    simp only [Expr.isBuilt, Bool.and_eq_true] at hb
    rw [Expr.reread, withSign_eq_iff rfl (by simp), Expr.core, Expr.logical.injEq, Expr.hasNegativeBase,
      Bool.or_eq_false_iff, ← Expr.reread_eq_iff hp.1 hb.1, ← Expr.reread_eq_iff hp.2 hb.2]
    simp [Expr.minus, Expr.reread]
  | .unary op e =>
    simp only [Expr.isBuilt, Bool.and_eq_true] at hb
    have he := Expr.reread_eq_iff hp.2 hb.2
    rw [Expr.hasNegativeBase, ← he]
    constructor
    · exact makeUnary_eq_unary
    · intro hreread
      have hnum : op = .negate → e.isNumericLiteral = false := by simpa [or_iff_not_imp_left] using hb.1
      exact (congrArg (makeUnary t op) hreread).trans (makeUnary_of_not hnum)
  | .cond c a b =>
    simp only [Expr.isBuilt, Bool.and_eq_true] at hb
    rw [Expr.reread, withSign_eq_iff rfl (by simp), Expr.core, Expr.cond.injEq, Expr.hasNegativeBase,
      Bool.or_eq_false_iff, Bool.or_eq_false_iff, ← Expr.reread_eq_iff hp.1 hb.1.1,
      ← Expr.reread_eq_iff hp.2.1 hb.1.2, ← Expr.reread_eq_iff hp.2.2 hb.2]
    simp [Expr.minus, Expr.reread, and_assoc]
  | .catchExpr body codes dflt =>
    simp only [Expr.isBuilt, Bool.and_eq_true] at hb
    rw [Expr.reread, withSign_eq_iff rfl (by simp), Expr.core, Expr.catchExpr.injEq, Expr.hasNegativeBase,
      Bool.or_eq_false_iff, Bool.or_eq_false_iff, ← Expr.reread_eq_iff hp.1 hb.1.1,
      ← ArgList.reread_eq_iff hp.2.1 hb.1.2, ← Default.reread_eq_iff hp.2.2 hb.2]
    simp [Expr.minus, Expr.reread, and_assoc]

lemma Default.reread_eq_iff {dflt : Default} {dollars : Bool} (hp : dflt.IsPrinted u)
    (hb : dflt.isBuilt dollars = true) : dflt.reread t = dflt ↔ dflt.hasNegativeBase = false := by
  match dflt with
  | .none => simp [Default.reread, Default.hasNegativeBase]
  | .some e =>
    rw [Default.reread, Default.hasNegativeBase, Default.some.injEq]
    exact Expr.reread_eq_iff hp hb

lemma ArgList.reread_eq_iff {args : ArgList} {dollars : Bool} (hp : args.IsPrinted u)
    (hb : args.isBuilt dollars = true) : args.reread t = args ↔ args.hasNegativeBase = false := by
  match args with
  | .nil => simp [ArgList.reread, ArgList.hasNegativeBase]
  | .cons kind e next =>
    simp only [ArgList.isBuilt, Bool.and_eq_true] at hb
    rw [ArgList.reread, ArgList.hasNegativeBase, ArgList.cons.injEq, Bool.or_eq_false_iff,
      ← Expr.reread_eq_iff hp.1 hb.1, ← ArgList.reread_eq_iff hp.2 hb.2]
    simp [Expr.reread]

lemma Scatter.reread_eq_iff {targets : Scatter} {dollars : Bool} (hp : targets.IsPrinted u)
    (hb : targets.isBuilt dollars = true) :
    targets.reread t = targets ↔ targets.hasNegativeBase = false := by
  match targets with
  | .nil => simp [Scatter.reread, Scatter.hasNegativeBase]
  | .required slot next | .rest slot next =>
    simp only [Scatter.isBuilt] at hb
    simpa [Scatter.reread, Scatter.hasNegativeBase] using Scatter.reread_eq_iff hp.2 hb
  | .optional slot dflt next =>
    simp only [Scatter.isBuilt, Bool.and_eq_true] at hb
    rw [Scatter.reread, Scatter.hasNegativeBase, Scatter.optional.injEq, Bool.or_eq_false_iff,
      ← Default.reread_eq_iff hp.2.1 hb.1, ← Scatter.reread_eq_iff hp.2.2 hb.2]
    simp
end

end LambdaMOO
