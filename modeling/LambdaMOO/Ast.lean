import LambdaMOO.Structures

/-!
# Syntax trees

The trees of `ast.h`. The linked lists of the source (`Arg_List`, `Scatter`, `Cond_Arm`,
`Except_Arm` and the `next` field of `Stmt`) are list-like types of their own, so that
every function below is a structural recursion. A `-1` standing for a missing loop name,
fork variable or except variable is `none`; a null pointer to an argument list is `nil`.
-/

namespace LambdaMOO

/-- The strict binary operators, those whose code is both operands and one opcode. -/
inductive BinOp where
  | plus | minus | times | divide | mod | exp
  | eq | ne | lt | le | gt | ge | isIn
  | bitor | bitxor | bitand | shl | shr | lshr
  deriving DecidableEq, Repr

inductive UnOp where
  | negate | not | complement
  deriving DecidableEq, Repr

inductive LogOp where
  | and | or
  deriving DecidableEq, Repr

inductive ArgKind where
  | normal | splice
  deriving DecidableEq, Repr

mutual
/-- Expressions, one constructor for each `Expr_Kind` or family of kinds. -/
inductive Expr where
  | var (v : Literal)
  | id (slot : Nat)
  | prop (lhs rhs : Expr)
  | verb (obj verb : Expr) (args : ArgList)
  | index (lhs rhs : Expr)
  | range (base lo hi : Expr)
  | asgn (lhs rhs : Expr)
  | call (func : Nat) (args : ArgList)
  | binary (op : BinOp) (lhs rhs : Expr)
  | unary (op : UnOp) (expr : Expr)
  | logical (op : LogOp) (lhs rhs : Expr)
  | list (args : ArgList)
  | cond (condition consequent alternate : Expr)
  | catchExpr (body : Expr) (codes : ArgList) (dflt : Default)
  | length
  | scatter (targets : Scatter)

/-- The `default` of the grammar: a missing or present expression. -/
inductive Default where
  | none
  | some (expr : Expr)

inductive ArgList where
  | nil
  | cons (kind : ArgKind) (expr : Expr) (next : ArgList)

inductive Scatter where
  | nil
  | required (slot : Nat) (next : Scatter)
  | optional (slot : Nat) (dflt : Default) (next : Scatter)
  | rest (slot : Nat) (next : Scatter)
end

deriving instance DecidableEq, Repr for Expr, Default, ArgList, Scatter

mutual
/-- Statements, one constructor for each `Stmt_Kind`. -/
inductive Stmt where
  | cond (arms : CondArms) (otherwise : StmtList)
  | list (slot : Nat) (expr : Expr) (body : StmtList)
  | range (slot : Nat) (lo hi : Expr) (body : StmtList)
  | loop (slot : Option Nat) (condition : Expr) (body : StmtList)
  | fork (slot : Option Nat) (time : Expr) (body : StmtList)
  | expr (e : Expr)
  | ret (e : Option Expr)
  | tryExcept (body : StmtList) (excepts : ExceptArms)
  | tryFinally (body handler : StmtList)
  | brk (exit : Option Nat)
  | cont (exit : Option Nat)

inductive StmtList where
  | nil
  | cons (stmt : Stmt) (next : StmtList)

inductive CondArms where
  | nil
  | cons (condition : Expr) (stmts : StmtList) (next : CondArms)

inductive ExceptArms where
  | nil
  | cons (slot : Option Nat) (codes : ArgList) (stmts : StmtList) (next : ExceptArms)
end

deriving instance DecidableEq, Repr for Stmt, StmtList, CondArms, ExceptArms

/-! ### List operations -/

namespace ArgList

def length : ArgList → Nat
  | .nil => 0
  | .cons _ _ next => next.length + 1

/-- `a->next = alloc_arg_list(kind, e)` on the last cell. -/
def snoc (kind : ArgKind) (e : Expr) : ArgList → ArgList
  | .nil => .cons kind e .nil
  | .cons k x next => .cons k x (next.snoc kind e)

def append : ArgList → ArgList → ArgList
  | .nil, args => args
  | .cons k x next, args => .cons k x (next.append args)

lemma snoc_append (kind : ArgKind) (e : Expr) (as bs : ArgList) :
    (as.snoc kind e).append bs = as.append (.cons kind e bs) := by
  match as with
  | .nil => rfl
  | .cons k x next => rw [snoc, append, append, snoc_append kind e next]

lemma append_nil (as : ArgList) : as.append .nil = as := by
  match as with
  | .nil => rfl
  | .cons k x next => rw [append, append_nil next]

end ArgList

namespace Scatter

def length : Scatter → Nat
  | .nil => 0
  | .required _ next | .optional _ _ next | .rest _ next => next.length + 1

def numRest : Scatter → Nat
  | .nil => 0
  | .required _ next | .optional _ _ next => next.numRest
  | .rest _ next => next.numRest + 1

/-- `add_scatter_item`, where the last item has items behind it. -/
def append : Scatter → Scatter → Scatter
  | .nil, sc => sc
  | .required slot next, sc => .required slot (next.append sc)
  | .optional slot dflt next, sc => .optional slot dflt (next.append sc)
  | .rest slot next, sc => .rest slot (next.append sc)

end Scatter

namespace StmtList

def append : StmtList → StmtList → StmtList
  | .nil, ss => ss
  | .cons s next, ss => .cons s (next.append ss)

/-- `*stmt_sink = temp` at the end of the list. -/
def snoc (ss : StmtList) (s : Stmt) : StmtList := ss.append (.cons s .nil)

@[simp] lemma nil_append (ss : StmtList) : StmtList.nil.append ss = ss := rfl

@[simp] lemma cons_append (s : Stmt) (ss ts : StmtList) :
    (StmtList.cons s ss).append ts = .cons s (ss.append ts) := rfl

@[simp] lemma append_nil (ss : StmtList) : ss.append .nil = ss := by
  match ss with
  | .nil => rfl
  | .cons s next => rw [cons_append, append_nil next]

lemma append_assoc (ss ts us : StmtList) :
    (ss.append ts).append us = ss.append (ts.append us) := by
  match ss with
  | .nil => rfl
  | .cons s next => rw [cons_append, cons_append, cons_append, append_assoc next]

lemma snoc_append (ss : StmtList) (s : Stmt) (ts : StmtList) :
    (ss.snoc s).append ts = ss.append (.cons s ts) := by
  rw [snoc, append_assoc, cons_append, nil_append]

end StmtList

namespace CondArms

def append : CondArms → CondArms → CondArms
  | .nil, as => as
  | .cons c ss next, as => .cons c ss (next.append as)

/-- `*arm_sink = temp` at the end of the list. -/
def snoc (as : CondArms) (c : Expr) (ss : StmtList) : CondArms :=
  as.append (.cons c ss .nil)

@[simp] lemma nil_append (as : CondArms) : CondArms.nil.append as = as := rfl

@[simp] lemma cons_append (c : Expr) (ss : StmtList) (as bs : CondArms) :
    (CondArms.cons c ss as).append bs = .cons c ss (as.append bs) := rfl

@[simp] lemma append_nil (as : CondArms) : as.append .nil = as := by
  match as with
  | .nil => rfl
  | .cons c ss next => rw [cons_append, append_nil next]

lemma append_assoc (as bs cs : CondArms) :
    (as.append bs).append cs = as.append (bs.append cs) := by
  match as with
  | .nil => rfl
  | .cons c ss next => rw [cons_append, cons_append, cons_append, append_assoc next]

lemma snoc_append (as : CondArms) (c : Expr) (ss : StmtList) (bs : CondArms) :
    (as.snoc c ss).append bs = as.append (.cons c ss bs) := by
  rw [snoc, append_assoc, cons_append, nil_append]

end CondArms

def ExceptArms.length : ExceptArms → Nat
  | .nil => 0
  | .cons _ _ _ next => next.length + 1

/-! ### Lvalues

The test of the action for `expr '=' expr`: a subrange is looked through once, then every
indexing, and what is left has to be a variable or a property. -/

def Expr.isIndexTarget : Expr → Bool
  | .index lhs _ => lhs.isIndexTarget
  | .id _ | .prop _ _ => true
  | _ => false

def Expr.isLvalue : Expr → Bool
  | .range base _ _ => base.isIndexTarget
  | e => e.isIndexTarget

/-- The operand a unary minus is folded into instead of becoming `EXPR_NEGATE`. -/
def Expr.isNumericLiteral : Expr → Bool
  | .var v => v.isNumeric
  | _ => false

/-! ### Trees the parser can build

`dollars` is `dollars_ok > 0`, and `loops` is the part of `loop_stack` above the innermost
barrier, innermost loop first. `MAX_FUNC` bounds the number of a built-in function. -/

def maxFunc : Nat := 256

mutual
def Expr.isBuilt (dollars : Bool) : Expr → Bool
  | .var _ | .id _ => true
  | .prop lhs rhs => lhs.isBuilt dollars && rhs.isBuilt dollars
  | .verb obj verb args => obj.isBuilt dollars && verb.isBuilt dollars && args.isBuilt dollars
  | .index lhs rhs => lhs.isBuilt dollars && rhs.isBuilt true
  | .range base lo hi => base.isBuilt dollars && lo.isBuilt true && hi.isBuilt true
  | .asgn (.scatter targets) rhs =>
    targets ≠ .nil && targets.numRest ≤ 1 && targets.length ≤ 255
      && targets.isBuilt dollars && rhs.isBuilt dollars
  | .asgn lhs rhs => lhs.isLvalue && lhs.isBuilt dollars && rhs.isBuilt dollars
  | .call func args => func < maxFunc && args.isBuilt dollars
  | .binary _ lhs rhs | .logical _ lhs rhs => lhs.isBuilt dollars && rhs.isBuilt dollars
  | .unary op e => (op ≠ .negate || !e.isNumericLiteral) && e.isBuilt dollars
  | .list args => args.isBuilt dollars
  | .cond c a b => c.isBuilt dollars && a.isBuilt dollars && b.isBuilt dollars
  | .catchExpr e codes dflt => e.isBuilt dollars && codes.isBuilt dollars && dflt.isBuilt dollars
  | .length => dollars
  | .scatter _ => false

def Default.isBuilt (dollars : Bool) : Default → Bool
  | .none => true
  | .some e => e.isBuilt dollars

def ArgList.isBuilt (dollars : Bool) : ArgList → Bool
  | .nil => true
  | .cons _ e next => e.isBuilt dollars && next.isBuilt dollars

def Scatter.isBuilt (dollars : Bool) : Scatter → Bool
  | .nil => true
  | .required _ next | .rest _ next => next.isBuilt dollars
  | .optional _ dflt next => dflt.isBuilt dollars && next.isBuilt dollars
end

lemma Expr.isBuilt_asgn {dollars : Bool} {lhs rhs : Expr}
    (h : (Expr.asgn lhs rhs).isBuilt dollars = true) :
    (lhs.isLvalue = true ∧ lhs.isBuilt dollars = true ∧ rhs.isBuilt dollars = true) ∨
      ∃ targets, lhs = .scatter targets ∧ targets ≠ .nil ∧ targets.numRest ≤ 1 ∧
        targets.length ≤ 255 ∧ targets.isBuilt dollars = true ∧ rhs.isBuilt dollars = true := by
  cases lhs with
  | scatter targets => simpa [Expr.isBuilt, and_assoc] using h
  | _ => exact Or.inl (by simpa only [Expr.isBuilt, Bool.and_eq_true, and_assoc] using h)

/-- `check_loop_name`. -/
def checkLoopName (loops : List (Option Nat)) : Option Nat → Bool
  | none => !loops.isEmpty
  | some slot => loops.contains (some slot)

mutual
def Stmt.isBuilt (loops : List (Option Nat)) : Stmt → Bool
  | .cond arms otherwise => arms ≠ .nil && arms.isBuilt loops && otherwise.isBuilt loops
  | .list slot e body => e.isBuilt false && body.isBuilt (some slot :: loops)
  | .range slot lo hi body =>
    lo.isBuilt false && hi.isBuilt false && body.isBuilt (some slot :: loops)
  | .loop slot c body => c.isBuilt false && body.isBuilt (slot :: loops)
  | .fork _ time body => time.isBuilt false && body.isBuilt []
  | .expr e => e.isBuilt false
  | .ret e => e.all (Expr.isBuilt false)
  | .tryExcept body excepts =>
    excepts ≠ .nil && excepts.length ≤ 256 && body.isBuilt loops && excepts.isBuilt loops
  | .tryFinally body handler => body.isBuilt loops && handler.isBuilt loops
  | .brk exit | .cont exit => checkLoopName loops exit

def StmtList.isBuilt (loops : List (Option Nat)) : StmtList → Bool
  | .nil => true
  | .cons s next => s.isBuilt loops && next.isBuilt loops

def CondArms.isBuilt (loops : List (Option Nat)) : CondArms → Bool
  | .nil => true
  | .cons c ss next => c.isBuilt false && ss.isBuilt loops && next.isBuilt loops

/-- An `ANY` arm can only be the last one (`Unreachable EXCEPT clause`). -/
def ExceptArms.isBuilt (loops : List (Option Nat)) : ExceptArms → Bool
  | .nil => true
  | .cons _ codes ss next =>
    (codes ≠ .nil || next = .nil) && codes.isBuilt false && ss.isBuilt loops && next.isBuilt loops
end

/-! ### Sizes

Bounds on what the generator puts into operands: variable slots, the arms of one
try-except and the targets of one scattering assignment. -/

structure Limits where
  slots : Nat
  arms : Nat
  targets : Nat

mutual
def Expr.isWithin (lim : Limits) : Expr → Bool
  | .var _ | .length => true
  | .id slot => slot < lim.slots
  | .prop lhs rhs | .index lhs rhs | .asgn lhs rhs | .binary _ lhs rhs | .logical _ lhs rhs =>
    lhs.isWithin lim && rhs.isWithin lim
  | .verb obj verb args => obj.isWithin lim && verb.isWithin lim && args.isWithin lim
  | .range base lo hi => base.isWithin lim && lo.isWithin lim && hi.isWithin lim
  | .call _ args | .list args => args.isWithin lim
  | .unary _ e => e.isWithin lim
  | .cond c a b => c.isWithin lim && a.isWithin lim && b.isWithin lim
  | .catchExpr e codes dflt => e.isWithin lim && codes.isWithin lim && dflt.isWithin lim
  | .scatter targets => targets.length ≤ lim.targets && targets.isWithin lim

def Default.isWithin (lim : Limits) : Default → Bool
  | .none => true
  | .some e => e.isWithin lim

def ArgList.isWithin (lim : Limits) : ArgList → Bool
  | .nil => true
  | .cons _ e next => e.isWithin lim && next.isWithin lim

def Scatter.isWithin (lim : Limits) : Scatter → Bool
  | .nil => true
  | .required slot next | .rest slot next => slot < lim.slots && next.isWithin lim
  | .optional slot dflt next => slot < lim.slots && dflt.isWithin lim && next.isWithin lim
end

mutual
def Stmt.isWithin (lim : Limits) : Stmt → Bool
  | .cond arms otherwise => arms.isWithin lim && otherwise.isWithin lim
  | .list slot e body => slot < lim.slots && e.isWithin lim && body.isWithin lim
  | .range slot lo hi body =>
    slot < lim.slots && lo.isWithin lim && hi.isWithin lim && body.isWithin lim
  | .loop slot c body => slot.all (· < lim.slots) && c.isWithin lim && body.isWithin lim
  | .fork slot time body => slot.all (· < lim.slots) && time.isWithin lim && body.isWithin lim
  | .expr e => e.isWithin lim
  | .ret e => e.all (Expr.isWithin lim)
  | .tryExcept body excepts =>
    excepts.length ≤ lim.arms && body.isWithin lim && excepts.isWithin lim
  | .tryFinally body handler => body.isWithin lim && handler.isWithin lim
  | .brk exit | .cont exit => exit.all (· < lim.slots)

def StmtList.isWithin (lim : Limits) : StmtList → Bool
  | .nil => true
  | .cons s next => s.isWithin lim && next.isWithin lim

def CondArms.isWithin (lim : Limits) : CondArms → Bool
  | .nil => true
  | .cons c ss next => c.isWithin lim && ss.isWithin lim && next.isWithin lim

def ExceptArms.isWithin (lim : Limits) : ExceptArms → Bool
  | .nil => true
  | .cons slot codes ss next =>
    slot.all (· < lim.slots) && codes.isWithin lim && ss.isWithin lim && next.isWithin lim
end

end LambdaMOO
