import LambdaMOO.Ast

/-!
# Literals of a tree

The decompiler gives a tree back up to its literals: a literal comes out as the entry of
the literal table that the generator pooled it with.
-/

namespace LambdaMOO

mutual
/-- Every literal of a tree replaced. -/
def Expr.mapLiterals (g : Literal → Literal) : Expr → Expr
  | .var v => .var (g v)
  | .id slot => .id slot
  | .prop lhs rhs => .prop (lhs.mapLiterals g) (rhs.mapLiterals g)
  | .verb obj verb args => .verb (obj.mapLiterals g) (verb.mapLiterals g) (args.mapLiterals g)
  | .index lhs rhs => .index (lhs.mapLiterals g) (rhs.mapLiterals g)
  | .range base lo hi => .range (base.mapLiterals g) (lo.mapLiterals g) (hi.mapLiterals g)
  | .asgn lhs rhs => .asgn (lhs.mapLiterals g) (rhs.mapLiterals g)
  | .call func args => .call func (args.mapLiterals g)
  | .binary op lhs rhs => .binary op (lhs.mapLiterals g) (rhs.mapLiterals g)
  | .unary op e => .unary op (e.mapLiterals g)
  | .logical op lhs rhs => .logical op (lhs.mapLiterals g) (rhs.mapLiterals g)
  | .list args => .list (args.mapLiterals g)
  | .cond c a b => .cond (c.mapLiterals g) (a.mapLiterals g) (b.mapLiterals g)
  | .catchExpr e codes dflt =>
    .catchExpr (e.mapLiterals g) (codes.mapLiterals g) (dflt.mapLiterals g)
  | .length => .length
  | .scatter targets => .scatter (targets.mapLiterals g)

def Default.mapLiterals (g : Literal → Literal) : Default → Default
  | .none => .none
  | .some e => .some (e.mapLiterals g)

def ArgList.mapLiterals (g : Literal → Literal) : ArgList → ArgList
  | .nil => .nil
  | .cons kind e next => .cons kind (e.mapLiterals g) (next.mapLiterals g)

def Scatter.mapLiterals (g : Literal → Literal) : Scatter → Scatter
  | .nil => .nil
  | .required slot next => .required slot (next.mapLiterals g)
  | .optional slot dflt next => .optional slot (dflt.mapLiterals g) (next.mapLiterals g)
  | .rest slot next => .rest slot (next.mapLiterals g)
end

mutual
def Stmt.mapLiterals (g : Literal → Literal) : Stmt → Stmt
  | .cond arms otherwise => .cond (arms.mapLiterals g) (otherwise.mapLiterals g)
  | .list slot e body => .list slot (e.mapLiterals g) (body.mapLiterals g)
  | .range slot lo hi body =>
    .range slot (lo.mapLiterals g) (hi.mapLiterals g) (body.mapLiterals g)
  | .loop slot c body => .loop slot (c.mapLiterals g) (body.mapLiterals g)
  | .fork slot time body => .fork slot (time.mapLiterals g) (body.mapLiterals g)
  | .expr e => .expr (e.mapLiterals g)
  | .ret none => .ret none
  | .ret (some e) => .ret (some (e.mapLiterals g))
  | .tryExcept body excepts => .tryExcept (body.mapLiterals g) (excepts.mapLiterals g)
  | .tryFinally body handler => .tryFinally (body.mapLiterals g) (handler.mapLiterals g)
  | .brk exit => .brk exit
  | .cont exit => .cont exit

def StmtList.mapLiterals (g : Literal → Literal) : StmtList → StmtList
  | .nil => .nil
  | .cons s next => .cons (s.mapLiterals g) (next.mapLiterals g)

def CondArms.mapLiterals (g : Literal → Literal) : CondArms → CondArms
  | .nil => .nil
  | .cons c ss next => .cons (c.mapLiterals g) (ss.mapLiterals g) (next.mapLiterals g)

def ExceptArms.mapLiterals (g : Literal → Literal) : ExceptArms → ExceptArms
  | .nil => .nil
  | .cons slot codes ss next =>
    .cons slot (codes.mapLiterals g) (ss.mapLiterals g) (next.mapLiterals g)
end

mutual
/-- The literals of a tree. -/
def Expr.literals : Expr → List Literal
  | .var v => [v]
  | .id _ | .length => []
  | .prop lhs rhs | .index lhs rhs | .asgn lhs rhs | .binary _ lhs rhs | .logical _ lhs rhs =>
    lhs.literals ++ rhs.literals
  | .verb obj verb args => obj.literals ++ (verb.literals ++ args.literals)
  | .range base lo hi => base.literals ++ (lo.literals ++ hi.literals)
  | .call _ args | .list args => args.literals
  | .unary _ e => e.literals
  | .cond c a b => c.literals ++ (a.literals ++ b.literals)
  | .catchExpr e codes dflt => codes.literals ++ (e.literals ++ dflt.literals)
  | .scatter targets => targets.literals

def Default.literals : Default → List Literal
  | .none => []
  | .some e => e.literals

def ArgList.literals : ArgList → List Literal
  | .nil => []
  | .cons _ e next => e.literals ++ next.literals

def Scatter.literals : Scatter → List Literal
  | .nil => []
  | .required _ next | .rest _ next => next.literals
  | .optional _ dflt next => dflt.literals ++ next.literals
end

mutual
def Stmt.literals : Stmt → List Literal
  | .cond arms otherwise => arms.literals ++ otherwise.literals
  | .list _ e body | .fork _ e body | .loop _ e body => e.literals ++ body.literals
  | .range _ lo hi body => lo.literals ++ (hi.literals ++ body.literals)
  | .expr e | .ret (some e) => e.literals
  | .ret none | .brk _ | .cont _ => []
  | .tryExcept body excepts => body.literals ++ excepts.literals
  | .tryFinally body handler => body.literals ++ handler.literals

def StmtList.literals : StmtList → List Literal
  | .nil => []
  | .cons s next => s.literals ++ next.literals

def CondArms.literals : CondArms → List Literal
  | .nil => []
  | .cons c ss next => c.literals ++ (ss.literals ++ next.literals)

def ExceptArms.literals : ExceptArms → List Literal
  | .nil => []
  | .cons _ codes ss next => codes.literals ++ (ss.literals ++ next.literals)
end

variable (g : Literal → Literal)

mutual
/-- A tree stays the same exactly when each of its literals does. -/
lemma Expr.mapLiterals_eq_self (e : Expr) :
    e.mapLiterals g = e ↔ ∀ v ∈ e.literals, g v = v := by
  match e with
  | .var v => simp [Expr.mapLiterals, Expr.literals]
  | .id _ | .length => simp [Expr.mapLiterals, Expr.literals]
  | .prop a b | .index a b | .asgn a b | .binary _ a b | .logical _ a b =>
    simp [Expr.mapLiterals, Expr.literals, Expr.mapLiterals_eq_self a, Expr.mapLiterals_eq_self b, or_imp,
      forall_and]
  | .verb a b args =>
    simp [Expr.mapLiterals, Expr.literals, Expr.mapLiterals_eq_self a, Expr.mapLiterals_eq_self b,
      args.mapLiterals_eq_self, or_imp, forall_and]
  | .range a b c | .cond a b c =>
    simp [Expr.mapLiterals, Expr.literals, Expr.mapLiterals_eq_self a, Expr.mapLiterals_eq_self b,
      Expr.mapLiterals_eq_self c, or_imp, forall_and]
  | .call _ args | .list args => simp [Expr.mapLiterals, Expr.literals, args.mapLiterals_eq_self]
  | .unary _ a => simp [Expr.mapLiterals, Expr.literals, Expr.mapLiterals_eq_self a]
  | .catchExpr a codes dflt =>
    simp [Expr.mapLiterals, Expr.literals, Expr.mapLiterals_eq_self a, codes.mapLiterals_eq_self,
      dflt.mapLiterals_eq_self, or_imp, forall_and, and_left_comm]
  | .scatter targets => simp [Expr.mapLiterals, Expr.literals, targets.mapLiterals_eq_self]

lemma Default.mapLiterals_eq_self (d : Default) :
    d.mapLiterals g = d ↔ ∀ v ∈ d.literals, g v = v := by
  match d with
  | .none => simp [Default.mapLiterals, Default.literals]
  | .some e => simp [Default.mapLiterals, Default.literals, e.mapLiterals_eq_self]

lemma ArgList.mapLiterals_eq_self (args : ArgList) :
    args.mapLiterals g = args ↔ ∀ v ∈ args.literals, g v = v := by
  match args with
  | .nil => simp [ArgList.mapLiterals, ArgList.literals]
  | .cons _ e next =>
    simp [ArgList.mapLiterals, ArgList.literals, e.mapLiterals_eq_self, next.mapLiterals_eq_self, or_imp,
      forall_and]

lemma Scatter.mapLiterals_eq_self (sc : Scatter) :
    sc.mapLiterals g = sc ↔ ∀ v ∈ sc.literals, g v = v := by
  match sc with
  | .nil => simp [Scatter.mapLiterals, Scatter.literals]
  | .required _ next | .rest _ next => simp [Scatter.mapLiterals, Scatter.literals, next.mapLiterals_eq_self]
  | .optional _ dflt next =>
    simp [Scatter.mapLiterals, Scatter.literals, dflt.mapLiterals_eq_self, next.mapLiterals_eq_self, or_imp,
      forall_and]
end

mutual
lemma Stmt.mapLiterals_eq_self (s : Stmt) :
    s.mapLiterals g = s ↔ ∀ v ∈ s.literals, g v = v := by
  match s with
  | .cond arms otherwise =>
    simp [Stmt.mapLiterals, Stmt.literals, arms.mapLiterals_eq_self, otherwise.mapLiterals_eq_self,
      or_imp, forall_and]
  | .list _ e body | .fork _ e body | .loop _ e body =>
    simp [Stmt.mapLiterals, Stmt.literals, e.mapLiterals_eq_self, body.mapLiterals_eq_self, or_imp,
      forall_and]
  | .range _ lo hi body =>
    simp [Stmt.mapLiterals, Stmt.literals, lo.mapLiterals_eq_self, hi.mapLiterals_eq_self,
      body.mapLiterals_eq_self, or_imp, forall_and]
  | .expr e | .ret (some e) => simp [Stmt.mapLiterals, Stmt.literals, e.mapLiterals_eq_self]
  | .ret none | .brk _ | .cont _ => simp [Stmt.mapLiterals, Stmt.literals]
  | .tryExcept body excepts =>
    simp [Stmt.mapLiterals, Stmt.literals, body.mapLiterals_eq_self, excepts.mapLiterals_eq_self, or_imp,
      forall_and]
  | .tryFinally body handler =>
    simp [Stmt.mapLiterals, Stmt.literals, body.mapLiterals_eq_self, handler.mapLiterals_eq_self, or_imp,
      forall_and]

lemma StmtList.mapLiterals_eq_self (ss : StmtList) :
    ss.mapLiterals g = ss ↔ ∀ v ∈ ss.literals, g v = v := by
  match ss with
  | .nil => simp [StmtList.mapLiterals, StmtList.literals]
  | .cons s next =>
    simp [StmtList.mapLiterals, StmtList.literals, s.mapLiterals_eq_self, next.mapLiterals_eq_self, or_imp,
      forall_and]

lemma CondArms.mapLiterals_eq_self (as : CondArms) :
    as.mapLiterals g = as ↔ ∀ v ∈ as.literals, g v = v := by
  match as with
  | .nil => simp [CondArms.mapLiterals, CondArms.literals]
  | .cons c ss next =>
    simp [CondArms.mapLiterals, CondArms.literals, c.mapLiterals_eq_self, ss.mapLiterals_eq_self,
      next.mapLiterals_eq_self, or_imp, forall_and]

lemma ExceptArms.mapLiterals_eq_self (as : ExceptArms) :
    as.mapLiterals g = as ↔ ∀ v ∈ as.literals, g v = v := by
  match as with
  | .nil => simp [ExceptArms.mapLiterals, ExceptArms.literals]
  | .cons _ codes ss next =>
    simp [ExceptArms.mapLiterals, ExceptArms.literals, codes.mapLiterals_eq_self, ss.mapLiterals_eq_self,
      next.mapLiterals_eq_self, or_imp, forall_and]
end

end LambdaMOO
