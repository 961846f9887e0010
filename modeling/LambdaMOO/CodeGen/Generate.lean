import LambdaMOO.CodeGen.State

/-!
# The code generator

`generate_expr`, `generate_stmt` and `stmt_to_code` of `code_gen.c`. A call of `panic`
returns its message.
-/

namespace LambdaMOO

open State

variable (r : Bool)

/-- Emit the opcode of a strict binary operator. -/
def State.emitBinary (op : BinOp) (s : State) : State :=
  match op.opcode with
  | .inl op => s.emitOp op
  | .inr op => s.emitExtended op

/-- Emit the opcode of a unary operator. -/
def State.emitUnary (op : UnOp) (s : State) : State :=
  match op with
  | .negate => s.emitOp .opUnaryMinus
  | .not => s.emitOp .opNot
  | .complement => s.emitExtended .eopComplement

/-- The opcode behind the first argument of a list. -/
def ArgKind.firstOp : ArgKind → Opcode
  | .normal => .opMakeSingletonList
  | .splice => .opCheckListForSplice

/-- The opcode behind a later argument. -/
def ArgKind.moreOp : ArgKind → Opcode
  | .normal => .opListAddTail
  | .splice => .opListAppend

/-- `required` targets, as counted for `EOP_SCATTER`. -/
def Scatter.numRequired : Scatter → Nat
  | .nil => 0
  | .required _ next => next.numRequired + 1
  | .optional _ _ next | .rest _ next => next.numRequired

/-- The position of the last rest target among targets numbered from `n + 1` on. -/
def Scatter.restPosition (n : Nat) : Scatter → Option Nat
  | .nil => none
  | .required _ next | .optional _ _ next => next.restPosition (n + 1)
  | .rest _ next => (next.restPosition (n + 1)).or (some (n + 1))

/-- `EOP_SCATTER` with its counts: all targets, the required ones, and the position of the
rest target or one more than the number of targets. -/
def State.emitScatter (targets : Scatter) (s : State) : State :=
  let nargs := targets.length
  let rest := (targets.restPosition 0).getD (nargs + 1)
  (((s.emitExtended .eopScatter).emitByte nargs).emitByte targets.numRequired).emitByte rest

/-- The operand pairs of `EOP_SCATTER`: a variable and a label for each target. -/
def generateTargets : Scatter → State → State
  | .nil, s => s
  | .required slot next, s | .rest slot next, s =>
    generateTargets next ((s.addVarRef slot).addPseudoLabel 0)
  | .optional slot .none next, s =>
    generateTargets next ((s.addVarRef slot).addPseudoLabel 1)
  | .optional slot (.some _) next, s => generateTargets next (s.addVarRef slot).addLabel

/-- The instructions that store an assigned value, from the outermost indexing in. -/
def storeLvalue : Expr → State → Except String State
  | .range base _ _, s => storeLvalue base ((s.emitExtended .eopRangeset).popStack 3)
  | .index lhs _, s => storeLvalue lhs ((s.emitOp .opIndexset).popStack 2)
  | .id slot, s => .ok (s.emitPut slot)
  | .prop _ _, s => .ok ((s.emitOp .opPutProp).popStack 2)
  | _, _ => .error "Bad lvalue in GENERATE_EXPR()"

/-- `e->kind == EXPR_RANGE || e->kind == EXPR_INDEX`. -/
def Expr.isIndexed : Expr → Bool
  | .range _ _ _ | .index _ _ => true
  | _ => false

/-- The label of the handler and the marker of a catch expression; its label is the number
of labels before it. -/
def State.emitCatch (s : State) : State :=
  (((s.emitExtended .eopPushLabel).addLabel.pushStack 1).emitExtended .eopCatch).pushStack 1

/-- The end of the protected expression, in front of its handler. -/
def State.emitEndCatch (handlerLabel : Nat) (s : State) : State :=
  ((s.emitExtended .eopEndCatch).addLabel.popStack 3).defineLabel handlerLabel

mutual
def generateExpr : Expr → State → Except String State
  | .var v, s =>
    match v with
    | .int n =>
      if Opcode.inOptimNumRange r n then .ok ((s.emitOp (.optimNum n)).pushStack 1)
      else .ok (((s.emitOp .opImm).addLiteral v).pushStack 1)
    | v => .ok (((s.emitOp .opImm).addLiteral v).pushStack 1)
  | .id slot, s => .ok ((s.emitPush slot).pushStack 1)
  | .logical op lhs rhs, s => do
    let s ← generateExpr lhs s
    let s := s.emitOp op.opcode
    let endLabel := s.labels.length
    let s := s.addLabel.popStack 1
    let s ← generateExpr rhs s
    return s.defineLabel endLabel
  | .unary op e, s => do
    let s ← generateExpr e s
    return s.emitUnary op
  | .binary op lhs rhs, s => do
    let s ← generateExpr lhs s
    let s ← generateExpr rhs s
    return (s.emitBinary op).popStack 1
  | .prop lhs rhs, s => do
    let s ← generateExpr lhs s
    let s ← generateExpr rhs s
    return (s.emitOp .opGetProp).popStack 1
  | .index lhs rhs, s => do
    let s ← generateExpr lhs s
    let old := s.savedStack
    let s ← generateExpr rhs s.saveStackTop
    return ((s.restoreStackTop old).emitOp .opRef).popStack 1
  | .range base lo hi, s => do
    let s ← generateExpr base s
    let old := s.savedStack
    let s ← generateExpr lo s.saveStackTop
    let s ← generateExpr hi s
    return ((s.restoreStackTop old).emitOp .opRangeRef).popStack 2
  | .length, s =>
    match s.savedStack with
    | some saved => .ok (((s.emitExtended .eopLength).addStackRef saved).pushStack 1)
    | none => .error "Missing saved stack for `$' in GENERATE_EXPR()"
  | .list args, s => generateArgs .opMakeEmptyList args s
  | .call func args, s => do
    let s ← generateArgs .opMakeEmptyList args s
    return (s.emitOp .opBiFuncCall).emitByte func
  | .verb obj verb args, s => do
    let s ← generateExpr obj s
    let s ← generateExpr verb s
    let s ← generateArgs .opMakeEmptyList args s
    return (s.emitCallVerbOp .opCallVerb).popStack 2
  | .cond c a b, s => do
    let s ← generateExpr c s
    let s := s.emitOp .opIfQues
    let elseLabel := s.labels.length
    let s := s.addLabel.popStack 1
    let s ← generateExpr a s
    let s := s.emitOp .opJump
    let endLabel := s.labels.length
    let s := (s.addLabel.popStack 1).defineLabel elseLabel
    let s ← generateExpr b s
    return s.defineLabel endLabel
  | .asgn lhs rhs, s =>
    match lhs with
    | .scatter targets => do
      let s ← generateExpr rhs s
      let s := s.emitScatter targets
      let first := s.labels.length
      let s := generateTargets targets s
      let done := s.labels.length
      let s ← generateDefaults targets first s.addLabel
      return s.defineLabel done
    | lhs => do
      let s ← pushLvalue lhs false s
      let s ← generateExpr rhs s
      let s := if lhs.isIndexed then s.emitOp .opPutTemp else s
      let s ← storeLvalue lhs s
      if lhs.isIndexed then return (s.emitOp .opPop).emitSkewed .opPushTemp (-1)
      else return s
  | .catchExpr e codes dflt, s => do
    let s ← generateArgs (.optimNum 0) codes s
    let handlerLabel := s.labels.length
    let s ← generateExpr e s.emitCatch.incrTryDepth
    let endLabel := s.labels.length
    let s := s.decrTryDepth.emitEndCatch handlerLabel
    match dflt with
    | .some d => do
      let s ← generateExpr d ((s.emitOp .opPop).popStack 1)
      return s.defineLabel endLabel
    | .none => return ((s.emitOp (.optimNum 1)).emitSkewed .opRef 1).defineLabel endLabel
  | .scatter _, _ => .error "Can't happen in GENERATE_EXPR()"

/-- The common part of `generate_arg_list` and `generate_codes`, which differ in the
opcode for a null list. -/
def generateArgs (nilOp : Opcode) : ArgList → State → Except String State
  | .nil, s => .ok ((s.emitOp nilOp).pushStack 1)
  | .cons kind e next, s => do
    let s ← generateExpr e s
    generateMoreArgs next (s.emitOp kind.firstOp)

/-- The second and later rounds of the loop in `generate_arg_list`. -/
def generateMoreArgs : ArgList → State → Except String State
  | .nil, s => .ok s
  | .cons kind e next, s => do
    let s ← generateExpr e s
    generateMoreArgs next ((s.emitOp kind.moreOp).popStack 1)

def pushLvalue : Expr → Bool → State → Except String State
  | .range base lo hi, _, s => do
    let s ← pushLvalue base true s
    let old := s.savedStack
    let s ← generateExpr lo s.saveStackTop
    let s ← generateExpr hi s
    return s.restoreStackTop old
  | .index lhs rhs, indexedAbove, s => do
    let s ← pushLvalue lhs true s
    let old := s.savedStack
    let s ← generateExpr rhs s.saveStackTop
    let s := s.restoreStackTop old
    if indexedAbove then return (s.emitOp .opPushRef).pushStack 1 else return s
  | .id slot, indexedAbove, s =>
    if indexedAbove then .ok ((s.emitPush slot).pushStack 1) else .ok s
  | .prop lhs rhs, indexedAbove, s => do
    let s ← generateExpr lhs s
    let s ← generateExpr rhs s
    if indexedAbove then return (s.emitOp .opPushGetProp).pushStack 1 else return s
  | _, _, _ => .error "Bad lvalue in PUSH_LVALUE()"

/-- The default expressions of a scattering assignment; `label` is the label of the next
target that has one. -/
def generateDefaults : Scatter → Nat → State → Except String State
  | .nil, _, s => .ok s
  | .required _ next, label, s | .rest _ next, label, s => generateDefaults next label s
  | .optional slot dflt next, label, s =>
    match dflt with
    | .none => generateDefaults next label s
    | .some e => do
      let s ← generateExpr e (s.defineLabel label)
      let s := ((s.emitPut slot).emitOp .opPop).popStack 1
      generateDefaults next (label + 1) s
end

/-- `generate_arg_list`: a null list makes an empty list value. -/
abbrev generateArgList := generateArgs r .opMakeEmptyList

/-- `generate_codes`: a null list is `ANY`, compiled to the integer 0. -/
abbrev generateCodes := generateArgs r (.optimNum 0)

end LambdaMOO
