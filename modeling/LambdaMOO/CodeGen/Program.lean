import LambdaMOO.CodeGen.Generate
import LambdaMOO.CodeGen.Link

/-!
# Statements and programs

`generate_stmt`, `stmt_to_code` and `generate_code` of `code_gen.c`.
-/

namespace LambdaMOO

open State

/-- `struct Program`, without the reference count and the line-number cache. -/
structure Program where
  mainVector : Bytecodes
  literals : List Literal
  forkVectors : List Bytecodes
  deriving DecidableEq, Repr

variable (r : Bool)

/-- The codes and handler labels pushed in front of a try-except body. The label of the
`k`-th arm is the `k`-th of the list returned. -/
def generateHandlers : ExceptArms → State → Except String (List Nat × State)
  | .nil, s => .ok ([], s)
  | .cons _ codes _ next, s => do
    let s ← generateCodes r codes s
    let s := s.emitExtended .eopPushLabel
    let label := s.labels.length
    let s := s.addLabel.pushStack 1
    let (labels, s) ← generateHandlers next s
    return (label :: labels, s)

/-- `OP_PUT` of the exception tuple, if the arm names a variable. -/
def State.emitExceptPut (slot : Option Nat) (s : State) : State :=
  match slot with
  | some slot => s.emitPut slot
  | none => s

/-- The jump over the remaining handlers; the last handler has none. -/
def State.emitExceptJump (next : ExceptArms) (endLabel : Nat) (s : State) : State :=
  match next with
  | .nil => s
  | .cons _ _ _ _ => (s.emitOp .opJump).addFixup (.label endLabel)

/-- `OP_WHILE`, or `EOP_WHILE_ID` with the name of the loop. -/
def State.emitWhile (slot : Option Nat) (s : State) : State :=
  match slot with
  | some slot => (s.emitExtended .eopWhileId).addVarRef slot
  | none => s.emitOp .opWhile

def State.emitForkOp (slot : Option Nat) (s : State) : State :=
  match slot with
  | some _ => s.emitOp .opForkWithId
  | none => s.emitOp .opFork

/-- The variable operand of `OP_FORK_WITH_ID`. -/
def State.addForkId (slot : Option Nat) (s : State) : State :=
  match slot with
  | some slot => s.addVarRef slot
  | none => s

/-- The loop a `break` or `continue` leaves: the innermost one, or the innermost of that
name. -/
def findLoop : Option Nat → List Loop → Option Loop
  | none, loops => loops.head?
  | some slot, loops => loops.find? fun l => l.slot = some slot

/-- The `EOP_EXIT` of a `break` or `continue`; `stack` is the height to unwind to. -/
def generateExit (exit : Option Nat) (s : State) : State :=
  match exit with
  | none => s.emitExtended .eopExit
  | some slot => (s.emitExtended .eopExitId).addVarRef slot

/-- The message of the panic when there is no such loop. -/
def noLoop : Option Nat → String
  | none => "No loop to exit, in CODE_GEN!"
  | some _ => "Can't find loop in CONTINUE_LOOP!"

/-- The part of `stmt_to_code` after `generate_stmt`. -/
def finishCode (s : State) : Except String Bytecodes := link r (s.emitEndingOp .opDone)

mutual
def generateStmts : StmtList → State → Except String State
  | .nil, s => .ok s
  | .cons stmt next, s => do
    let s ← generateStmt stmt s
    generateStmts next s

def generateStmt : Stmt → State → Except String State
  | .cond arms otherwise, s => do
    let (endLabel, s) ← generateArms arms .opIf none s
    let s ← generateStmts otherwise s
    match endLabel with
    | some id => return s.defineLabel id
    | none => return s
  | .list slot e body, s => do
    let s ← generateExpr r e s
    let s := (s.emitOp (.optimNum 1)).pushStack 1
    let loopTop := s.captureLabel
    let s := (s.emitOp .opForList).addVarRef slot
    let endLabel := s.labels.length
    let s := s.addLabel
    let s := s.enterLoop (some slot) loopTop s.curStack endLabel (s.curStack - 2)
    let s ← generateStmts body s
    let s := (s.exitLoop.emitOp .opJump).addKnownLabel loopTop
    return (s.defineLabel endLabel).popStack 2
  | .range slot lo hi body, s => do
    let s ← generateExpr r lo s
    let s ← generateExpr r hi s
    let loopTop := s.captureLabel
    let s := (s.emitOp .opForRange).addVarRef slot
    let endLabel := s.labels.length
    let s := s.addLabel
    let s := s.enterLoop (some slot) loopTop s.curStack endLabel (s.curStack - 2)
    let s ← generateStmts body s
    let s := (s.exitLoop.emitOp .opJump).addKnownLabel loopTop
    return (s.defineLabel endLabel).popStack 2
  | .loop slot c body, s => do
    let loopTop := s.captureLabel
    let s ← generateExpr r c s
    let s := s.emitWhile slot
    let endLabel := s.labels.length
    let s := s.addLabel.popStack 1
    let s := s.enterLoop slot loopTop s.curStack endLabel s.curStack
    let s ← generateStmts body s
    let s := (s.exitLoop.emitOp .opJump).addKnownLabel loopTop
    return s.defineLabel endLabel
  | .fork slot time body, s => do
    let s ← generateExpr r time s
    let s := s.emitForkOp slot
    let t ← generateStmts body (State.init s.gstate)
    let bc ← finishCode r t
    let s := { s with gstate := t.gstate }.addFork bc
    return (s.addForkId slot).popStack 1
  | .expr e, s => do
    let s ← generateExpr r e s
    return (s.emitOp .opPop).popStack 1
  | .ret e, s =>
    match e with
    | some e => do
      let s ← generateExpr r e s
      return (s.emitEndingOp .opReturn).popStack 1
    | none => return s.emitEndingOp .opReturn0
  | .tryExcept body excepts, s => do
    let (labels, s) ← generateHandlers r excepts s
    let s := (s.emitExtended .eopTryExcept).emitByte excepts.length
    let s := (s.pushStack 1).incrTryDepth
    let s ← generateStmts body s
    let s := s.decrTryDepth.emitExtended .eopEndExcept
    let endLabel := s.labels.length
    let s := s.addLabel.popStack (2 * excepts.length + 1)
    let s ← generateExcepts excepts labels endLabel s
    return s.defineLabel endLabel
  | .tryFinally body handler, s => do
    let s := s.emitExtended .eopTryFinally
    let handlerLabel := s.labels.length
    let s := (s.addLabel.pushStack 1).incrTryDepth
    let s ← generateStmts body s
    let s := (s.decrTryDepth.emitExtended .eopEndFinally).popStack 1
    let s := (s.defineLabel handlerLabel).pushStack 2
    let s ← generateStmts handler s
    return (s.emitExtended .eopContinue).popStack 2
  | .brk exit, s =>
    match findLoop exit s.loops with
    | some loop =>
      .ok (((generateExit exit s).addStackRef loop.bottomStack).addFixup
        (.label loop.bottomLabel))
    | none => .error (noLoop exit)
  | .cont exit, s =>
    match findLoop exit s.loops with
    | some loop =>
      .ok (((generateExit exit s).addStackRef loop.topStack).addKnownLabel loop.topLabel)
    | none => .error (noLoop exit)

/-- The arms of an `if`; `endLabel` is the label behind all of them. -/
def generateArms : CondArms → Opcode → Option Nat → State →
    Except String (Option Nat × State)
  | .nil, _, endLabel, s => .ok (endLabel, s)
  | .cons c ss next, ifOp, endLabel, s => do
    let s ← generateExpr r c s
    let s := s.emitOp ifOp
    let elseLabel := s.labels.length
    let s := s.addLabel.popStack 1
    let s ← generateStmts ss s
    let (endLabel, s) := (s.emitOp .opJump).addLinkedLabel endLabel
    generateArms next .opEif (some endLabel) (s.defineLabel elseLabel)

/-- The handlers of a try-except. -/
def generateExcepts : ExceptArms → List Nat → Nat → State → Except String State
  | .nil, _, _, s => .ok s
  | .cons _ _ _ _, [], _, _ => .error "Can't happen in GENERATE_STMT()"
  | .cons slot _ ss next, label :: labels, endLabel, s => do
    let s := (s.defineLabel label).pushStack 1
    let s := ((s.emitExceptPut slot).emitOp .opPop).popStack 1
    let s ← generateStmts ss s
    generateExcepts next labels endLabel (s.emitExceptJump next endLabel)
end

/-- `stmt_to_code`, returning the global state it leaves behind. -/
def stmtToCode (ss : StmtList) (g : GState) : Except String (Bytecodes × GState) := do
  let s ← generateStmts r ss (State.init g)
  let bc ← finishCode r s
  return (bc, s.gstate)

/-- `generate_code`. -/
def generateCode (ss : StmtList) : Except String Program := do
  let (bc, g) ← stmtToCode r ss initGState
  return ⟨bc, g.literals, g.forkVectors⟩

end LambdaMOO
