import LambdaMOO.CodeGen.Program

/-!
# The decompiler

`decompile` of `decompile.c`, which rebuilds a syntax tree from a vector of code. One call
of the C function is one run of a loop over `DState`; calls for the operands of an
instruction go through a parameter, so that the effect of a single instruction
(`decompileOp`) is not itself recursive. The bookkeeping for line numbers is left out.

`expr_stack` is an array of fixed size: a push beyond it is an error here.
-/

namespace LambdaMOO

/-- The arguments of one call: the vector, the end pointer, and which sinks are not null. -/
structure Region where
  bc : Bytecodes
  stop : Nat
  stmtSink : Bool
  armSink : Bool

/-- The local state of a call, with the global `expr_stack` (top first). -/
structure DState where
  ptr : Nat
  exprs : List Expr
  stmts : StmtList
  arms : CondArms
  stmtStart : Nat

/-- What one instruction leads to: the next round of the loop, or the early `return`. -/
inductive Step where
  | next (st : DState)
  | ret (st : DState)

/-- A call of `decompile` with a region, a start pointer and the expression stack. -/
abbrev Decompiler := Region → Nat → List Expr → Except String DState

section

variable (r : Bool) (prog : Program) (cap : Nat)

/-- `read_jump`: the target of the `OP_JUMP` at `ptr`. -/
def readJump (bc : Bytecodes) (ptr : Nat) : Except String Nat := do
  let op ← readByte bc.vector ptr
  if op ≠ Opcode.opJump.code r then throw "Missing JUMP in DECOMPILE!"
  readBytes bc.vector bc.numbytesLabel (ptr + 1)

/-! ### The expression stack and the sinks -/

def pushExpr (e : Expr) (es : List Expr) : Except String (List Expr) :=
  if es.length < cap then .ok (e :: es) else .error "expr_stack overflow"

def popExpr : List Expr → Except String (Expr × List Expr)
  | e :: es => .ok (e, es)
  | [] => .error "Empty expr stack in DECOMPILE!"

/-- `ADD_STMT`. -/
def addStmt (f : Region) (s : Stmt) (st : DState) : Except String Step :=
  if f.stmtSink then
    .ok (.next { st with stmts := st.stmts.snoc s, stmtStart := st.ptr })
  else .error "Null statement sink"

/-- Push the expression an instruction stands for and go on at `ptr`. -/
def pushNode (ptr : Nat) (e : Expr) (es : List Expr) (st : DState) : Except String Step := do
  let es ← pushExpr cap e es
  return .next { st with ptr := ptr, exprs := es }

/-- `finish_binary`. -/
def finishBinary (ptr : Nat) (mk : Expr → Expr → Expr) (st : DState) : Except String Step := do
  let (rhs, es) ← popExpr st.exprs
  let (lhs, es) ← popExpr es
  pushNode cap ptr (mk lhs rhs) es st

/-- `finish_indexed_assignment`: everything up to the next `OP_PUSH_TEMP` is skipped. -/
def finishIndexedAssignment (bc : Bytecodes) (ptr : Nat) (e : Expr) (es : List Expr)
    (st : DState) : Except String Step :=
  match (bc.vector.drop ptr).findIdx? (· = Opcode.opPushTemp.code r) with
  | some n => pushNode cap (ptr + n + 1) e es st
  | none => .error "read past the end of the vector"

/-- The code list of a catch or except, from the expression on the stack. -/
def codesOf : Expr → Except String ArgList
  | .list args => .ok args
  | .var (.int 0) => .ok .nil
  | _ => .error "Not a codes expression in DECOMPILE!"

/-- The handler label of a catch or except. -/
def labelOf (what : String) : Expr → Except String Int
  | .var (.int n) => .ok n
  | _ => .error ("Not " ++ what ++ " label in DECOMPILE!")

variable (rec : Decompiler)

/-! ### Loops -/

/-- `finish_while`; `ptr` is behind the opcode and the loop name. -/
def finishWhile (f : Region) (slot : Option Nat) (ptr : Nat) (st : DState) :
    Except String Step := do
  let bc := f.bc
  let done ← readBytes bc.vector bc.numbytesLabel ptr
  let ptr := ptr + bc.numbytesLabel
  let (condition, es) ← popExpr st.exprs
  let body ← rec ⟨bc, done - (bc.numbytesLabel + 1), true, false⟩ ptr es
  let top ← readJump r bc body.ptr
  if st.stmtStart ≠ top then throw "WHILE jumps to wrong place in DECOMPILE!"
  addStmt f (.loop slot condition body.stmts)
    { st with ptr := body.ptr + bc.numbytesLabel + 1, exprs := body.exprs }

/-- The common part of `OP_FOR_LIST` and `OP_FOR_RANGE`: the body between the operands and
the jump back to `top`. -/
def finishFor (f : Region) (what : String) (top ptr done : Nat) (es : List Expr)
    (mk : StmtList → Stmt) (st : DState) : Except String Step := do
  let bc := f.bc
  let body ← rec ⟨bc, done - (bc.numbytesLabel + 1), true, false⟩ ptr es
  let target ← readJump r bc body.ptr
  if top ≠ target then throw (what ++ " jumps to wrong place in DECOMPILE!")
  addStmt f (mk body.stmts)
    { st with ptr := body.ptr + bc.numbytesLabel + 1, exprs := body.exprs }

/-! ### Scattering assignment -/

/-- A target as its operands describe it. -/
structure Target where
  isRest : Bool
  slot : Nat
  label : Nat

/-- The operand pairs of `EOP_SCATTER`, numbered from `i` on. -/
def readTargets (bc : Bytecodes) (rest : Nat) : Nat → Nat → Nat → Except String (List Target)
  | 0, _, _ => .ok []
  | n + 1, i, ptr => do
    let slot ← readBytes bc.vector bc.numbytesVarName ptr
    let label ← readBytes bc.vector bc.numbytesLabel (ptr + bc.numbytesVarName)
    let ts ← readTargets bc rest n (i + 1) (ptr + bc.numbytesVarName + bc.numbytesLabel)
    return ⟨i = rest, slot, label⟩ :: ts

/-- The `next_label` of a target: where the next default starts, or the end. -/
def nextLabel (done : Nat) : List Target → Nat
  | [] => done
  | t :: ts => if t.label > 1 then t.label else nextLabel done ts

/-- Attach the default expressions to the targets, one nested call each. -/
def readDefaults (bc : Bytecodes) (done : Nat) : List Target → Nat → List Expr →
    Except String (Scatter × Nat × List Expr)
  | [], ptr, es => .ok (.nil, ptr, es)
  | t :: ts, ptr, es =>
    if t.label > 1 then do
      if ptr ≠ t.label then throw "Misplaced default in DECOMPILE!"
      let st ← rec ⟨bc, nextLabel done ts - 1, false, false⟩ ptr es
      let (defallt, es) ← popExpr st.exprs
      match defallt with
      | .asgn (.id slot) e => do
        if slot ≠ t.slot then throw "Wrong variable in DECOMPILE!"
        let op ← readByte bc.vector st.ptr
        if op ≠ Opcode.opPop.code r then throw "Missing default POP in DECOMPILE!"
        let (sc, ptr, es) ← readDefaults bc done ts (st.ptr + 1) es
        if t.isRest then throw "a rest target has no default"
        return (.optional t.slot (.some e) sc, ptr, es)
      | _ => throw "Wrong variable in DECOMPILE!"
    else do
      let (sc, ptr, es) ← readDefaults bc done ts ptr es
      if t.isRest then return (.rest t.slot sc, ptr, es)
      else if t.label = 0 then return (.required t.slot sc, ptr, es)
      else return (.optional t.slot .none sc, ptr, es)

/-! ### Catch -/

/-- The handler of a catch expression at `ptr`, which ends at `done`. -/
def finishCatch (bc : Bytecodes) (ptr done : Nat) (e : Expr) (codes : ArgList) (es : List Expr)
    (st : DState) : Except String Step := do
  let op ← readByte bc.vector ptr
  if op = (Opcode.optimNum 1).code r then do
    let op ← readByte bc.vector (ptr + 1)
    if op ≠ Opcode.opRef.code r then throw "Missing REF in DECOMPILE!"
    if ptr + 2 ≠ done then throw "CATCH ends in wrong place in DECOMPILE!"
    pushNode cap (ptr + 2) (.catchExpr e codes .none) es st
  else if op = Opcode.opPop.code r then do
    let dflt ← rec ⟨bc, done, false, false⟩ (ptr + 1) es
    let (d, es) ← popExpr dflt.exprs
    if dflt.ptr ≠ done then throw "CATCH ends in wrong place in DECOMPILE!"
    pushNode cap dflt.ptr (.catchExpr e codes (.some d)) es st
  else throw "Bad default expression in DECOMPILE!"

/-! ### Try-except -/

/-- Pop the labels and codes of the arms. The last arm is on top, so the list built from
the front is in the order of the source. -/
def popHandlers : Nat → List (Int × ArgList) → List Expr →
    Except String (List (Int × ArgList) × List Expr)
  | 0, hs, es => .ok (hs, es)
  | n + 1, hs, es => do
    let (l, es) ← popExpr es
    let label ← labelOf "an except" l
    let (c, es) ← popExpr es
    let codes ← codesOf c
    popHandlers n ((label, codes) :: hs) es

/-- The optional `OP_PUT` and the `OP_POP` at the start of a handler. -/
def readExceptVar (bc : Bytecodes) (ptr : Nat) : Except String (Option Nat × Nat) := do
  let op ← readByte bc.vector ptr
  match Opcode.ofCode r op with
  | some .opGPut => do
    let slot ← readBytes bc.vector bc.numbytesVarName (ptr + 1)
    let op ← readByte bc.vector (ptr + 1 + bc.numbytesVarName)
    if op ≠ Opcode.opPop.code r then throw "Missing POP in DECOMPILE!"
    return (some slot, ptr + bc.numbytesVarName + 2)
  | some (.opPut slot) => do
    let op ← readByte bc.vector (ptr + 1)
    if op ≠ Opcode.opPop.code r then throw "Missing POP in DECOMPILE!"
    return (some slot, ptr + 2)
  | some .opPop => return (none, ptr + 1)
  | _ => throw "Missing POP in DECOMPILE!"

/-- The handlers of a try-except. -/
def readHandlers (bc : Bytecodes) (done : Nat) : List (Int × ArgList) → Nat → List Expr →
    Except String (ExceptArms × Nat × List Expr)
  | [], ptr, es => .ok (.nil, ptr, es)
  | (label, codes) :: hs, ptr, es => do
    if label ≠ ptr then throw "Not at start of handler in DECOMPILE!"
    let (slot, ptr) ← readExceptVar r bc ptr
    match hs with
    | [] => do
      let st ← rec ⟨bc, done, true, false⟩ ptr es
      return (.cons slot codes st.stmts .nil, st.ptr, st.exprs)
    | (next, _) :: _ => do
      let st ← rec ⟨bc, next.toNat - (bc.numbytesLabel + 1), true, false⟩ ptr es
      let target ← readJump r bc st.ptr
      if target ≠ done then throw "EXCEPT jumps to wrong place in DECOMPILE!"
      let (arms, ptr, es) ← readHandlers bc done hs (st.ptr + bc.numbytesLabel + 1) st.exprs
      return (.cons slot codes st.stmts arms, ptr, es)

/-! ### One instruction -/

/-- The cases of `OP_EXTENDED`; `ptr` is behind the extended opcode. -/
def decompileExt (f : Region) (op : ExtOpcode) (ptr : Nat) (st : DState) :
    Except String Step :=
  let bc := f.bc
  match op with
  | .eopRangeset => do
    let (rvalue, es) ← popExpr st.exprs
    let (hi, es) ← popExpr es
    let (lo, es) ← popExpr es
    let (base, es) ← popExpr es
    finishIndexedAssignment r cap bc ptr (.asgn (.range base lo hi) rvalue) es st
  | .eopLength => pushNode cap (ptr + bc.numbytesStack) .length st.exprs st
  | .eopScatter => do
    let nargs ← readByte bc.vector ptr
    let rest ← readByte bc.vector (ptr + 2)
    let ts ← readTargets bc rest nargs 1 (ptr + 3)
    let ptr := ptr + 3 + nargs * (bc.numbytesVarName + bc.numbytesLabel)
    let done ← readBytes bc.vector bc.numbytesLabel ptr
    let (sc, ptr, es) ← readDefaults r rec bc done ts (ptr + bc.numbytesLabel) st.exprs
    let (rhs, es) ← popExpr es
    if ptr ≠ done then throw "Not at end of scatter in DECOMPILE!"
    pushNode cap ptr (.asgn (.scatter sc) rhs) es st
  | .eopPushLabel => do
    let label ← readBytes bc.vector bc.numbytesLabel ptr
    pushNode cap (ptr + bc.numbytesLabel) (.var (.int label)) st.exprs st
  | .eopCatch => do
    let (l, es) ← popExpr st.exprs
    let (c, es) ← popExpr es
    let label ← labelOf "a catch" l
    let codes ← codesOf c
    let body ← rec ⟨bc, f.stop, false, false⟩ ptr es
    let op ← readByte bc.vector (body.ptr + 1)
    if op ≠ ExtOpcode.eopEndCatch.code then throw "Missing END_CATCH in DECOMPILE!"
    let done ← readBytes bc.vector bc.numbytesLabel (body.ptr + 2)
    let ptr := body.ptr + 2 + bc.numbytesLabel
    let (e, es) ← popExpr body.exprs
    if (ptr : Int) ≠ label then throw "Misplaced handler in DECOMPILE!"
    finishCatch r cap rec bc ptr done e codes es st
  | .eopEndCatch | .eopEndExcept | .eopEndFinally | .eopContinue =>
    return .ret { st with ptr := ptr - 2 }
  | .eopTryExcept => do
    let count ← readByte bc.vector ptr
    let (hs, es) ← popHandlers count [] st.exprs
    let body ← rec ⟨bc, f.stop, true, false⟩ (ptr + 1) es
    let op ← readByte bc.vector (body.ptr + 1)
    if op ≠ ExtOpcode.eopEndExcept.code then throw "Missing END_EXCEPT in DECOMPILE!"
    let done ← readBytes bc.vector bc.numbytesLabel (body.ptr + 2)
    let ptr := body.ptr + 2 + bc.numbytesLabel
    let (arms, ptr, es) ← readHandlers r rec bc done hs ptr body.exprs
    if ptr ≠ done then throw "EXCEPTS end in wrong place in DECOMPILE!"
    addStmt f (.tryExcept body.stmts arms) { st with ptr := ptr, exprs := es }
  | .eopTryFinally => do
    let label ← readBytes bc.vector bc.numbytesLabel ptr
    let body ← rec ⟨bc, f.stop, true, false⟩ (ptr + bc.numbytesLabel) st.exprs
    let op ← readByte bc.vector (body.ptr + 1)
    if op ≠ ExtOpcode.eopEndFinally.code then throw "Missing END_FINALLY in DECOMPILE!"
    if body.ptr + 2 ≠ label then throw "FINALLY handler in wrong place in DECOMPILE!"
    let handler ← rec ⟨bc, f.stop, true, false⟩ (body.ptr + 2) body.exprs
    let op ← readByte bc.vector (handler.ptr + 1)
    if op ≠ ExtOpcode.eopContinue.code then throw "Missing CONTINUE in DECOMPILE!"
    addStmt f (.tryFinally body.stmts handler.stmts)
      { st with ptr := handler.ptr + 2, exprs := handler.exprs }
  | .eopWhileId => do
    let slot ← readBytes bc.vector bc.numbytesVarName ptr
    finishWhile r rec f (some slot) (ptr + bc.numbytesVarName) st
  | .eopExit => do
    let label ← readBytes bc.vector bc.numbytesLabel (ptr + bc.numbytesStack)
    let ptr := ptr + bc.numbytesStack + bc.numbytesLabel
    addStmt f (if label < ptr then .cont none else .brk none) { st with ptr := ptr }
  | .eopExitId => do
    let slot ← readBytes bc.vector bc.numbytesVarName ptr
    let ptr := ptr + bc.numbytesVarName
    let label ← readBytes bc.vector bc.numbytesLabel (ptr + bc.numbytesStack)
    let ptr := ptr + bc.numbytesStack + bc.numbytesLabel
    addStmt f (if label < ptr then .cont (some slot) else .brk (some slot))
      { st with ptr := ptr }
  | .eopComplement => do
    let (e, es) ← popExpr st.exprs
    pushNode cap ptr (.unary .complement e) es st
  | op =>
    match BinOp.ofExtOpcode op with
    | some b => finishBinary cap ptr (.binary b) st
    | none => .error "Unknown extended opcode in DECOMPILE!"

/-- One round of the loop for the instruction `op`; `ptr` is behind the opcode. -/
def decompileOp (f : Region) (op : Opcode) (ptr : Nat) (st : DState) : Except String Step :=
  let bc := f.bc
  match op with
  | .opPush n | .opPushClear n => pushNode cap ptr (.id n) st.exprs st
  | .opPut n => do
    let (rhs, es) ← popExpr st.exprs
    pushNode cap ptr (.asgn (.id n) rhs) es st
  | .optimNum i => pushNode cap ptr (.var (.int i)) st.exprs st
  | .opIf => do
    let next ← readBytes bc.vector bc.numbytesLabel ptr
    let ptr := ptr + bc.numbytesLabel
    let (condition, es) ← popExpr st.exprs
    let arm ← rec ⟨bc, next - (bc.numbytesLabel + 1), true, false⟩ ptr es
    let done ← readJump r bc arm.ptr
    let rest ← rec ⟨bc, done, true, true⟩ (arm.ptr + bc.numbytesLabel + 1) arm.exprs
    addStmt f (.cond (.cons condition arm.stmts rest.arms) rest.stmts)
      { st with ptr := rest.ptr, exprs := rest.exprs }
  | .opEif => do
    let next ← readBytes bc.vector bc.numbytesLabel ptr
    let ptr := ptr + bc.numbytesLabel
    let (condition, es) ← popExpr st.exprs
    let arm ← rec ⟨bc, next - (bc.numbytesLabel + 1), true, false⟩ ptr es
    if !f.armSink then throw "Null arm sink"
    let done ← readJump r bc arm.ptr
    if done ≠ f.stop then throw "ELSEIF jumps to wrong place in DECOMPILE!"
    let ptr := arm.ptr + bc.numbytesLabel + 1
    return .next
      { st with
        ptr := ptr, exprs := arm.exprs, arms := st.arms.snoc condition arm.stmts
        stmtStart := ptr }
  | .opForList => do
    let slot ← readBytes bc.vector bc.numbytesVarName ptr
    let done ← readBytes bc.vector bc.numbytesLabel (ptr + bc.numbytesVarName)
    let (one, es) ← popExpr st.exprs
    let (list, es) ← popExpr es
    if one ≠ .var (.int 1) then throw "Not a literal one in DECOMPILE!"
    finishFor r rec f "FOR_LIST" (ptr - 1) (ptr + bc.numbytesVarName + bc.numbytesLabel) done es
      (.list slot list) st
  | .opForRange => do
    let slot ← readBytes bc.vector bc.numbytesVarName ptr
    let done ← readBytes bc.vector bc.numbytesLabel (ptr + bc.numbytesVarName)
    let (hi, es) ← popExpr st.exprs
    let (lo, es) ← popExpr es
    finishFor r rec f "FOR_RANGE" (ptr - 1) (ptr + bc.numbytesVarName + bc.numbytesLabel) done es
      (.range slot lo hi) st
  | .opWhile => finishWhile r rec f none ptr st
  | .opFork => do
    let (time, es) ← popExpr st.exprs
    let i ← readBytes bc.vector bc.numbytesFork ptr
    match prog.forkVectors[i]? with
    | none => throw "no such fork vector"
    | some fbc => do
      let body ← rec ⟨fbc, fbc.size, true, false⟩ 0 es
      addStmt f (.fork none time body.stmts)
        { st with ptr := ptr + bc.numbytesFork, exprs := body.exprs }
  | .opForkWithId => do
    let (time, es) ← popExpr st.exprs
    let i ← readBytes bc.vector bc.numbytesFork ptr
    let slot ← readBytes bc.vector bc.numbytesVarName (ptr + bc.numbytesFork)
    match prog.forkVectors[i]? with
    | none => throw "no such fork vector"
    | some fbc => do
      let body ← rec ⟨fbc, fbc.size, true, false⟩ 0 es
      addStmt f (.fork (some slot) time body.stmts)
        { st with ptr := ptr + bc.numbytesFork + bc.numbytesVarName, exprs := body.exprs }
  | .opPop => do
    let (e, es) ← popExpr st.exprs
    addStmt f (.expr e) { st with ptr := ptr, exprs := es }
  | .opReturn => do
    let (e, es) ← popExpr st.exprs
    addStmt f (.ret (some e)) { st with ptr := ptr, exprs := es }
  | .opReturn0 => addStmt f (.ret none) { st with ptr := ptr }
  | .opDone =>
    if ptr ≠ f.stop then .error "DONE not at end in DECOMPILE!"
    else return .next { st with ptr := ptr }
  | .opImm => do
    let i ← readBytes bc.vector bc.numbytesLiteral ptr
    match prog.literals[i]? with
    | none => throw "no such literal"
    | some v => pushNode cap (ptr + bc.numbytesLiteral) (.var v) st.exprs st
  | .opGPush => do
    let slot ← readBytes bc.vector bc.numbytesVarName ptr
    pushNode cap (ptr + bc.numbytesVarName) (.id slot) st.exprs st
  | .opGPut => do
    let slot ← readBytes bc.vector bc.numbytesVarName ptr
    let (rhs, es) ← popExpr st.exprs
    pushNode cap (ptr + bc.numbytesVarName) (.asgn (.id slot) rhs) es st
  | .opAnd | .opOr => do
    let done ← readBytes bc.vector bc.numbytesLabel ptr
    let (lhs, es) ← popExpr st.exprs
    let right ← rec ⟨bc, done, false, false⟩ (ptr + bc.numbytesLabel) es
    if right.ptr ≠ done then throw "AND/OR jumps to wrong place in DECOMPILE!"
    let (rhs, es) ← popExpr right.exprs
    pushNode cap right.ptr (.logical (if op = .opAnd then .and else .or) lhs rhs) es st
  | .opUnaryMinus => do
    let (e, es) ← popExpr st.exprs
    pushNode cap ptr (.unary .negate e) es st
  | .opNot => do
    let (e, es) ← popExpr st.exprs
    pushNode cap ptr (.unary .not e) es st
  | .opGetProp | .opPushGetProp => finishBinary cap ptr .prop st
  | .opRef | .opPushRef => finishBinary cap ptr .index st
  | .opRangeRef => do
    let (hi, es) ← popExpr st.exprs
    let (lo, es) ← popExpr es
    let (base, es) ← popExpr es
    pushNode cap ptr (.range base lo hi) es st
  | .opBiFuncCall => do
    let (a, es) ← popExpr st.exprs
    match a with
    | .list args => do
      let func ← readByte bc.vector ptr
      pushNode cap (ptr + 1) (.call func args) es st
    | _ => throw "Missing arglist for BI_FUNC_CALL in DECOMPILE!"
  | .opCallVerb => do
    let (a, es) ← popExpr st.exprs
    let (verb, es) ← popExpr es
    match a with
    | .list args => do
      let (obj, es) ← popExpr es
      pushNode cap ptr (.verb obj verb args) es st
    | _ => throw "Missing arglist for CALL_VERB in DECOMPILE!"
  | .opIfQues => do
    let label ← readBytes bc.vector bc.numbytesLabel ptr
    let (c, es) ← popExpr st.exprs
    let left ← rec ⟨bc, label - (bc.numbytesLabel + 1), false, false⟩ (ptr + bc.numbytesLabel) es
    let label ← readJump r bc left.ptr
    let (a, es) ← popExpr left.exprs
    let right ← rec ⟨bc, label, false, false⟩ (left.ptr + bc.numbytesLabel + 1) es
    if right.ptr ≠ label then throw "THEN jumps to wrong place in DECOMPILE!"
    let (b, es) ← popExpr right.exprs
    pushNode cap right.ptr (.cond c a b) es st
  | .opPutTemp => return .next { st with ptr := ptr }
  | .opIndexset => do
    let (rvalue, es) ← popExpr st.exprs
    let (index, es) ← popExpr es
    let (base, es) ← popExpr es
    finishIndexedAssignment r cap bc ptr (.asgn (.index base index) rvalue) es st
  | .opPutProp => do
    let (rvalue, es) ← popExpr st.exprs
    let (name, es) ← popExpr es
    let (obj, es) ← popExpr es
    pushNode cap ptr (.asgn (.prop obj name) rvalue) es st
  | .opMakeEmptyList => pushNode cap ptr (.list .nil) st.exprs st
  | .opMakeSingletonList => do
    let (e, es) ← popExpr st.exprs
    pushNode cap ptr (.list (.cons .normal e .nil)) es st
  | .opCheckListForSplice => do
    let (e, es) ← popExpr st.exprs
    pushNode cap ptr (.list (.cons .splice e .nil)) es st
  | .opListAddTail | .opListAppend => do
    let (e, es) ← popExpr st.exprs
    let (l, es) ← popExpr es
    match l with
    | .list (.cons k x next) =>
      pushNode cap ptr
        (.list ((ArgList.cons k x next).snoc (if op = .opListAppend then .splice else .normal) e))
        es st
    | _ => throw "Missing list expression in DECOMPILE!"
  | .opPushTemp | .opJump => .error "Unexpected opcode in DECOMPILE!"
  | .opExtended => do
    let b ← readByte bc.vector ptr
    match ExtOpcode.ofCode b with
    | some eop => decompileExt r cap rec f eop (ptr + 1) st
    | none => throw "Unknown extended opcode in DECOMPILE!"
  | op =>
    match BinOp.ofOpcode op with
    | some b => finishBinary cap ptr (.binary b) st
    | none => .error "Unknown opcode in DECOMPILE!"

end

/-! ### The loop -/

variable (r : Bool) (prog : Program) (cap : Nat)

/-- The `while (ptr < end)` loop of one call. -/
def decompileLoop : Nat → Region → DState → Except String DState
  | 0, _, _ => .error "out of fuel"
  | fuel + 1, f, st =>
    if st.ptr < f.stop then do
      let b ← readByte f.bc.vector st.ptr
      match Opcode.ofCode r b with
      | none => throw "Unknown opcode in DECOMPILE!"
      | some op =>
        let rec' : Decompiler := fun f ptr es =>
          decompileLoop fuel f ⟨ptr, es, .nil, .nil, ptr⟩
        match ← decompileOp r prog cap rec' f op (st.ptr + 1) st with
        | .next st => decompileLoop fuel f st
        | .ret st => return st
    else if st.ptr ≠ f.stop then throw "Overshot end in DECOMPILE!"
    else return st

/-- `decompile`. -/
def decompile (fuel : Nat) : Decompiler := fun f ptr es =>
  decompileLoop r prog cap fuel f ⟨ptr, es, .nil, .nil, ptr⟩

/-- The size of `expr_stack`: the sum of the maximal stacks of all vectors. -/
def Program.stackSum (prog : Program) : Nat :=
  prog.mainVector.maxStack + (prog.forkVectors.map Bytecodes.maxStack).sum

/-- `decompile_program` on the main vector. -/
def decompileProgram (fuel : Nat) : Except String StmtList := do
  let bc := prog.mainVector
  let st ← decompile r prog prog.stackSum fuel ⟨bc, bc.size, true, false⟩ 0 []
  return st.stmts

end LambdaMOO
