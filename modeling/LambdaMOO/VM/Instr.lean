import LambdaMOO.CodeGen.Program

/-!
# Instructions

One round of the interpreter's loop starts by reading an opcode and its operands. An
instruction is an opcode with its operands read, so that what it does can be said without
the vector. Opcodes that the `switch` of `run` treats alike are one instruction, and so are
the pairs it takes in one round: a literal that is dropped at once, and an assignment whose
value is.
-/

namespace LambdaMOO

inductive Instr where
  | test (label : Nat)
  | jump (label : Nat)
  | forList (id label : Nat)
  | forRange (id label : Nat)
  | pop
  | skip
  | imm (slot : Nat)
  | num (i : Int)
  | makeEmptyList | listAddTail | listAppend | makeSingletonList | checkListForSplice
  | indexset | putTemp | pushTemp
  | binary (op : BinOp)
  | unary (op : UnOp)
  | logical (op : LogOp) (label : Nat)
  | ref | pushRef | rangeRef
  | put (id : Nat) (drop : Bool)
  | push (id : Nat)
  | pushClear (id : Nat)
  | getProp | pushGetProp | putProp
  | fork (index : Nat) (id : Option Nat)
  | callVerb
  | biFuncCall (id : Nat)
  | ret | ret0
  | rangeset
  | length (place : Nat)
  | scatter (nargs nreq rest : Nat) (targets : List (Nat × Nat)) (done : Nat)
  | pushLabel (label : Nat)
  | tryFinally (label : Nat)
  | catchMark (num : Nat)
  | endCatch (label : Nat)
  | endExcept (label : Nat)
  | endFinally
  | continueOp
  | whileId (id label : Nat)
  | exit (height label : Nat)
  deriving DecidableEq, Repr

section

variable (r : Bool) (bc : Bytecodes)

def readLabel (pc : Nat) : Except String Nat := readBytes bc.vector bc.numbytesLabel pc

def readVarName (pc : Nat) : Except String Nat := readBytes bc.vector bc.numbytesVarName pc

/-- An instruction whose only operand is a label. -/
def decodeLabel (mk : Nat → Instr) (pc : Nat) : Except String (Instr × Nat) := do
  let label ← readLabel bc pc
  return (mk label, pc + bc.numbytesLabel)

/-- An instruction with a variable and a label. -/
def decodeVarLabel (mk : Nat → Nat → Instr) (pc : Nat) : Except String (Instr × Nat) := do
  let id ← readVarName bc pc
  let label ← readLabel bc (pc + bc.numbytesVarName)
  return (mk id label, pc + bc.numbytesVarName + bc.numbytesLabel)

/-- The operand pairs of `EOP_SCATTER`. -/
def decodeTargets : Nat → Nat → Except String (List (Nat × Nat) × Nat)
  | 0, pc => .ok ([], pc)
  | n + 1, pc => do
    let id ← readVarName bc pc
    let label ← readLabel bc (pc + bc.numbytesVarName)
    let (ts, pc) ← decodeTargets n (pc + bc.numbytesVarName + bc.numbytesLabel)
    return ((id, label) :: ts, pc)

/-- The operands of an extended opcode; `pc` is behind the two opcode bytes. -/
def decodeExt (eop : ExtOpcode) (pc : Nat) : Except String (Instr × Nat) :=
  match eop with
  | .eopRangeset => return (.rangeset, pc)
  | .eopLength => do
    let place ← readBytes bc.vector bc.numbytesStack pc
    return (.length place, pc + bc.numbytesStack)
  | .eopPushLabel => decodeLabel bc .pushLabel pc
  | .eopTryFinally => decodeLabel bc .tryFinally pc
  | .eopCatch => return (.catchMark 1, pc)
  | .eopTryExcept => do
    let num ← readByte bc.vector pc
    return (.catchMark num, pc + 1)
  | .eopEndCatch => decodeLabel bc .endCatch pc
  | .eopEndExcept => decodeLabel bc .endExcept pc
  | .eopEndFinally => return (.endFinally, pc)
  | .eopContinue => return (.continueOp, pc)
  | .eopWhileId => decodeVarLabel bc .whileId pc
  | .eopExit => do
    let height ← readBytes bc.vector bc.numbytesStack pc
    let label ← readLabel bc (pc + bc.numbytesStack)
    return (.exit height label, pc + bc.numbytesStack + bc.numbytesLabel)
  | .eopExitId => do
    let pc := pc + bc.numbytesVarName
    let height ← readBytes bc.vector bc.numbytesStack pc
    let label ← readLabel bc (pc + bc.numbytesStack)
    return (.exit height label, pc + bc.numbytesStack + bc.numbytesLabel)
  | .eopScatter => do
    let nargs ← readByte bc.vector pc
    let nreq ← readByte bc.vector (pc + 1)
    let rest ← readByte bc.vector (pc + 2)
    let (ts, pc) ← decodeTargets bc nargs (pc + 3)
    let done ← readLabel bc pc
    return (.scatter nargs nreq rest ts done, pc + bc.numbytesLabel)
  | .eopComplement => return (.unary .complement, pc)
  | .eopExp => return (.binary .exp, pc)
  | .eopBitand => return (.binary .bitand, pc)
  | .eopBitxor => return (.binary .bitxor, pc)
  | .eopBitor => return (.binary .bitor, pc)
  | .eopShl => return (.binary .shl, pc)
  | .eopShr => return (.binary .shr, pc)
  | .eopLshr => return (.binary .lshr, pc)

/-- The operands of an opcode; `pc` is behind it. -/
def decodeOp (op : Opcode) (pc : Nat) : Except String (Instr × Nat) :=
  match op with
  | .opIf | .opWhile | .opEif | .opIfQues => decodeLabel bc .test pc
  | .opJump => decodeLabel bc .jump pc
  | .opForList => decodeVarLabel bc .forList pc
  | .opForRange => decodeVarLabel bc .forRange pc
  | .opPop => return (.pop, pc)
  | .opImm => do
    let next ← readByte bc.vector (pc + bc.numbytesLiteral)
    if next = Opcode.opPop.code r then return (.skip, pc + bc.numbytesLiteral + 1)
    let slot ← readBytes bc.vector bc.numbytesLiteral pc
    return (.imm slot, pc + bc.numbytesLiteral)
  | .optimNum i => return (.num i, pc)
  | .opMakeEmptyList => return (.makeEmptyList, pc)
  | .opListAddTail => return (.listAddTail, pc)
  | .opListAppend => return (.listAppend, pc)
  | .opMakeSingletonList => return (.makeSingletonList, pc)
  | .opCheckListForSplice => return (.checkListForSplice, pc)
  | .opIndexset => return (.indexset, pc)
  | .opPutTemp => return (.putTemp, pc)
  | .opPushTemp => return (.pushTemp, pc)
  | .opMult => return (.binary .times, pc)
  | .opDiv => return (.binary .divide, pc)
  | .opMod => return (.binary .mod, pc)
  | .opAdd => return (.binary .plus, pc)
  | .opMinus => return (.binary .minus, pc)
  | .opEq => return (.binary .eq, pc)
  | .opNe => return (.binary .ne, pc)
  | .opLt => return (.binary .lt, pc)
  | .opLe => return (.binary .le, pc)
  | .opGt => return (.binary .gt, pc)
  | .opGe => return (.binary .ge, pc)
  | .opIn => return (.binary .isIn, pc)
  | .opAnd => decodeLabel bc (.logical .and) pc
  | .opOr => decodeLabel bc (.logical .or) pc
  | .opUnaryMinus => return (.unary .negate, pc)
  | .opNot => return (.unary .not, pc)
  | .opRef => return (.ref, pc)
  | .opPushRef => return (.pushRef, pc)
  | .opRangeRef => return (.rangeRef, pc)
  | .opPut id => do
    let next ← readByte bc.vector pc
    if next = Opcode.opPop.code r then return (.put id true, pc + 1)
    return (.put id false, pc)
  | .opGPut => do
    let id ← readVarName bc pc
    return (.put id false, pc + bc.numbytesVarName)
  | .opPush id => return (.push id, pc)
  | .opGPush => do
    let id ← readVarName bc pc
    return (.push id, pc + bc.numbytesVarName)
  | .opPushClear id => return (.pushClear id, pc)
  | .opGPushClear => throw "Unknown opcode!"
  | .opGetProp => return (.getProp, pc)
  | .opPushGetProp => return (.pushGetProp, pc)
  | .opPutProp => return (.putProp, pc)
  | .opFork => do
    let index ← readBytes bc.vector bc.numbytesFork pc
    return (.fork index none, pc + bc.numbytesFork)
  | .opForkWithId => do
    let index ← readBytes bc.vector bc.numbytesFork pc
    let id ← readVarName bc (pc + bc.numbytesFork)
    return (.fork index (some id), pc + bc.numbytesFork + bc.numbytesVarName)
  | .opCallVerb => return (.callVerb, pc)
  | .opBiFuncCall => do
    let id ← readByte bc.vector pc
    return (.biFuncCall id, pc + 1)
  | .opReturn => return (.ret, pc)
  | .opReturn0 | .opDone => return (.ret0, pc)
  | .opExtended => do
    let b ← readByte bc.vector pc
    match ExtOpcode.ofCode b with
    | some eop => decodeExt bc eop (pc + 1)
    | none => throw "Unknown extended opcode!"

/-- The instruction at `pc`, and the place behind it. -/
def decode (pc : Nat) : Except String (Instr × Nat) := do
  let b ← readByte bc.vector pc
  match Opcode.ofCode r b with
  | some op => decodeOp r bc op (pc + 1)
  | none => throw "Unknown opcode!"

/-- `COUNT_TICK`, which the loop checks, and `COUNT_EOP_TICK`, which it only counts. -/
def countsTick (pc : Nat) : Except String Bool := do
  let b ← readByte bc.vector pc
  return b ≤ Opcode.opGPut.code r

def countsEopTick (pc : Nat) : Except String Bool := do
  let b ← readByte bc.vector pc
  if b ≠ Opcode.opExtended.code r then return false
  let e ← readByte bc.vector (pc + 1)
  return ExtOpcode.eopCatch.code ≤ e

end

end LambdaMOO
