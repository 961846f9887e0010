import LambdaMOO.Ast

/-!
# Opcodes

The enumerations of `opcode.h` with their numbers. `BYTECODE_REDUCE_REF` inserts the
`OP_PUSH_CLEAR` family in the middle of the enumeration and so moves every later opcode,
`OPTIM_NUM_START` included; the build option is the parameter `reduceRef` below.
-/

namespace LambdaMOO

def numReadyVars : Nat := 32

/-- `enum Opcode`; the `n`-indexed families and the optimized integers carry their index. -/
inductive Opcode where
  | opIf | opWhile | opEif | opFork | opForkWithId | opForList | opForRange
  | opIndexset | opPushGetProp | opGetProp | opCallVerb | opPutProp | opBiFuncCall
  | opIfQues | opRef | opRangeRef | opMakeSingletonList | opCheckListForSplice
  | opMult | opDiv | opMod | opAdd | opMinus
  | opEq | opNe | opLt | opLe | opGt | opGe | opIn | opAnd | opOr
  | opUnaryMinus | opNot
  | opPut (n : Nat) | opGPut | opPush (n : Nat) | opGPush
  | opPushClear (n : Nat) | opGPushClear
  | opImm | opMakeEmptyList | opListAddTail | opListAppend | opPushRef
  | opPutTemp | opPushTemp | opJump | opReturn | opReturn0 | opDone | opPop
  | opExtended
  | optimNum (i : Int)
  deriving DecidableEq, Repr

/-- `enum Extended_Opcode`. -/
inductive ExtOpcode where
  | eopRangeset | eopLength | eopPushLabel | eopEndCatch | eopEndExcept | eopEndFinally
  | eopContinue | eopCatch | eopTryExcept | eopTryFinally | eopWhileId | eopExit | eopExitId
  | eopScatter | eopExp | eopBitand | eopBitxor | eopBitor | eopShl | eopShr | eopLshr
  | eopComplement
  deriving DecidableEq, Repr

namespace Opcode

/-- The opcodes from `OP_IF` to `OP_NOT`, in order. -/
def lowOps : List Opcode :=
  [opIf, opWhile, opEif, opFork, opForkWithId, opForList, opForRange,
   opIndexset, opPushGetProp, opGetProp, opCallVerb, opPutProp, opBiFuncCall,
   opIfQues, opRef, opRangeRef, opMakeSingletonList, opCheckListForSplice,
   opMult, opDiv, opMod, opAdd, opMinus,
   opEq, opNe, opLt, opLe, opGt, opGe, opIn, opAnd, opOr, opUnaryMinus, opNot]

/-- The opcodes from `OP_IMM` to `OP_EXTENDED`, in order. -/
def highOps : List Opcode :=
  [opImm, opMakeEmptyList, opListAddTail, opListAppend, opPushRef, opPutTemp, opPushTemp,
   opJump, opReturn, opReturn0, opDone, opPop, opExtended]

/-- `OP_PUT`, `OP_PUSH` and `OP_PUSH_CLEAR`. -/
def putStart : Nat := 34
def pushStart : Nat := 67
def pushClearStart : Nat := 100

/-- `OP_IMM`. -/
def immStart (reduceRef : Bool) : Nat := if reduceRef then 133 else 100

/-- `OPTIM_NUM_START`. -/
def optimNumStart (reduceRef : Bool) : Nat := immStart reduceRef + 13

def optimNumLow : Int := -10

/-- `OPTIM_NUM_HI`. -/
def optimNumHi (reduceRef : Bool) : Int := 255 - optimNumStart reduceRef + optimNumLow

/-- `IN_OPTIM_NUM_RANGE`. -/
def inOptimNumRange (reduceRef : Bool) (i : Int) : Bool :=
  optimNumLow ≤ i && i ≤ optimNumHi reduceRef

/-- The number of an opcode. -/
def code (reduceRef : Bool) : Opcode → Nat
  | opPut n => putStart + n
  | opGPut => putStart + numReadyVars
  | opPush n => pushStart + n
  | opGPush => pushStart + numReadyVars
  | opPushClear n => pushClearStart + n
  | opGPushClear => pushClearStart + numReadyVars
  | optimNum i => (optimNumStart reduceRef + (i - optimNumLow)).toNat
  | op =>
    if op ∈ lowOps then lowOps.idxOf op else immStart reduceRef + highOps.idxOf op

/-- The opcode with a given number: the tests `IS_PUSH_n` and so on, then the `switch`. -/
def ofCode (reduceRef : Bool) (b : Nat) : Option Opcode :=
  if b < putStart then lowOps[b]?
  else if b < putStart + numReadyVars then some (opPut (b - putStart))
  else if b = putStart + numReadyVars then some opGPut
  else if b < pushStart + numReadyVars then some (opPush (b - pushStart))
  else if b = pushStart + numReadyVars then some opGPush
  else if b < immStart reduceRef then
    if b < pushClearStart + numReadyVars then some (opPushClear (b - pushClearStart))
    else some opGPushClear
  else if b < optimNumStart reduceRef then highOps[b - immStart reduceRef]?
  else if b ≤ 255 then some (optimNum (b - optimNumStart reduceRef + optimNumLow))
  else none

/-- The opcodes the generator may emit: indices below `NUM_READY_VARS`, integers in the
optimized range, and the `OP_PUSH_CLEAR` family only where it exists. -/
def IsValid (reduceRef : Bool) : Opcode → Prop
  | opPut n | opPush n => n < numReadyVars
  | opPushClear n => reduceRef = true ∧ n < numReadyVars
  | opGPushClear => reduceRef = true
  | optimNum i => inOptimNumRange reduceRef i = true
  | _ => True

instance (reduceRef : Bool) (op : Opcode) : Decidable (op.IsValid reduceRef) := by
  cases op <;> unfold IsValid <;> infer_instance

lemma ofCode_code {r : Bool} {op : Opcode} (h : op.IsValid r) :
    ofCode r (op.code r) = some op := by
  cases op with
  | opPut n =>
    simp only [IsValid, numReadyVars] at h
    have h₁ : ¬ 34 + n < 34 := by omega
    have h₂ : 34 + n < 66 := by omega
    simp [code, ofCode, putStart, numReadyVars, h₁, h₂]
  | opPush n =>
    simp only [IsValid, numReadyVars] at h
    have h₁ : ¬ 67 + n < 34 := by omega
    have h₂ : ¬ 67 + n < 66 := by omega
    have h₃ : ¬ 67 + n = 66 := by omega
    have h₄ : 67 + n < 99 := by omega
    simp [code, ofCode, putStart, pushStart, numReadyVars, h₁, h₂, h₃, h₄]
  | opPushClear n =>
    simp only [IsValid, numReadyVars] at h
    obtain ⟨rfl, h⟩ := h
    have h₁ : ¬ 100 + n < 34 := by omega
    have h₂ : ¬ 100 + n < 66 := by omega
    have h₃ : ¬ 100 + n = 66 := by omega
    have h₄ : ¬ 100 + n < 99 := by omega
    have h₅ : ¬ 100 + n = 99 := by omega
    have h₆ : 100 + n < 133 := by omega
    have h₇ : 100 + n < 132 := by omega
    simp [code, ofCode, putStart, pushStart, pushClearStart, immStart, numReadyVars,
      h₁, h₂, h₃, h₄, h₅, h₆, h₇]
  | optimNum i =>
    have hrange : inOptimNumRange r i = true := h
    unfold inOptimNumRange optimNumHi optimNumStart optimNumLow at hrange
    rw [Bool.and_eq_true, decide_eq_true_eq, decide_eq_true_eq] at hrange
    obtain ⟨hlo, hhi⟩ := hrange
    have hb : ∃ k : Nat, i = k - 10 ∧ immStart r + 13 + k ≤ 255 :=
      ⟨(i + 10).toNat, by omega, by omega⟩
    obtain ⟨k, rfl, hk⟩ := hb
    have hc : code r (optimNum ((k : Int) - 10)) = immStart r + 13 + k := by
      simp only [code, optimNumStart, optimNumLow]
      omega
    have hr : 100 ≤ immStart r := by
      cases r <;> decide
    have h₁ : ¬ immStart r + 13 + k < 34 := by omega
    have h₂ : ¬ immStart r + 13 + k < 66 := by omega
    have h₃ : ¬ immStart r + 13 + k = 66 := by omega
    have h₄ : ¬ immStart r + 13 + k < 99 := by omega
    have h₅ : ¬ immStart r + 13 + k = 99 := by omega
    have h₆ : ¬ immStart r + 13 + k < immStart r := by omega
    have h₇ : ¬ immStart r + 13 + k < immStart r + 13 := by omega
    rw [hc]
    simp only [ofCode, putStart, pushStart, optimNumStart, optimNumLow, numReadyVars,
      h₁, h₂, h₃, h₄, h₅, h₆, h₇, if_false, hk, if_true]
    congr 2
    omega
  | opGPushClear =>
    simp only [IsValid] at h
    subst h
    decide
  | _ => cases r <;> decide

end Opcode

namespace ExtOpcode

/-- The extended opcodes in order. -/
def all : List ExtOpcode :=
  [eopRangeset, eopLength, eopPushLabel, eopEndCatch, eopEndExcept, eopEndFinally,
   eopContinue, eopCatch, eopTryExcept, eopTryFinally, eopWhileId, eopExit, eopExitId,
   eopScatter, eopExp, eopBitand, eopBitxor, eopBitor, eopShl, eopShr, eopLshr,
   eopComplement]

def code (e : ExtOpcode) : Nat := all.idxOf e

def ofCode (b : Nat) : Option ExtOpcode := all[b]?

@[simp] lemma ofCode_code (e : ExtOpcode) : ofCode e.code = some e := by
  cases e <;> decide

end ExtOpcode

/-! ### Operators and their opcodes -/

/-- The opcode of a strict binary operator: a plain one or an extended one. -/
def BinOp.opcode : BinOp → Opcode ⊕ ExtOpcode
  | .plus => .inl .opAdd
  | .minus => .inl .opMinus
  | .times => .inl .opMult
  | .divide => .inl .opDiv
  | .mod => .inl .opMod
  | .eq => .inl .opEq
  | .ne => .inl .opNe
  | .lt => .inl .opLt
  | .le => .inl .opLe
  | .gt => .inl .opGt
  | .ge => .inl .opGe
  | .isIn => .inl .opIn
  | .exp => .inr .eopExp
  | .bitand => .inr .eopBitand
  | .bitxor => .inr .eopBitxor
  | .bitor => .inr .eopBitor
  | .shl => .inr .eopShl
  | .shr => .inr .eopShr
  | .lshr => .inr .eopLshr

/-- The operator a plain opcode stands for in `decompile`. -/
def BinOp.ofOpcode : Opcode → Option BinOp
  | .opAdd => some .plus
  | .opMinus => some .minus
  | .opMult => some .times
  | .opDiv => some .divide
  | .opMod => some .mod
  | .opEq => some .eq
  | .opNe => some .ne
  | .opLt => some .lt
  | .opLe => some .le
  | .opGt => some .gt
  | .opGe => some .ge
  | .opIn => some .isIn
  | _ => none

/-- The operator an extended opcode stands for in `decompile`. -/
def BinOp.ofExtOpcode : ExtOpcode → Option BinOp
  | .eopExp => some .exp
  | .eopBitand => some .bitand
  | .eopBitxor => some .bitxor
  | .eopBitor => some .bitor
  | .eopShl => some .shl
  | .eopShr => some .shr
  | .eopLshr => some .lshr
  | _ => none

def LogOp.opcode : LogOp → Opcode
  | .and => .opAnd
  | .or => .opOr

end LambdaMOO
