import LambdaMOO.CodeGen.State

/-!
# From cells to bytes

The second half of `stmt_to_code`: the widths of the operands, the pass that turns the
last `OP_PUSH` of a variable into `OP_PUSH_CLEAR`, and the copying of the cells into the
final vector with every operand at its width.
-/

namespace LambdaMOO

/-! ### Dropping references early -/

/-- The slots of `NON_VR_VAR_MASK`, those a called verb does not inherit:
everything but `player`, `argstr`, `dobj`, `dobjstr`, `prepstr`, `iobj` and `iobjstr`. -/
def nonVrVarMask (slot : Nat) : Bool := slot ∉ [5, 10, 11, 12, 13, 14, 15]

/-- `PUSH_n_INDEX` or `PUT_n_INDEX` of the cell's byte. -/
def Content.varIndex : Content → Nat
  | .op (.opPush n) | .op (.opPut n) => n
  | _ => 0

/-- A fixup that delimits basic blocks. -/
def Content.isDelimiter : Content → Bool
  | .fixup (.label _) | .fixup (.known _) | .fixup (.fork _) => true
  | _ => false

/-- `varbits` after the backward scan has gone over one more cell. The scan starts anew in
front of each delimiter. -/
def Cell.scan (c : Cell) (varbits : Nat → Bool) : Nat → Bool :=
  if c.content.isDelimiter then fun _ => false
  else match c.pushmap with
    | .push => Function.update varbits c.content.varIndex false
    | _ =>
      -- Operations inside of exception handling blocks might not execute.
      if c.trymap > 0 then varbits
      else match c.pushmap with
        | .put => Function.update varbits c.content.varIndex true
        | .done => fun _ => true
        | .callVerb => fun slot => varbits slot && nonVrVarMask slot
        | _ => varbits

/-- The cell the scan leaves behind: a push of a variable that is not read again becomes
a clearing push. -/
def Cell.reduce (c : Cell) (varbits : Nat → Bool) : Cell :=
  match c.pushmap with
  | .push =>
    if varbits c.content.varIndex then
      { c with content := .op (.opPushClear c.content.varIndex) }
    else c
  | _ => c

/-- `varbits` in front of a list of cells. -/
def varbits : List Cell → Nat → Bool
  | [] => fun _ => false
  | c :: cs => c.scan (varbits cs)

/-- The pass over the whole vector, from the end to the front. -/
def reduceRefs : List Cell → List Cell
  | [] => []
  | c :: cs => c.reduce (varbits cs) :: reduceRefs cs

/-! ### Widths -/

/-- `ref_size`. -/
def refSize (rmax : Nat) : Nat :=
  if rmax ≤ 256 then 1 else if rmax ≤ 256 * 256 then 2 else 4

/-- `bc.size` before the labels are widened. -/
def State.baseSize (s : State) : Nat :=
  s.cells.length
    + (refSize (max s.maxLiteral s.gstate.literals.length) - 1) * s.counts.literals
    + (refSize (max s.maxFork s.gstate.forkVectors.length) - 1) * s.counts.forks
    + (refSize (max s.maxVarRef s.gstate.totalVarRefs) - 1) * s.counts.varRefs

def State.labelSize (s : State) : Nat :=
  if s.baseSize ≤ 256 then 1
  else if s.baseSize + s.counts.labels ≤ 256 * 256 then 2
  else 4

/-- The operand widths of a vector. -/
structure Widths where
  label : Nat
  literal : Nat
  fork : Nat
  varName : Nat
  stack : Nat
  deriving DecidableEq, Repr

def State.widths (s : State) : Widths where
  label := s.labelSize
  literal := refSize (max s.maxLiteral s.gstate.literals.length)
  fork := refSize (max s.maxFork s.gstate.forkVectors.length)
  varName := refSize (max s.maxVarRef s.gstate.totalVarRefs)
  stack := refSize s.maxStack

def Bytecodes.widths (bc : Bytecodes) : Widths where
  label := bc.numbytesLabel
  literal := bc.numbytesLiteral
  fork := bc.numbytesFork
  varName := bc.numbytesVarName
  stack := bc.numbytesStack

/-! ### Emission -/

/-- The bytes of an operand. An `unsigned` has no bits above the top byte of a four-byte
operand, so that byte is not reduced. -/
def operandBytes (size value : Nat) : List Nat :=
  match size with
  | 4 => [value / 2 ^ 24, value / 2 ^ 16 % 256, value / 2 ^ 8 % 256, value % 256]
  | 2 => [value / 2 ^ 8 % 256, value % 256]
  | _ => [value % 256]

/-- The final offset of a label. -/
def LabelValue.resolve (w : Widths) (v : LabelValue) : Nat :=
  v.value + v.prev.literals * (w.literal - 1) + v.prev.forks * (w.fork - 1)
    + v.prev.varRefs * (w.varName - 1) + v.prev.labels * (w.label - 1)
    + v.prev.stackRefs * (w.stack - 1)

/-- The place of a label, once it is defined. -/
def labelValue (labels : List (Option LabelValue)) (id : Nat) : LabelValue :=
  (labels[id]?.join).getD ⟨0, Counts.zero⟩

def Fixup.bytes (w : Widths) (labels : List (Option LabelValue)) : Fixup → List Nat
  | .literal i => operandBytes w.literal i
  | .fork i => operandBytes w.fork i
  | .varRef slot => operandBytes w.varName slot
  | .stack i => operandBytes w.stack i
  | .label id => operandBytes w.label ((labelValue labels id).resolve w)
  | .known v => operandBytes w.label (v.resolve w)

def Content.bytes (r : Bool) (w : Widths) (labels : List (Option LabelValue)) :
    Content → List Nat
  | .op o => [o.code r]
  | .eop o => [o.code]
  | .byte b => [b % 256]
  | .fixup f => f.bytes w labels

/-- The cells that are copied: with `BYTECODE_REDUCE_REF`, those the pass leaves behind. -/
def State.finalCells (r : Bool) (s : State) : List Cell :=
  if r then reduceRefs s.cells else s.cells

/-- The code vector of a finished state. -/
def link (r : Bool) (s : State) : Except String Bytecodes :=
  if s.curStack ≠ 0 then .error "Stack not entirely popped in STMT_TO_CODE()"
  else if s.savedStack ≠ none then .error "Still a saved stack index in STMT_TO_CODE()"
  else
    let w := s.widths
    let emit (c : Cell) := c.content.bytes r w s.labels
    let cells := s.finalCells r
    .ok
      { numbytesLabel := w.label
        numbytesLiteral := w.literal
        numbytesFork := w.fork
        numbytesVarName := w.varName
        numbytesStack := w.stack
        vector := cells.flatMap emit
        size := s.baseSize + (w.label - 1) * s.counts.labels
        maxStack := s.maxStack
        depths := cells.flatMap fun c => List.replicate (emit c).length c.depth
        skews := cells.flatMap fun c => List.replicate (emit c).length c.skew }

/-! ### Reading -/

def readByte (v : List Nat) (ptr : Nat) : Except String Nat :=
  match v[ptr]? with
  | some b => .ok b
  | none => .error "read past the end of the vector"

/-- `READ_BYTES`. -/
def readBytes (v : List Nat) (n ptr : Nat) : Except String Nat :=
  if n = 1 then readByte v ptr
  else if n = 2 then do
    let a ← readByte v ptr
    let b ← readByte v (ptr + 1)
    return a * 2 ^ 8 + b
  else do
    let a ← readByte v ptr
    let b ← readByte v (ptr + 1)
    let c ← readByte v (ptr + 2)
    let d ← readByte v (ptr + 3)
    return a * 2 ^ 24 + b * 2 ^ 16 + c * 2 ^ 8 + d

end LambdaMOO
