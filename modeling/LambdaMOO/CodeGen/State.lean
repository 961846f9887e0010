import LambdaMOO.Opcode
import Mathlib.Tactic.Simps.Basic

/-!
# The state of the code generator

`struct state` and `struct gstate` of `code_gen.c` with the operations on them. A
placeholder byte and the fixup recorded for it are one cell here, so `bytes`, `fixups`,
`pushmap` and `trymap` are a single list of cells. Fixups chained through `next` stand for
one label: a chain is a number into `labels`, and `define_label` on the chain fills that
entry in.
-/

namespace LambdaMOO

/-- A vector of code with the widths of its operands. The last two fields are not in the
source: for every byte, the `cur_stack` of the generator when it emitted the byte, and by
how much that differs from the depth of the run-time stack there. -/
structure Bytecodes where
  numbytesLabel : Nat
  numbytesLiteral : Nat
  numbytesFork : Nat
  numbytesVarName : Nat
  numbytesStack : Nat
  vector : List Nat
  size : Nat
  maxStack : Nat
  depths : List Nat
  skews : List Int
  deriving DecidableEq, Repr

/-- What `prev_literals`, `prev_forks`, … count: the fixups emitted so far. -/
structure Counts where
  literals : Nat
  forks : Nat
  varRefs : Nat
  labels : Nat
  stackRefs : Nat
  deriving DecidableEq, Repr

namespace Counts

def zero : Counts := ⟨0, 0, 0, 0, 0⟩

def add (c d : Counts) : Counts :=
  ⟨c.literals + d.literals, c.forks + d.forks, c.varRefs + d.varRefs, c.labels + d.labels,
    c.stackRefs + d.stackRefs⟩

@[simp] lemma add_zero (c : Counts) : c.add zero = c := rfl

lemma add_assoc (c d e : Counts) : (c.add d).add e = c.add (d.add e) := by
  simp [add, Nat.add_assoc]

end Counts

/-- The place a label stands for. -/
structure LabelValue where
  value : Nat
  prev : Counts
  deriving DecidableEq, Repr

/-- A fixup: `label` waits for `define_label`, `known` was copied from a captured label. -/
inductive Fixup where
  | literal (i : Nat)
  | fork (i : Nat)
  | varRef (slot : Nat)
  | stack (i : Nat)
  | label (id : Nat)
  | known (v : LabelValue)
  deriving DecidableEq, Repr

/-- `num_literals++` and so on. `add_stack_ref` counts nothing. -/
def Fixup.counts : Fixup → Counts
  | .literal _ => { Counts.zero with literals := 1 }
  | .fork _ => { Counts.zero with forks := 1 }
  | .varRef _ => { Counts.zero with varRefs := 1 }
  | .stack _ => Counts.zero
  | .label _ | .known _ => { Counts.zero with labels := 1 }

/-- The values of `pushmap`. -/
inductive PushMap where
  | none | push | put | done | callVerb
  deriving DecidableEq, Repr

inductive Content where
  | op (op : Opcode)
  | eop (op : ExtOpcode)
  | byte (b : Nat)
  | fixup (f : Fixup)
  deriving DecidableEq, Repr

def Content.counts : Content → Counts
  | .fixup f => f.counts
  | _ => Counts.zero

structure Cell where
  content : Content
  pushmap : PushMap
  trymap : Nat
  depth : Nat
  skew : Int
  deriving DecidableEq, Repr

structure Loop where
  slot : Option Nat
  topLabel : LabelValue
  topStack : Nat
  bottomLabel : Nat
  bottomStack : Nat
  deriving DecidableEq, Repr

structure GState where
  totalVarRefs : Nat
  literals : List Literal
  forkVectors : List Bytecodes
  deriving DecidableEq, Repr

/-- `UINT_MAX` in `saved_stack` is `none`; `loops` has the innermost loop first. -/
structure State where
  maxLiteral : Nat
  maxFork : Nat
  maxVarRef : Nat
  counts : Counts
  cells : List Cell
  labels : List (Option LabelValue)
  tryDepth : Nat
  curStack : Nat
  maxStack : Nat
  savedStack : Option Nat
  loops : List Loop
  gstate : GState

def initGState : GState := ⟨0, [], []⟩

namespace State

def init (g : GState) : State where
  maxLiteral := 0
  maxFork := 0
  maxVarRef := 0
  counts := Counts.zero
  cells := []
  labels := []
  tryDepth := 0
  curStack := 0
  maxStack := 0
  savedStack := none
  loops := []
  gstate := g

/-! ### Emission -/

@[simps]
def emitCell (content : Content) (pushmap : PushMap) (skew : Int) (s : State) : State :=
  { s with
    counts := s.counts.add content.counts
    cells := s.cells ++ [⟨content, pushmap, s.tryDepth, s.curStack, skew⟩] }

def emitOp (op : Opcode) (s : State) : State := s.emitCell (.op op) .none 0

def emitByte (b : Nat) (s : State) : State := s.emitCell (.byte b) .none 0

def emitExtended (op : ExtOpcode) (s : State) : State :=
  (s.emitOp .opExtended).emitCell (.eop op) .none 0

def addFixup (f : Fixup) (s : State) : State := s.emitCell (.fixup f) .none 0

def emitCallVerbOp (op : Opcode) (s : State) : State := s.emitCell (.op op) .callVerb 0

def emitEndingOp (op : Opcode) (s : State) : State := s.emitCell (.op op) .done 0

/-- An opcode emitted without `push_stack`/`pop_stack` for the instruction just before it,
so that `cur_stack` is off by `skew`. -/
def emitSkewed (op : Opcode) (skew : Int) (s : State) : State := s.emitCell (.op op) .none skew

/-! ### Operands -/

/-- The index `add_literal` finds or allocates. -/
def literalIndex (v : Literal) (lits : List Literal) : Nat :=
  lits.findIdx v.equality

@[simps]
def addLiteral (v : Literal) (s : State) : State :=
  let i := literalIndex v s.gstate.literals
  let lits := if i = s.gstate.literals.length then s.gstate.literals ++ [v]
    else s.gstate.literals
  { s.addFixup (.literal i) with
    gstate := { s.gstate with literals := lits }
    maxLiteral := max s.maxLiteral i }

@[simps]
def addFork (b : Bytecodes) (s : State) : State :=
  let i := s.gstate.forkVectors.length
  { s.addFixup (.fork i) with
    gstate := { s.gstate with forkVectors := s.gstate.forkVectors ++ [b] }
    maxFork := max s.maxFork i }

@[simps]
def addVarRef (slot : Nat) (s : State) : State :=
  { s.addFixup (.varRef slot) with
    gstate := { s.gstate with totalVarRefs := s.gstate.totalVarRefs + 1 }
    maxVarRef := max s.maxVarRef slot }

def addStackRef (i : Nat) (s : State) : State := s.addFixup (.stack i)

/-! ### Labels -/

/-- A label that is not yet placed, `add_label` without its fixup. -/
@[simps]
def newLabel (s : State) : State := { s with labels := s.labels ++ [none] }

/-- `add_label`; the label is the number of labels before it. -/
def addLabel (s : State) : State := (s.addFixup (.label s.labels.length)).newLabel

/-- `add_linked_label`: one more reference to a label, or the first one. -/
def addLinkedLabel (next : Option Nat) (s : State) : Nat × State :=
  match next with
  | some id => (id, s.addFixup (.label id))
  | none => (s.labels.length, s.addLabel)

def addPseudoLabel (value : Nat) (s : State) : State :=
  s.addFixup (.known ⟨value, Counts.zero⟩)

def addKnownLabel (v : LabelValue) (s : State) : State := s.addFixup (.known v)

/-- `capture_label`. -/
def captureLabel (s : State) : LabelValue := ⟨s.cells.length, s.counts⟩

/-- `define_label` on one chain. -/
@[simps]
def defineLabel (id : Nat) (s : State) : State :=
  { s with labels := s.labels.set id (some s.captureLabel) }

/-! ### The static stack, try regions and loops -/

@[simps]
def pushStack (n : Nat) (s : State) : State :=
  { s with curStack := s.curStack + n, maxStack := max s.maxStack (s.curStack + n) }

@[simps]
def popStack (n : Nat) (s : State) : State := { s with curStack := s.curStack - n }

/-- `save_stack_top`; the caller keeps the old value itself. -/
@[simps]
def saveStackTop (s : State) : State := { s with savedStack := some (s.curStack - 1) }

@[simps]
def restoreStackTop (old : Option Nat) (s : State) : State := { s with savedStack := old }

@[simps]
def incrTryDepth (s : State) : State := { s with tryDepth := s.tryDepth + 1 }

@[simps]
def decrTryDepth (s : State) : State := { s with tryDepth := s.tryDepth - 1 }

@[simps]
def enterLoop (slot : Option Nat) (top : LabelValue) (topStack bottom bottomStack : Nat)
    (s : State) : State :=
  { s with loops := ⟨slot, top, topStack, bottom, bottomStack⟩ :: s.loops }

@[simps]
def exitLoop (s : State) : State := { s with loops := s.loops.tail }

/-- `emit_var_op` for `OP_PUT`. -/
def emitPut (slot : Nat) (s : State) : State :=
  if slot ≥ numReadyVars then (s.emitOp .opGPut).addVarRef slot
  else s.emitCell (.op (.opPut slot)) .put 0

/-- `emit_var_op` for `OP_PUSH`. -/
def emitPush (slot : Nat) (s : State) : State :=
  if slot ≥ numReadyVars then (s.emitOp .opGPush).addVarRef slot
  else s.emitCell (.op (.opPush slot)) .push 0

end State

end LambdaMOO
