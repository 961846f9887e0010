import LambdaMOO.CodeGen.Frame
import Mathlib.Data.Set.Basic

/-!
# What a tree leaves in a vector

The operands that the generator takes from the tree or from its static stack, in the order
in which it emits them, and how high the static stack gets: both as functions of the tree.
`Lays` says that a piece of code has been laid down with such a trace. Unlike `Grows` it
asks nothing of the sizes in the tree.
-/

namespace LambdaMOO

/-! ### Operands -/

/-- A raw byte, a variable slot or a height of the stack. -/
inductive Operand where
  | byte (b : Nat)
  | var (slot : Nat)
  | stack (i : Nat)
  deriving DecidableEq, Repr

def Content.operand : Content → Option Operand
  | .byte b => some (.byte b)
  | .fixup (.varRef slot) => some (.var slot)
  | .fixup (.stack i) => some (.stack i)
  | _ => none

def State.operands (s : State) : List Operand := s.cells.filterMap fun c => c.content.operand

/-- The highest variable slot among operands, `max_var_ref`. -/
def maxSlot : List Operand → Nat
  | [] => 0
  | .var slot :: ops => max slot (maxSlot ops)
  | _ :: ops => maxSlot ops

def numRefs : List Operand → Nat
  | [] => 0
  | .var _ :: ops => numRefs ops + 1
  | _ :: ops => numRefs ops

lemma maxSlot_append (ops ops' : List Operand) :
    maxSlot (ops ++ ops') = max (maxSlot ops) (maxSlot ops') := by
  induction ops with
  | nil => simp [maxSlot]
  | cons o ops ih =>
    cases o <;> simp only [List.cons_append, maxSlot, ih]
    omega

lemma le_maxSlot {slot : Nat} {ops : List Operand} (h : .var slot ∈ ops) : slot ≤ maxSlot ops := by
  induction ops with
  | nil => simp at h
  | cons o ops ih =>
    rcases List.mem_cons.mp h with rfl | h
    · exact Nat.le_max_left _ _
    · have := ih h
      cases o <;> simp only [maxSlot] <;> omega

/-- The body of a fork and the number of variable references generated up to its end. -/
structure Body where
  code : StmtList
  refs : Nat
  deriving DecidableEq, Repr

def Body.shift (n : Nat) (b : Body) : Body := { b with refs := n + b.refs }

/-- The operands of a piece of code, the highest level of the static stack that it asks for,
and the variable references and forks in it, those inside of forks included. -/
structure Trace where
  operands : List Operand
  top : Nat
  refs : Nat
  bodies : List Body

namespace Trace

/-- Code without operands that pushes nothing. -/
def empty : Trace := ⟨[], 0, 0, []⟩

/-- Code that pushes up to a level. -/
def push (top : Nat) : Trace := ⟨[], top, 0, []⟩

def op (o : Operand) : Trace := ⟨[o], 0, numRefs [o], []⟩

def append (a b : Trace) : Trace :=
  ⟨a.operands ++ b.operands, max a.top b.top, a.refs + b.refs,
    a.bodies ++ b.bodies.map (Body.shift a.refs)⟩

instance : Append Trace := ⟨append⟩

variable (a b c : Trace)

@[simp] lemma append_operands : (a ++ b).operands = a.operands ++ b.operands := rfl

@[simp] lemma append_top : (a ++ b).top = max a.top b.top := rfl

@[simp] lemma append_refs : (a ++ b).refs = a.refs + b.refs := rfl

@[simp] lemma append_bodies :
    (a ++ b).bodies = a.bodies ++ b.bodies.map (Body.shift a.refs) := rfl

lemma ext {a b : Trace} (ho : a.operands = b.operands) (ht : a.top = b.top) (hr : a.refs = b.refs)
    (hb : a.bodies = b.bodies) : a = b := by
  cases a
  cases b
  simp_all

@[simp] lemma append_empty : a ++ empty = a :=
  ext (List.append_nil _) (Nat.max_zero _) rfl (List.append_nil _)

@[simp] lemma empty_append : empty ++ a = a := by
  have hshift : (Body.shift 0) = id := by
    funext b
    simp [Body.shift]
  refine ext rfl (Nat.zero_max _) (Nat.zero_add _) ?_
  change [] ++ a.bodies.map (Body.shift 0) = a.bodies
  rw [hshift, List.map_id, List.nil_append]

lemma append_assoc : a ++ b ++ c = a ++ (b ++ c) := by
  have hshift : ∀ m n, (Body.shift (m + n)) = Body.shift m ∘ Body.shift n := by
    intro m n
    funext b
    simp [Body.shift, Nat.add_assoc]
  refine ext (List.append_assoc _ _ _) (Nat.max_assoc _ _ _) (Nat.add_assoc _ _ _) ?_
  simp [hshift]

lemma push_append_push {m n : Nat} (h : m ≤ n) : push m ++ push n = push n :=
  ext rfl (Nat.max_eq_right h) rfl rfl

end Trace

/-- `emit_var_op`: the first `NUM_READY_VARS` slots are in the opcode. -/
def slotTrace (slot : Nat) : Trace := if slot ≥ numReadyVars then .op (.var slot) else .empty

def optionTrace (slot : Option Nat) : Trace := (slot.map fun n => Trace.op (.var n)).getD .empty

/-! ### Expressions

`d` is `cur_stack` in front of the code and `saved` is `saved_stack`. -/

/-- The variable that `storeLvalue` ends with. -/
def Expr.storeTrace : Expr → Trace
  | .range base _ _ => base.storeTrace
  | .index lhs _ => lhs.storeTrace
  | .id slot => slotTrace slot
  | _ => .empty

/-- The three counts and the variables of `EOP_SCATTER`. -/
def Scatter.countsTrace (targets : Scatter) : Trace :=
  .op (.byte targets.length) ++ .op (.byte targets.numRequired)
    ++ .op (.byte ((targets.restPosition 0).getD (targets.length + 1)))

def Scatter.slotsTrace : Scatter → Trace
  | .nil => .empty
  | .required slot next | .optional slot _ next | .rest slot next =>
    .op (.var slot) ++ next.slotsTrace

mutual
def Expr.trace (saved : Option Nat) (d : Nat) : Expr → Trace
  | .var _ => .push (d + 1)
  | .id slot => slotTrace slot ++ .push (d + 1)
  | .logical _ lhs rhs => lhs.trace saved d ++ rhs.trace saved d
  | .unary _ e => e.trace saved d
  | .binary _ lhs rhs | .prop lhs rhs => lhs.trace saved d ++ rhs.trace saved (d + 1)
  | .index lhs rhs => lhs.trace saved d ++ rhs.trace (some d) (d + 1)
  | .range base lo hi =>
    base.trace saved d ++ lo.trace (some d) (d + 1) ++ hi.trace (some d) (d + 2)
  | .length => .op (.stack (saved.getD 0)) ++ .push (d + 1)
  | .list args => args.trace saved d
  | .call func args => args.trace saved d ++ .op (.byte func)
  | .verb obj verb args =>
    obj.trace saved d ++ verb.trace saved (d + 1) ++ args.trace saved (d + 2)
  | .cond c a b => c.trace saved d ++ a.trace saved d ++ b.trace saved d
  | .asgn lhs rhs =>
    match lhs with
    | .scatter targets =>
      rhs.trace saved d ++ targets.countsTrace ++ targets.slotsTrace ++ targets.trace saved (d + 1)
    | lhs => lhs.pushTrace saved d false ++ rhs.trace saved (d + lhs.lvalueDepth) ++ lhs.storeTrace
  | .catchExpr e codes dflt =>
    codes.trace saved d ++ .push (d + 3) ++ e.trace saved (d + 3) ++ dflt.trace saved d
  | .scatter _ => .empty

/-- `pushLvalue`. -/
def Expr.pushTrace (saved : Option Nat) (d : Nat) (indexedAbove : Bool) : Expr → Trace
  | .range base lo hi =>
    base.pushTrace saved d true ++ lo.trace (some (d + base.lvalueDepth)) (d + base.lvalueDepth + 1)
      ++ hi.trace (some (d + base.lvalueDepth)) (d + base.lvalueDepth + 2)
  | .index lhs rhs =>
    lhs.pushTrace saved d true ++ rhs.trace (some (d + lhs.lvalueDepth)) (d + lhs.lvalueDepth + 1)
      ++ if indexedAbove then .push (d + lhs.lvalueDepth + 3) else .empty
  | .id slot => if indexedAbove then slotTrace slot ++ .push (d + 1) else .empty
  | .prop lhs rhs =>
    lhs.trace saved d ++ rhs.trace saved (d + 1) ++ if indexedAbove then .push (d + 3) else .empty
  | _ => .empty

def ArgList.trace (saved : Option Nat) (d : Nat) : ArgList → Trace
  | .nil => .push (d + 1)
  | .cons _ e next => e.trace saved d ++ next.moreTrace saved (d + 1)

/-- The second and later arguments, which find the list of the earlier ones on the stack. -/
def ArgList.moreTrace (saved : Option Nat) (d : Nat) : ArgList → Trace
  | .nil => .empty
  | .cons _ e next => e.trace saved d ++ next.moreTrace saved d

/-- The defaults of a scattering assignment. -/
def Scatter.trace (saved : Option Nat) (d : Nat) : Scatter → Trace
  | .nil => .empty
  | .required _ next | .rest _ next => next.trace saved d
  | .optional slot dflt next =>
    match dflt with
    | .none => next.trace saved d
    | .some e => e.trace saved d ++ slotTrace slot ++ next.trace saved d

def Default.trace (saved : Option Nat) (d : Nat) : Default → Trace
  | .none => .empty
  | .some e => e.trace saved d
end

/-! ### Statements -/

/-- What a `break` or `continue` needs to know of a loop: its name and the heights that they
unwind to. -/
structure LoopLevel where
  slot : Option Nat
  top : Nat
  bottom : Nat

/-- The codes and labels pushed in front of a try-except body. -/
def ExceptArms.codesTrace (d : Nat) : ExceptArms → Trace
  | .nil => .empty
  | .cons _ codes _ next => codes.trace none d ++ .push (d + 2) ++ next.codesTrace (d + 2)

def findLevel : Option Nat → List LoopLevel → Option LoopLevel
  | none, loops => loops.head?
  | some slot, loops => loops.find? fun l => l.slot = some slot

def exitTrace (exit : Option Nat) (height : Option Nat) : Trace :=
  optionTrace exit ++ .op (.stack (height.getD 0))

mutual
def StmtList.trace (loops : List LoopLevel) (d : Nat) : StmtList → Trace
  | .nil => .empty
  | .cons s next => s.trace loops d ++ next.trace loops d

def Stmt.trace (loops : List LoopLevel) (d : Nat) : Stmt → Trace
  | .cond arms otherwise => arms.trace loops d ++ otherwise.trace loops d
  | .list slot e body =>
    e.trace none d ++ .push (d + 2) ++ .op (.var slot)
      ++ body.trace (⟨some slot, d + 2, d⟩ :: loops) (d + 2)
  | .range slot lo hi body =>
    lo.trace none d ++ hi.trace none (d + 1) ++ .op (.var slot)
      ++ body.trace (⟨some slot, d + 2, d⟩ :: loops) (d + 2)
  | .loop slot c body => c.trace none d ++ optionTrace slot ++ body.trace (⟨slot, d, d⟩ :: loops) d
  | .fork slot time body =>
    let inner := body.trace [] 0
    time.trace none d ++ ⟨[], 0, inner.refs, inner.bodies ++ [⟨body, inner.refs⟩]⟩
      ++ optionTrace slot
  | .expr e => e.trace none d
  | .ret e =>
    match e with
    | some e => e.trace none d
    | none => .empty
  | .tryExcept body excepts =>
    excepts.codesTrace d ++ .op (.byte excepts.length) ++ .push (d + 2 * excepts.length + 1)
      ++ body.trace loops (d + 2 * excepts.length + 1) ++ excepts.trace loops d
  | .tryFinally body handler =>
    .push (d + 1) ++ body.trace loops (d + 1) ++ .push (d + 2) ++ handler.trace loops (d + 2)
  | .brk exit => exitTrace exit ((findLevel exit loops).map (·.bottom))
  | .cont exit => exitTrace exit ((findLevel exit loops).map (·.top))

def CondArms.trace (loops : List LoopLevel) (d : Nat) : CondArms → Trace
  | .nil => .empty
  | .cons c ss next => c.trace none d ++ ss.trace loops d ++ next.trace loops d

/-- The handlers. -/
def ExceptArms.trace (loops : List LoopLevel) (d : Nat) : ExceptArms → Trace
  | .nil => .empty
  | .cons slot _ ss next =>
    .push (d + 1) ++ (slot.map slotTrace).getD .empty ++ ss.trace loops d ++ next.trace loops d
end

/-! ### Consistent states -/

/-- A label stands for the cell it was captured in front of, with the counts up to there. -/
structure LabelValue.IsCaptured (cells : List Cell) (v : LabelValue) : Prop where
  le : v.value ≤ cells.length
  prev : v.prev = countCells (cells.take v.value)

lemma LabelValue.IsCaptured.mono {cells cells' : List Cell} {v : LabelValue}
    (h : v.IsCaptured cells) (hc : cells <+: cells') : v.IsCaptured cells' where
  le := Nat.le_trans h.le hc.length_le
  prev := by
    obtain ⟨tail, rfl⟩ := hc
    rw [h.prev, List.take_append_of_le_length h.le]

/-- An operand that refers to something there is. The labels 0 and 1 of a scattering
assignment refer to nothing. -/
def Content.IsConsistent (s : State) : Content → Prop
  | .fixup (.literal i) => i < s.gstate.literals.length
  | .fixup (.fork i) => i < s.gstate.forkVectors.length
  | .fixup (.stack i) => i ≤ s.maxStack
  | .fixup (.label id) => id < s.labels.length
  | .fixup (.known v) => v.IsCaptured s.cells ∨ ∃ n ≤ 1, v = ⟨n, Counts.zero⟩
  | _ => True

structure Loop.IsConsistent (s : State) (l : Loop) : Prop where
  topLabel : l.topLabel.IsCaptured s.cells
  bottomLabel : l.bottomLabel < s.labels.length
  topStack : l.topStack ≤ s.maxStack
  bottomStack : l.bottomStack ≤ s.maxStack

/-- The counters agree with the cells, and everything referred to is there. -/
structure State.IsConsistent (s : State) : Prop where
  counted : s.counts = countCells s.cells
  maxVarRef : s.maxVarRef = maxSlot s.operands
  stack : s.curStack ≤ s.maxStack
  saved : ∀ k ∈ s.savedStack, k ≤ s.maxStack
  labels : ∀ v, some v ∈ s.labels → v.IsCaptured s.cells
  loops : ∀ l ∈ s.loops, l.IsConsistent s
  cells : ∀ c ∈ s.cells, c.content.IsConsistent s
  pushmap : ∀ c ∈ s.cells, c.pushmap = .push → ∃ n, c.content = .op (.opPush n)

lemma State.isConsistent_init (g : GState) : (State.init g).IsConsistent :=
  ⟨rfl, rfl, Nat.le_refl _, by simp [init], by simp [init], by simp [init], by simp [init],
    by simp [init]⟩

/-- A later state of the same generation. -/
structure State.Precedes (s t : State) : Prop where
  cells : s.cells <+: t.cells
  literals : s.gstate.literals.length ≤ t.gstate.literals.length
  forkVectors : s.gstate.forkVectors.length ≤ t.gstate.forkVectors.length
  maxStack : s.maxStack ≤ t.maxStack
  labels : s.labels.length ≤ t.labels.length

lemma State.Precedes.of_eq {s t : State} (hc : t.cells = s.cells) (hg : t.gstate = s.gstate)
    (hm : t.maxStack = s.maxStack) (hl : t.labels.length = s.labels.length) : s.Precedes t :=
  ⟨hc ▸ List.prefix_rfl, by rw [hg], by rw [hg], by rw [hm], by rw [hl]⟩

lemma Content.IsConsistent.mono {s t : State} {c : Content} (h : c.IsConsistent s)
    (hst : s.Precedes t) : c.IsConsistent t := by
  match c with
  | .op _ | .eop _ | .byte _ | .fixup (.varRef _) => trivial
  | .fixup (.literal _) => exact Nat.lt_of_lt_of_le h hst.literals
  | .fixup (.fork _) => exact Nat.lt_of_lt_of_le h hst.forkVectors
  | .fixup (.stack _) => exact Nat.le_trans h hst.maxStack
  | .fixup (.label _) => exact Nat.lt_of_lt_of_le h hst.labels
  | .fixup (.known _) => exact h.imp_left fun hv => hv.mono hst.cells

lemma Loop.IsConsistent.mono {s t : State} {l : Loop} (h : l.IsConsistent s)
    (hst : s.Precedes t) : l.IsConsistent t :=
  ⟨h.topLabel.mono hst.cells, Nat.lt_of_lt_of_le h.bottomLabel hst.labels,
    Nat.le_trans h.topStack hst.maxStack, Nat.le_trans h.bottomStack hst.maxStack⟩

namespace State.IsConsistent

variable {s t : State}

/-- A step without a new cell; labels, loops and the stack have to be looked after. -/
lemma of_eq (h : s.IsConsistent) (hst : s.Precedes t) (hc : t.cells = s.cells)
    (hn : t.counts = s.counts) (hv : t.maxVarRef = s.maxVarRef) (hk : t.curStack ≤ t.maxStack)
    (hs : ∀ k ∈ t.savedStack, k ≤ t.maxStack)
    (hl : ∀ v, some v ∈ t.labels → some v ∈ s.labels ∨ v.IsCaptured s.cells)
    (hp : ∀ l ∈ t.loops, l ∈ s.loops ∨ l.IsConsistent t) : t.IsConsistent where
  counted := by rw [hn, hc, h.counted]
  maxVarRef := by rw [hv, h.maxVarRef, operands, operands, hc]
  stack := hk
  saved := hs
  labels v hmem := by
    rw [hc]
    rcases hl v hmem with hmem | hcap
    · exact h.labels v hmem
    · exact hcap
  loops l hmem := by
    rcases hp l hmem with hmem | hcons
    · exact (h.loops l hmem).mono hst
    · exact hcons
  cells c hmem := (h.cells c (hc ▸ hmem)).mono hst
  pushmap c hmem := h.pushmap c (hc ▸ hmem)

/-- A step that appends a cell. -/
lemma emitWith {c : Cell} (h : s.IsConsistent) (hst : s.Precedes t)
    (hc : t.cells = s.cells ++ [c]) (hn : t.counts = s.counts.add c.content.counts)
    (hv : t.maxVarRef = max s.maxVarRef (maxSlot c.content.operand.toList))
    (hk : t.curStack = s.curStack) (hs : t.savedStack = s.savedStack)
    (hl : t.labels = s.labels) (hp : t.loops = s.loops) (hcons : c.content.IsConsistent t)
    (hpush : c.pushmap = .push → ∃ n, c.content = .op (.opPush n)) : t.IsConsistent where
  counted := by rw [hn, hc, countCells_append_singleton, h.counted]
  maxVarRef := by
    have hops : t.operands = s.operands ++ c.content.operand.toList := by
      rw [operands, hc, List.filterMap_append]
      congr 1
    rw [hv, hops, maxSlot_append, h.maxVarRef]
  stack := by
    rw [hk]
    exact Nat.le_trans h.stack hst.maxStack
  saved k hmem := Nat.le_trans (h.saved k (hs ▸ hmem)) hst.maxStack
  labels v hmem := (h.labels v (hl ▸ hmem)).mono hst.cells
  loops l hmem := (h.loops l (hp ▸ hmem)).mono hst
  cells c' hmem := by
    rw [hc, List.mem_append, List.mem_singleton] at hmem
    rcases hmem with hmem | rfl
    · exact (h.cells c' hmem).mono hst
    · exact hcons
  pushmap c' hmem := by
    rw [hc, List.mem_append, List.mem_singleton] at hmem
    rcases hmem with hmem | rfl
    · exact h.pushmap c' hmem
    · exact hpush

lemma emitCell {c : Content} {p : PushMap} {k : Int} (h : s.IsConsistent) (hop : c.operand = none)
    (hcons : c.IsConsistent s) (hpush : p = .push → ∃ n, c = .op (.opPush n)) :
    (s.emitCell c p k).IsConsistent := by
  have hst : s.Precedes (s.emitCell c p k) :=
    ⟨List.prefix_append _ _, Nat.le_refl _, Nat.le_refl _, Nat.le_refl _, Nat.le_refl _⟩
  exact h.emitWith (c := ⟨c, p, s.tryDepth, s.curStack, k⟩) hst rfl rfl (by simp [hop, maxSlot]) rfl
    rfl rfl rfl (hcons.mono hst) hpush

end State.IsConsistent

/-! ### Laying down code -/

/-- `bc` is the vector that `stmt_to_code` makes of `b`, and `F` the state that
`generate_stmt` left behind. -/
structure Body.IsVector (r : Bool) (b : Body) (F : State) (bc : Bytecodes) : Prop where
  generated : ∃ g, generateStmts r b.code (State.init g) = .ok F
  finished : finishCode r F = .ok bc
  refs : F.gstate.totalVarRefs = b.refs

def Body.Compiled (r : Bool) (b : Body) (bc : Bytecodes) : Prop :=
  b.code.isBuilt [] = true ∧ ∃ F, b.IsVector r F bc

/-- The labels that are not yet placed. -/
def State.openLabels (s : State) : Nat := s.labels.count none

/-- From `s` to `t`, code with the trace `tr` has been generated that places the labels in
`P` and leaves alone the other labels of `s`, the loops and the saved stack top. -/
structure Traces (r : Bool) (P : Set Nat) (tr : Trace) (s t : State) : Prop where
  operands : t.operands = s.operands ++ tr.operands
  maxStack : t.maxStack = max s.maxStack tr.top
  refs : t.gstate.totalVarRefs = s.gstate.totalVarRefs + tr.refs
  forks : ∃ bcs, t.gstate.forkVectors = s.gstate.forkVectors ++ bcs ∧
    List.Forall₂ (Body.Compiled r) (tr.bodies.map (Body.shift s.gstate.totalVarRefs)) bcs
  cells : s.cells <+: t.cells
  literals : s.gstate.literals.length ≤ t.gstate.literals.length
  labels : ∀ (id : Nat) (v : Option LabelValue), id ∉ P →
    s.labels[id]? = some v → t.labels[id]? = some v
  labelCount : s.labels.length ≤ t.labels.length
  savedStack : t.savedStack = s.savedStack
  loops : t.loops = s.loops

/-- `Traces` that keeps states consistent. -/
structure Lays (r : Bool) (P : Set Nat) (tr : Trace) (s t : State) : Prop
    extends Traces r P tr s t where
  consistent : s.IsConsistent → t.IsConsistent

end LambdaMOO
