import LambdaMOO.CodeGen.Program

/-!
# Growth

The generator only ever appends: `Grows r s t` says that `t` is a later state of the same
generation as `s`, with every label that `s` had placed still at its place. A state is
sound if its counters agree with its cells and every cell fits into its bytes; growth
keeps that.
-/

namespace LambdaMOO

/-! ### Sound states -/

def countCells (cs : List Cell) : Counts :=
  (cs.map fun c => c.content.counts).foldl Counts.add Counts.zero

lemma countCells_append_singleton (cs : List Cell) (c : Cell) :
    countCells (cs ++ [c]) = (countCells cs).add c.content.counts := by
  simp [countCells]

/-- An operand that can be emitted without losing bits, and an index into the tables. -/
def Content.IsSound (r : Bool) (g : GState) : Content → Prop
  | .op o => o.IsValid r
  | .eop _ => True
  | .byte b => b < 256
  | .fixup (.literal i) => i < g.literals.length
  | .fixup (.fork i) => i < g.forkVectors.length
  | .fixup (.varRef slot) => slot < 256
  | .fixup (.stack _) | .fixup (.label _) | .fixup (.known _) => True

lemma Content.IsSound.mono {r : Bool} {g g' : GState} {c : Content} (h : c.IsSound r g)
    (hl : g.literals.length ≤ g'.literals.length)
    (hf : g.forkVectors.length ≤ g'.forkVectors.length) : c.IsSound r g' := by
  match c with
  | .op _ | .eop _ | .byte _ => exact h
  | .fixup (.literal i) => exact Nat.lt_of_lt_of_le h hl
  | .fixup (.fork i) => exact Nat.lt_of_lt_of_le h hf
  | .fixup (.varRef _) => exact h
  | .fixup (.stack _) | .fixup (.label _) | .fixup (.known _) => trivial

/-- Only a plain push of a variable is marked for the pass that clears variables. -/
structure Cell.IsSound (r : Bool) (g : GState) (c : Cell) : Prop where
  content : c.content.IsSound r g
  pushmap : c.pushmap = .push → ∃ n, c.content = .op (.opPush n)

structure State.IsSound (r : Bool) (s : State) : Prop where
  counted : s.counts = countCells s.cells
  cells : ∀ c ∈ s.cells, c.IsSound r s.gstate
  stack : s.curStack ≤ s.maxStack

lemma State.isSound_init (r : Bool) (g : GState) : (State.init g).IsSound r :=
  ⟨rfl, by simp [State.init], Nat.le_refl _⟩

/-! ### Growth -/

structure Grows (r : Bool) (s t : State) : Prop where
  cells : s.cells <+: t.cells
  labels : ∀ (id : Nat) (v : LabelValue),
    s.labels[id]? = some (some v) → t.labels[id]? = some (some v)
  literals : s.gstate.literals <+: t.gstate.literals
  forkVectors : s.gstate.forkVectors <+: t.gstate.forkVectors
  maxStack : s.maxStack ≤ t.maxStack
  sound : s.IsSound r → t.IsSound r

namespace Grows

variable {r : Bool} {s t u : State}

lemma refl (s : State) : Grows r s s :=
  ⟨List.prefix_refl _, fun _ _ h => h, List.prefix_refl _, List.prefix_refl _, Nat.le_refl _, id⟩

lemma trans (h : Grows r s t) (k : Grows r t u) : Grows r s u where
  cells := h.cells.trans k.cells
  labels id v hv := k.labels id v (h.labels id v hv)
  literals := h.literals.trans k.literals
  forkVectors := h.forkVectors.trans k.forkVectors
  maxStack := Nat.le_trans h.maxStack k.maxStack
  sound hs := k.sound (h.sound hs)

/-- A step that touches neither cells, labels nor tables. -/
lemma of_eq (hc : t.cells = s.cells) (hn : t.counts = s.counts) (hl : t.labels = s.labels)
    (hg : t.gstate = s.gstate) (hm : s.maxStack ≤ t.maxStack)
    (hk : s.curStack ≤ s.maxStack → t.curStack ≤ t.maxStack) : Grows r s t where
  cells := hc ▸ List.prefix_refl _
  labels id v hv := hl ▸ hv
  literals := hg ▸ List.prefix_refl _
  forkVectors := hg ▸ List.prefix_refl _
  maxStack := hm
  sound hs := by
    refine ⟨?_, ?_, hk hs.stack⟩
    · rw [hn, hc, hs.counted]
    · rw [hc, hg]
      exact hs.cells

/-- One more cell and, at the same time, longer tables. -/
lemma emitWith {c : Cell} (hc : t.cells = s.cells ++ [c])
    (hn : t.counts = s.counts.add c.content.counts) (hl : t.labels = s.labels)
    (hlit : s.gstate.literals <+: t.gstate.literals)
    (hfork : s.gstate.forkVectors <+: t.gstate.forkVectors)
    (hm : t.maxStack = s.maxStack) (hk : t.curStack = s.curStack)
    (h : c.IsSound r t.gstate) : Grows r s t where
  cells := hc ▸ List.prefix_append _ _
  labels id v hv := hl ▸ hv
  literals := hlit
  forkVectors := hfork
  maxStack := Nat.le_of_eq hm.symm
  sound hs := by
    refine ⟨?_, ?_, ?_⟩
    · rw [hn, hc, countCells_append_singleton, hs.counted]
    · intro c' hc'
      rw [hc, List.mem_append, List.mem_singleton] at hc'
      rcases hc' with hold | rfl
      · have hsound := hs.cells c' hold
        exact ⟨hsound.content.mono hlit.length_le hfork.length_le, hsound.pushmap⟩
      · exact h
    · rw [hm, hk]
      exact hs.stack

lemma emitCell {c : Content} {p : PushMap} (k : Int) (hc : c.IsSound r s.gstate)
    (hp : p = .push → ∃ n, c = .op (.opPush n)) : Grows r s (s.emitCell c p k) :=
  emitWith rfl rfl rfl (List.prefix_refl _) (List.prefix_refl _) rfl rfl ⟨hc, hp⟩

lemma emitOp {o : Opcode} (h : o.IsValid r) : Grows r s (s.emitOp o) :=
  emitCell 0 h (by rintro ⟨⟩)

lemma emitByte {b : Nat} (h : b < 256) : Grows r s (s.emitByte b) :=
  emitCell 0 h (by rintro ⟨⟩)

lemma addFixup {f : Fixup} (h : (Content.fixup f).IsSound r s.gstate) :
    Grows r s (s.addFixup f) :=
  emitCell 0 h (by rintro ⟨⟩)

lemma emitEndingOp {o : Opcode} (h : o.IsValid r) : Grows r s (s.emitEndingOp o) :=
  emitCell 0 h (by rintro ⟨⟩)

lemma emitCallVerbOp {o : Opcode} (h : o.IsValid r) : Grows r s (s.emitCallVerbOp o) :=
  emitCell 0 h (by rintro ⟨⟩)

lemma emitSkewed {o : Opcode} (k : Int) (h : o.IsValid r) :
    Grows r s (s.emitSkewed o k) :=
  emitCell k h (by rintro ⟨⟩)

lemma emitExtended (o : ExtOpcode) : Grows r s (s.emitExtended o) :=
  trans (emitOp (by trivial)) (emitCell 0 trivial (by rintro ⟨⟩))

lemma emitBinary (op : BinOp) : Grows r s (s.emitBinary op) := by
  cases op
  all_goals first
    | exact emitOp trivial
    | exact emitExtended _

lemma emitUnary (op : UnOp) : Grows r s (s.emitUnary op) := by
  cases op with
  | negate => exact emitOp trivial
  | not => exact emitOp trivial
  | complement => exact emitExtended _

lemma pushStack (n : Nat) : Grows r s (s.pushStack n) :=
  of_eq rfl rfl rfl rfl (Nat.le_max_left _ _) fun _ => Nat.le_max_right _ _

lemma popStack (n : Nat) : Grows r s (s.popStack n) :=
  of_eq rfl rfl rfl rfl (Nat.le_refl _) fun h => Nat.le_trans (Nat.sub_le _ _) h

lemma saveStackTop : Grows r s s.saveStackTop :=
  of_eq rfl rfl rfl rfl (Nat.le_refl _) id

lemma restoreStackTop (o : Option Nat) : Grows r s (s.restoreStackTop o) :=
  of_eq rfl rfl rfl rfl (Nat.le_refl _) id

lemma incrTryDepth : Grows r s s.incrTryDepth :=
  of_eq rfl rfl rfl rfl (Nat.le_refl _) id

lemma decrTryDepth : Grows r s s.decrTryDepth :=
  of_eq rfl rfl rfl rfl (Nat.le_refl _) id

lemma enterLoop (slot : Option Nat) (v : LabelValue) (a b c : Nat) :
    Grows r s (s.enterLoop slot v a b c) :=
  of_eq rfl rfl rfl rfl (Nat.le_refl _) id

lemma exitLoop : Grows r s s.exitLoop :=
  of_eq rfl rfl rfl rfl (Nat.le_refl _) id

lemma newLabel : Grows r s s.newLabel where
  cells := List.prefix_refl _
  labels id v h := by
    have hlt : id < s.labels.length := by
      by_contra hge
      rw [List.getElem?_eq_none (by omega)] at h
      exact absurd h (by simp)
    rw [State.newLabel_labels, List.getElem?_append_left hlt]
    exact h
  literals := List.prefix_refl _
  forkVectors := List.prefix_refl _
  maxStack := Nat.le_refl _
  sound hs := ⟨hs.counted, hs.cells, hs.stack⟩

lemma addLabel : Grows r s s.addLabel := trans (addFixup (by trivial)) newLabel

/-- Placing a label is growth as long as it was not placed before. -/
lemma defineLabel {id : Nat} (h : s.labels[id]? = some none) :
    Grows r s (s.defineLabel id) where
  cells := List.prefix_refl _
  labels id' v hv := by
    have hne : id ≠ id' := by
      rintro rfl
      rw [h] at hv
      exact absurd hv (by simp)
    rw [State.defineLabel_labels, List.getElem?_set_ne hne]
    exact hv
  literals := List.prefix_refl _
  forkVectors := List.prefix_refl _
  maxStack := Nat.le_refl _
  sound hs := ⟨hs.counted, hs.cells, hs.stack⟩

lemma addLiteral (v : Literal) : Grows r s (s.addLiteral v) := by
  have hle : State.literalIndex v s.gstate.literals ≤ s.gstate.literals.length :=
    List.findIdx_le_length
  refine emitWith rfl rfl rfl ?_ (List.prefix_refl _) rfl rfl ⟨?_, by rintro ⟨⟩⟩
  · rw [State.addLiteral_gstate_literals]
    split_ifs
    · exact List.prefix_append _ _
    · exact List.prefix_refl _
  · change _ < List.length _
    rw [State.addLiteral_gstate_literals]
    split_ifs with h
    · rw [List.length_append, h, List.length_singleton]
      omega
    · omega

lemma addVarRef {n : Nat} (h : n < 256) : Grows r s (s.addVarRef n) :=
  emitWith rfl rfl rfl (List.prefix_refl _) (List.prefix_refl _) rfl rfl ⟨h, by rintro ⟨⟩⟩

lemma addFork (b : Bytecodes) : Grows r s (s.addFork b) := by
  refine emitWith rfl rfl rfl (List.prefix_refl _) (List.prefix_append _ _) rfl rfl ⟨?_, by rintro ⟨⟩⟩
  change _ < List.length _
  rw [State.addFork_gstate_forkVectors, List.length_append, List.length_singleton]
  omega

/-- The tables grow while another vector is generated. -/
lemma setGState {g : GState} (hl : s.gstate.literals <+: g.literals)
    (hf : s.gstate.forkVectors <+: g.forkVectors) : Grows r s { s with gstate := g } where
  cells := List.prefix_refl _
  labels _ _ h := h
  literals := hl
  forkVectors := hf
  maxStack := Nat.le_refl _
  sound hs := by
    refine ⟨hs.counted, fun c hc => ?_, hs.stack⟩
    have hsound := hs.cells c hc
    exact ⟨hsound.content.mono hl.length_le hf.length_le, hsound.pushmap⟩

lemma emitPut {n : Nat} (h : n < 256) : Grows r s (s.emitPut n) := by
  unfold State.emitPut
  split_ifs with hn
  · exact trans (emitOp (by trivial)) (addVarRef h)
  · exact emitCell 0 (Nat.lt_of_not_le hn) (by rintro ⟨⟩)

lemma emitPush {n : Nat} (h : n < 256) : Grows r s (s.emitPush n) := by
  unfold State.emitPush
  split_ifs with hn
  · exact trans (emitOp (by trivial)) (addVarRef h)
  · exact emitCell 0 (Nat.lt_of_not_le hn) fun _ => ⟨n, rfl⟩

lemma emitExceptPut {slot : Option Nat} (h : ∀ n ∈ slot, n < 256) :
    Grows r s (s.emitExceptPut slot) := by
  cases slot with
  | none => exact refl s
  | some n => exact emitPut (h n rfl)

lemma generateExit {exit : Option Nat} (h : ∀ n ∈ exit, n < 256) :
    Grows r s (generateExit exit s) := by
  cases exit with
  | none => exact emitExtended _
  | some n => exact (emitExtended _).trans (addVarRef (h n rfl))

end Grows

end LambdaMOO
