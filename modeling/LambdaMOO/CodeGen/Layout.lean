import LambdaMOO.CodeGen.Growth
import Mathlib.Data.List.Induction
import Mathlib.Tactic.NormNum

/-!
# The layout of a code vector

Where the cells of a state end up in the final vector. A captured label resolves to the
offset of the state it was captured in, the opcodes and operands read at an offset are
those emitted there, and the size computed for the vector is its length.
-/

namespace LambdaMOO

/-! ### Widths -/

def IsWidth (n : Nat) : Prop := n = 1 ∨ n = 2 ∨ n = 4

/-- Every operand has a width that `READ_BYTES` knows. -/
structure Widths.IsReadable (w : Widths) : Prop where
  label : IsWidth w.label
  literal : IsWidth w.literal
  fork : IsWidth w.fork
  varName : IsWidth w.varName
  stack : IsWidth w.stack

/-- The same with one byte for heights of the stack. -/
structure Widths.IsProper (w : Widths) : Prop where
  label : IsWidth w.label
  literal : IsWidth w.literal
  fork : IsWidth w.fork
  varName : IsWidth w.varName
  stack : w.stack = 1

lemma isWidth_refSize (n : Nat) : IsWidth (refSize n) := by
  unfold refSize IsWidth
  split_ifs <;> simp

lemma State.isWidth_labelSize (s : State) : IsWidth s.labelSize := by
  unfold State.labelSize IsWidth
  split_ifs <;> simp

lemma State.isProper_widths {s : State} (h : s.maxStack ≤ 255) : s.widths.IsProper where
  label := s.isWidth_labelSize
  literal := isWidth_refSize _
  fork := isWidth_refSize _
  varName := isWidth_refSize _
  stack := by
    change refSize s.maxStack = 1
    unfold refSize
    rw [if_pos (by omega)]

lemma Widths.IsProper.isReadable {w : Widths} (h : w.IsProper) : w.IsReadable :=
  ⟨h.label, h.literal, h.fork, h.varName, Or.inl h.stack⟩

lemma State.isReadable_widths (s : State) : s.widths.IsReadable :=
  ⟨s.isWidth_labelSize, isWidth_refSize _, isWidth_refSize _, isWidth_refSize _,
    isWidth_refSize _⟩

def Content.width (w : Widths) : Content → Nat
  | .fixup (.literal _) => w.literal
  | .fixup (.fork _) => w.fork
  | .fixup (.varRef _) => w.varName
  | .fixup (.stack _) => w.stack
  | .fixup (.label _) | .fixup (.known _) => w.label
  | .op _ | .eop _ | .byte _ => 1

lemma length_operandBytes {n : Nat} (h : IsWidth n) (x : Nat) :
    (operandBytes n x).length = n := by
  rcases h with rfl | rfl | rfl <;> rfl

lemma Content.length_bytes {w : Widths} (h : w.IsReadable) (r : Bool)
    (labels : List (Option LabelValue)) (c : Content) :
    (c.bytes r w labels).length = c.width w := by
  match c with
  | .op _ | .eop _ | .byte _ => rfl
  | .fixup (.literal _) => exact length_operandBytes h.literal _
  | .fixup (.fork _) => exact length_operandBytes h.fork _
  | .fixup (.varRef _) => exact length_operandBytes h.varName _
  | .fixup (.stack _) => exact length_operandBytes h.stack _
  | .fixup (.label _) | .fixup (.known _) => exact length_operandBytes h.label _

/-! ### Offsets -/

def offset (w : Widths) (cs : List Cell) : Nat := (cs.map fun c => c.content.width w).sum

lemma offset_append (w : Widths) (cs ds : List Cell) :
    offset w (cs ++ ds) = offset w cs + offset w ds := by
  simp [offset]

lemma offset_singleton (w : Widths) (c : Cell) : offset w [c] = c.content.width w := by
  simp [offset]

/-- What the widths of the operands add to the number of cells. -/
def Counts.extra (w : Widths) (k : Counts) : Nat :=
  k.literals * (w.literal - 1) + k.forks * (w.fork - 1) + k.varRefs * (w.varName - 1)
    + k.labels * (w.label - 1) + k.stackRefs * (w.stack - 1)

lemma Counts.extra_add (w : Widths) (k l : Counts) :
    (k.add l).extra w = k.extra w + l.extra w := by
  simp only [extra, add, Nat.add_mul]
  omega

lemma IsWidth.pos {n : Nat} (h : IsWidth n) : 0 < n := by
  rcases h with rfl | rfl | rfl <;> decide

lemma Content.width_eq {w : Widths} (h : w.IsProper) (c : Content) :
    c.width w = 1 + c.counts.extra w := by
  have hlabel := h.label.pos
  have hliteral := h.literal.pos
  have hfork := h.fork.pos
  have hvar := h.varName.pos
  have hstack := h.stack
  match c with
  | .op _ | .eop _ | .byte _ => simp [width, counts, Counts.extra, Counts.zero]
  | .fixup (.literal _) | .fixup (.fork _) | .fixup (.varRef _) | .fixup (.stack _)
  | .fixup (.label _) | .fixup (.known _) =>
    simp only [width, counts, Fixup.counts, Counts.extra, Counts.zero]
    omega

lemma offset_eq {w : Widths} (h : w.IsProper) (cs : List Cell) :
    offset w cs = cs.length + (countCells cs).extra w := by
  induction cs using List.reverseRecOn with
  | nil => simp [offset, countCells, Counts.extra, Counts.zero]
  | append_singleton cs c ih =>
    rw [offset_append, offset_singleton, countCells_append_singleton, Counts.extra_add,
      Content.width_eq h, ih, List.length_append, List.length_singleton]
    omega

/-- A captured label resolves to the offset of the next cell. -/
lemma State.resolve_captureLabel {r : Bool} {w : Widths} (h : w.IsProper) {s : State}
    (hs : s.IsSound r) : s.captureLabel.resolve w = offset w s.cells := by
  rw [offset_eq h, ← hs.counted]
  simp only [LabelValue.resolve, State.captureLabel, Counts.extra]
  omega

/-- `bc.size` is the number of bytes written. -/
lemma State.size_eq_offset {r : Bool} {s : State} (hs : s.IsSound r) (h : s.maxStack ≤ 255) :
    s.baseSize + (s.labelSize - 1) * s.counts.labels = offset s.widths s.cells := by
  rw [offset_eq (State.isProper_widths h), ← hs.counted]
  have hstack := (State.isProper_widths h).stack
  simp only [State.baseSize, Counts.extra, hstack]
  simp only [State.widths, Nat.mul_comm]
  omega

/-! ### The pass over the cells -/

/-- What the pass may make of a cell. -/
inductive Reduced (r : Bool) (c : Cell) : Content → Prop
  | same : Reduced r c c.content
  | clear (hr : r = true) {n : Nat} (hp : c.pushmap = .push) (hc : c.content = .op (.opPush n)) :
    Reduced r c (.op (.opPushClear n))

lemma getElem?_reduceRefs (cs : List Cell) (i : Nat) :
    (reduceRefs cs)[i]? = cs[i]?.map fun c => c.reduce (varbits (cs.drop (i + 1))) := by
  induction cs generalizing i with
  | nil => rfl
  | cons c cs ih =>
    cases i with
    | zero => rfl
    | succ i => exact ih i

/-- Only pushes of variables are marked as pushes. -/
def State.IsMarked (s : State) : Prop :=
  ∀ c ∈ s.cells, c.pushmap = .push → ∃ n, c.content = .op (.opPush n)

lemma State.IsSound.isMarked {r : Bool} {s : State} (h : s.IsSound r) : s.IsMarked :=
  fun c hc => (h.cells c hc).pushmap

lemma Cell.reduced_reduce {c : Cell} (h : c.pushmap = .push → ∃ n, c.content = .op (.opPush n))
    (bits : Nat → Bool) :
    Reduced true c (c.reduce bits).content := by
  unfold Cell.reduce
  split
  · rename_i hp
    obtain ⟨n, hn⟩ := h hp
    split_ifs
    · rw [hn]
      exact Reduced.clear rfl hp hn
    · exact Reduced.same
  · exact Reduced.same

lemma State.getElem?_finalCells {r : Bool} {s : State} (hs : s.IsMarked) {i : Nat} {c : Cell}
    (h : s.cells[i]? = some c) :
    ∃ c', (s.finalCells r)[i]? = some c' ∧ Reduced r c c'.content := by
  unfold State.finalCells
  cases r with
  | false => exact ⟨c, h, Reduced.same⟩
  | true =>
    refine ⟨c.reduce (varbits (s.cells.drop (i + 1))), ?_, ?_⟩
    · rw [if_pos rfl, getElem?_reduceRefs, h, Option.map_some]
    · exact Cell.reduced_reduce (hs c (List.mem_of_getElem? h)) _

lemma Reduced.width_eq {r : Bool} {c : Cell} {d : Content} (h : Reduced r c d) (w : Widths) :
    d.width w = c.content.width w := by
  cases h with
  | same => rfl
  | clear _ _ hc =>
    rw [hc]
    rfl

lemma State.length_finalCells (r : Bool) (s : State) :
    (s.finalCells r).length = s.cells.length := by
  unfold State.finalCells
  split_ifs
  · generalize s.cells = cs
    induction cs with
    | nil => rfl
    | cons c cs ih => rw [reduceRefs, List.length_cons, List.length_cons, ih]
  · rfl

lemma State.map_width_finalCells {r : Bool} {s : State} (hs : s.IsMarked) (w : Widths) :
    (s.finalCells r).map (fun c => c.content.width w) = s.cells.map fun c => c.content.width w := by
  apply List.ext_getElem?
  intro i
  rw [List.getElem?_map, List.getElem?_map]
  cases h : s.cells[i]? with
  | none =>
    have hlen := List.getElem?_eq_none_iff.mp h
    rw [List.getElem?_eq_none (by rw [s.length_finalCells r]; exact hlen)]
  | some c =>
    obtain ⟨c', hc', hred⟩ := s.getElem?_finalCells hs h
    rw [hc', Option.map_some, Option.map_some, hred.width_eq w]

/-! ### Reading -/

lemma drop_flatMap {α β : Type} (f : α → List β) (as : List α) (i : Nat) :
    (as.flatMap f).drop ((as.take i).map fun a => (f a).length).sum = (as.drop i).flatMap f := by
  induction as generalizing i with
  | nil => simp
  | cons a as ih =>
    cases i with
    | zero => simp
    | succ i =>
      rw [List.take_succ_cons, List.map_cons, List.sum_cons, ← List.drop_drop,
        List.flatMap_cons, List.drop_left, List.drop_succ_cons, ih i]

/-- A value that an operand of the given width can hold. The top byte of a four-byte
operand takes whatever is left. -/
def Fits (n x : Nat) : Prop := n = 4 ∨ x < 256 ^ n

lemma readByte_of_drop {v : List Nat} {ptr b : Nat} {tail : List Nat}
    (h : v.drop ptr = b :: tail) : readByte v ptr = .ok b := by
  have hb : v[ptr]? = some b := by
    have := congrArg (fun l => l[0]?) h
    simpa using this
  unfold readByte
  rw [hb]

lemma readByte_add_of_drop {v : List Nat} {ptr b : Nat} (i : Nat) {l : List Nat}
    (h : v.drop ptr = l) (hb : l[i]? = some b) : readByte v (ptr + i) = .ok b := by
  have hget : v[ptr + i]? = some b := by
    rw [← hb, ← h, List.getElem?_drop]
  unfold readByte
  rw [hget]

lemma readBytes_of_drop {v : List Nat} {n x ptr : Nat} {tail : List Nat} (hn : IsWidth n)
    (hx : Fits n x) (h : v.drop ptr = operandBytes n x ++ tail) :
    readBytes v n ptr = .ok x := by
  have h₀ (b : Nat) : _ → readByte v ptr = .ok b := readByte_add_of_drop 0 h
  have h₁ (b : Nat) := readByte_add_of_drop (b := b) 1 h
  have h₂ (b : Nat) := readByte_add_of_drop (b := b) 2 h
  have h₃ (b : Nat) := readByte_add_of_drop (b := b) 3 h
  rcases hn with rfl | rfl | rfl
  · have hlt : x < 256 := by
      rcases hx with hx | hx
      · omega
      · simpa using hx
    rw [readBytes, if_pos rfl, h₀ _ rfl, Nat.mod_eq_of_lt hlt]
  · have hlt : x < 65536 := by
      rcases hx with hx | hx
      · omega
      · simpa using hx
    simp only [readBytes, if_neg (show ¬ 2 = 1 by decide), if_true, h₁ _ rfl,
      h₀ _ rfl, bind, Except.bind, pure, Except.pure]
    congr 1
    omega
  · simp only [readBytes, if_neg (show ¬ 4 = 1 by decide), if_neg (show ¬ 4 = 2 by decide),
      h₀ _ rfl, h₁ _ rfl, h₂ _ rfl, h₃ _ rfl, bind, Except.bind, pure, Except.pure]
    congr 1
    omega

/-! ### Linked vectors -/

/-- `bc` is the vector made from the state `F` that `generate_stmt` left behind. -/
structure Linked (r : Bool) (F : State) (bc : Bytecodes) : Prop where
  finish : finishCode r F = .ok bc
  sound : F.IsSound r
  stack_le : F.maxStack ≤ 255

lemma finishCode_eq {r : Bool} {F : State} {bc : Bytecodes} (h : finishCode r F = .ok bc) :
    bc.vector = ((F.emitEndingOp .opDone).finalCells r).flatMap
        (fun c => c.content.bytes r (F.emitEndingOp .opDone).widths F.labels)
      ∧ bc.widths = (F.emitEndingOp .opDone).widths
      ∧ bc.size = (F.emitEndingOp .opDone).baseSize
          + ((F.emitEndingOp .opDone).labelSize - 1) * (F.emitEndingOp .opDone).counts.labels
      ∧ bc.maxStack = F.maxStack := by
  unfold finishCode link at h
  split_ifs at h
  obtain rfl := Except.ok.inj h
  exact ⟨rfl, rfl, rfl, rfl⟩

/-- The bytes at the offset of a cell are those the cell, as the pass left it, stands for. -/
lemma drop_offset_of_finish {r : Bool} {F : State} {bc : Bytecodes}
    (h : finishCode r F = .ok bc) (hm : (F.emitEndingOp .opDone).IsMarked) {p : List Cell}
    {c : Cell} (hp : p ++ [c] <+: (F.emitEndingOp .opDone).cells) :
    ∃ d tail, Reduced r c d ∧
      bc.vector.drop (offset bc.widths p) = d.bytes r bc.widths F.labels ++ tail := by
  obtain ⟨hvector, hwidths, -, -⟩ := finishCode_eq h
  have hread : bc.widths.IsReadable := hwidths ▸ State.isReadable_widths _
  obtain ⟨q, hq⟩ := hp
  have hget : (F.emitEndingOp .opDone).cells[p.length]? = some c := by
    rw [← hq]
    simp
  obtain ⟨c', hc', hred⟩ := State.getElem?_finalCells (r := r) hm hget
  obtain ⟨hlt, hc'⟩ := List.getElem?_eq_some_iff.mp hc'
  have htake : offset bc.widths p
      = ((((F.emitEndingOp .opDone).finalCells r).take p.length).map fun c =>
          (c.content.bytes r bc.widths F.labels).length).sum := by
    have hlen (c : Cell) : (c.content.bytes r bc.widths F.labels).length
        = c.content.width bc.widths := Content.length_bytes hread _ _ _
    simp only [hlen]
    rw [List.map_take, State.map_width_finalCells hm, ← hq, ← List.map_take]
    simp [offset]
  refine ⟨c'.content, (((F.emitEndingOp .opDone).finalCells r).drop (p.length + 1)).flatMap
    (fun c => c.content.bytes r bc.widths F.labels), hred, ?_⟩
  rw [htake, hvector, ← hwidths, drop_flatMap, List.drop_eq_getElem_cons hlt, hc',
    List.flatMap_cons]

lemma finishCode_maxStack {r : Bool} {s : State} {bc : Bytecodes} (h : finishCode r s = .ok bc) :
    bc.maxStack = s.maxStack := (finishCode_eq h).2.2.2

/-- The offset of the next cell, once the widths are known. -/
def State.pos (w : Widths) (s : State) : Nat := offset w s.cells

section

variable (w : Widths) (s : State)

lemma State.pos_emitCell (c : Content) (p : PushMap) (k : Int) :
    (s.emitCell c p k).pos w = s.pos w + c.width w := by
  unfold State.pos
  rw [State.emitCell_cells, offset_append, offset_singleton]

@[simp] lemma State.pos_emitOp (o : Opcode) : (s.emitOp o).pos w = s.pos w + 1 :=
  s.pos_emitCell w _ _ _

@[simp] lemma State.pos_emitByte (b : Nat) : (s.emitByte b).pos w = s.pos w + 1 :=
  s.pos_emitCell w _ _ _

@[simp] lemma State.pos_emitEndingOp (o : Opcode) :
    (s.emitEndingOp o).pos w = s.pos w + 1 :=
  s.pos_emitCell w _ _ _

@[simp] lemma State.pos_emitCallVerbOp (o : Opcode) :
    (s.emitCallVerbOp o).pos w = s.pos w + 1 :=
  s.pos_emitCell w _ _ _

@[simp] lemma State.pos_emitSkewed (o : Opcode) (k : Int) :
    (s.emitSkewed o k).pos w = s.pos w + 1 :=
  s.pos_emitCell w _ _ _

@[simp] lemma State.pos_emitExtended (o : ExtOpcode) :
    (s.emitExtended o).pos w = s.pos w + 2 :=
  ((s.emitOp .opExtended).pos_emitCell w _ _ _).trans (by rw [pos_emitOp]; rfl)

@[simp] lemma State.pos_addVarRef (n : Nat) : (s.addVarRef n).pos w = s.pos w + w.varName :=
  s.pos_emitCell w (.fixup (.varRef n)) _ 0

@[simp] lemma State.pos_addLiteral (v : Literal) :
    (s.addLiteral v).pos w = s.pos w + w.literal :=
  s.pos_emitCell w (.fixup (.literal _)) _ 0

@[simp] lemma State.pos_addFork (b : Bytecodes) : (s.addFork b).pos w = s.pos w + w.fork :=
  s.pos_emitCell w (.fixup (.fork _)) _ 0

@[simp] lemma State.pos_addStackRef (i : Nat) : (s.addStackRef i).pos w = s.pos w + w.stack :=
  s.pos_emitCell w _ _ _

@[simp] lemma State.pos_addFixup_label (id : Nat) :
    (s.addFixup (.label id)).pos w = s.pos w + w.label :=
  s.pos_emitCell w _ _ _

@[simp] lemma State.pos_addLabel : s.addLabel.pos w = s.pos w + w.label :=
  s.pos_emitCell w (.fixup (.label _)) _ 0

@[simp] lemma State.pos_addKnownLabel (v : LabelValue) :
    (s.addKnownLabel v).pos w = s.pos w + w.label :=
  s.pos_emitCell w _ _ _

@[simp] lemma State.pos_addPseudoLabel (n : Nat) :
    (s.addPseudoLabel n).pos w = s.pos w + w.label :=
  s.pos_emitCell w _ _ _

@[simp] lemma State.pos_pushStack (n : Nat) : (s.pushStack n).pos w = s.pos w := rfl

@[simp] lemma State.pos_popStack (n : Nat) : (s.popStack n).pos w = s.pos w := rfl

@[simp] lemma State.pos_saveStackTop : s.saveStackTop.pos w = s.pos w := rfl

@[simp] lemma State.pos_restoreStackTop (o : Option Nat) :
    (s.restoreStackTop o).pos w = s.pos w := rfl

@[simp] lemma State.pos_incrTryDepth : s.incrTryDepth.pos w = s.pos w := rfl

@[simp] lemma State.pos_decrTryDepth : s.decrTryDepth.pos w = s.pos w := rfl

@[simp] lemma State.pos_enterLoop (slot : Option Nat) (v : LabelValue) (a b c : Nat) :
    (s.enterLoop slot v a b c).pos w = s.pos w := rfl

@[simp] lemma State.pos_exitLoop : s.exitLoop.pos w = s.pos w := rfl

@[simp] lemma State.pos_defineLabel (id : Nat) : (s.defineLabel id).pos w = s.pos w := rfl

@[simp] lemma State.pos_setGState (g : GState) : { s with gstate := g }.pos w = s.pos w := rfl

end

lemma Grows.pos_le {r : Bool} {s t : State} (h : Grows r s t) (w : Widths) :
    s.pos w ≤ t.pos w := by
  obtain ⟨q, hq⟩ := h.cells
  unfold State.pos
  rw [← hq, offset_append]
  exact Nat.le_add_right _ _

@[simp] lemma Bytecodes.widths_label (bc : Bytecodes) : bc.widths.label = bc.numbytesLabel := rfl

@[simp] lemma Bytecodes.widths_literal (bc : Bytecodes) :
    bc.widths.literal = bc.numbytesLiteral := rfl

@[simp] lemma Bytecodes.widths_fork (bc : Bytecodes) : bc.widths.fork = bc.numbytesFork := rfl

@[simp] lemma Bytecodes.widths_varName (bc : Bytecodes) :
    bc.widths.varName = bc.numbytesVarName := rfl

@[simp] lemma Bytecodes.widths_stack (bc : Bytecodes) : bc.widths.stack = bc.numbytesStack := rfl

namespace Linked

variable {r : Bool} {F : State} {bc : Bytecodes}

lemma sound_done (h : Linked r F bc) : (F.emitEndingOp .opDone).IsSound r :=
  (Grows.emitEndingOp (o := .opDone) trivial).sound h.sound

lemma eq_link (h : Linked r F bc) :
    bc.vector = ((F.emitEndingOp .opDone).finalCells r).flatMap
        (fun c => c.content.bytes r (F.emitEndingOp .opDone).widths F.labels)
      ∧ bc.widths = (F.emitEndingOp .opDone).widths
      ∧ bc.size = (F.emitEndingOp .opDone).baseSize
          + ((F.emitEndingOp .opDone).labelSize - 1) * (F.emitEndingOp .opDone).counts.labels
      ∧ bc.maxStack = F.maxStack :=
  finishCode_eq h.finish

lemma maxStack_eq (h : Linked r F bc) : bc.maxStack = F.maxStack := finishCode_maxStack h.finish

lemma isProper (h : Linked r F bc) : bc.widths.IsProper := by
  rw [h.eq_link.2.1]
  exact State.isProper_widths h.stack_le

lemma size_eq (h : Linked r F bc) : bc.size = F.pos bc.widths + 1 := by
  obtain ⟨-, hwidths, hsize, -⟩ := h.eq_link
  rw [hsize, State.size_eq_offset h.sound_done h.stack_le, ← hwidths]
  exact offset_append _ _ _

lemma drop_offset_of_cell (h : Linked r F bc) {p : List Cell} {c : Cell}
    (hp : p ++ [c] <+: (F.emitEndingOp .opDone).cells) :
    ∃ d tail, Reduced r c d ∧
      bc.vector.drop (offset bc.widths p) = d.bytes r bc.widths F.labels ++ tail :=
  drop_offset_of_finish h.finish h.sound_done.isMarked hp

/-- A jump can reach the `OP_DONE` at the end and no further. -/
lemma fits_label (h : Linked r F bc) {x : Nat} (hx : x ≤ F.pos bc.widths) :
    Fits bc.widths.label x := by
  have hsize := h.size_eq
  obtain ⟨-, hwidths, hsize', -⟩ := h.eq_link
  have hlabel : bc.widths.label = (F.emitEndingOp .opDone).labelSize := by
    rw [hwidths]
    rfl
  rw [hlabel]
  unfold State.labelSize at *
  unfold Fits
  split_ifs at * with h₁ h₂
  · right
    omega
  · right
    norm_num
    omega
  · exact Or.inl rfl

lemma fits_of_lt_refSize {x n : Nat} (h : x < n) : Fits (refSize n) x := by
  unfold Fits refSize
  split_ifs with h₁ h₂
  · right
    omega
  · right
    norm_num
    omega
  · exact Or.inl rfl

lemma fits_of_lt_byte {x n : Nat} (hn : IsWidth n) (h : x < 256) : Fits n x := by
  right
  calc x < 256 ^ 1 := by omega
    _ ≤ 256 ^ n := Nat.pow_le_pow_right (by decide) hn.pos

lemma fits_literal (h : Linked r F bc) {i : Nat} (hi : i < F.gstate.literals.length) :
    Fits bc.widths.literal i := by
  rw [h.eq_link.2.1]
  exact fits_of_lt_refSize (Nat.lt_of_lt_of_le hi (Nat.le_max_right _ _))

lemma fits_fork (h : Linked r F bc) {i : Nat} (hi : i < F.gstate.forkVectors.length) :
    Fits bc.widths.fork i := by
  rw [h.eq_link.2.1]
  exact fits_of_lt_refSize (Nat.lt_of_lt_of_le hi (Nat.le_max_right _ _))

/-! ### Reading what was emitted -/

variable {s t : State} {c : Content} {p : PushMap} {k : Int}

lemma drop_pos (hl : Linked r F bc) (h : (s.emitCell c p k).cells <+: F.cells) :
    ∃ d tail, Reduced r ⟨c, p, s.tryDepth, s.curStack, k⟩ d ∧
      bc.vector.drop (s.pos bc.widths) = d.bytes r bc.widths F.labels ++ tail :=
  hl.drop_offset_of_cell (h.trans (List.prefix_append _ _))

lemma drop_pos_of_ne (hl : Linked r F bc) (hp : p ≠ .push)
    (h : (s.emitCell c p k).cells <+: F.cells) :
    ∃ tail, bc.vector.drop (s.pos bc.widths) = c.bytes r bc.widths F.labels ++ tail := by
  obtain ⟨d, tail, hred, hdrop⟩ := hl.drop_pos h
  cases hred with
  | same => exact ⟨tail, hdrop⟩
  | clear _ hpush _ => exact absurd hpush hp

lemma content_isSound (hl : Linked r F bc) (h : (s.emitCell c p k).cells <+: F.cells) :
    c.IsSound r F.gstate := by
  have hmem : (⟨c, p, s.tryDepth, s.curStack, k⟩ : Cell) ∈ F.cells :=
    h.subset (by simp [State.emitCell])
  exact (hl.sound.cells _ hmem).content

lemma read_op {o : Opcode} (hl : Linked r F bc) (hp : p ≠ .push)
    (h : (s.emitCell (.op o) p k).cells <+: F.cells) :
    readByte bc.vector (s.pos bc.widths) = .ok (o.code r) := by
  obtain ⟨tail, hdrop⟩ := hl.drop_pos_of_ne hp h
  exact readByte_of_drop hdrop

lemma read_emitOp {o : Opcode} (hl : Linked r F bc) (h : Grows r (s.emitOp o) F) :
    readByte bc.vector (s.pos bc.widths) = .ok (o.code r) :=
  hl.read_op (by decide) h.cells

/-- The vector ends with `OP_DONE`. -/
lemma read_done (hl : Linked r F bc) :
    readByte bc.vector (F.pos bc.widths) = .ok (Opcode.opDone.code r) := by
  obtain ⟨d, tail, hred, hdrop⟩ := hl.drop_offset_of_cell (List.prefix_refl _)
  cases hred with
  | same => exact readByte_of_drop hdrop
  | clear _ hpush _ => exact absurd hpush (by rintro ⟨⟩)

/-- A push of a variable is read as such or as a clearing push. -/
lemma read_push {n : Nat} (hl : Linked r F bc)
    (h : (s.emitCell (.op (.opPush n)) .push k).cells <+: F.cells) :
    readByte bc.vector (s.pos bc.widths) = .ok ((Opcode.opPush n).code r) ∨
      r = true ∧ readByte bc.vector (s.pos bc.widths) = .ok ((Opcode.opPushClear n).code r) := by
  obtain ⟨d, tail, hred, hdrop⟩ := hl.drop_pos h
  cases hred with
  | same => exact Or.inl (readByte_of_drop hdrop)
  | clear hr _ hc =>
    obtain rfl : n = _ := by simpa using hc
    exact Or.inr ⟨hr, readByte_of_drop hdrop⟩

lemma read_emitExtended {o : ExtOpcode} (hl : Linked r F bc)
    (h : Grows r (s.emitExtended o) F) :
    readByte bc.vector (s.pos bc.widths) = .ok (Opcode.opExtended.code r) ∧
      readByte bc.vector (s.pos bc.widths + 1) = .ok o.code := by
  have hcell : (s.emitOp .opExtended).cells <+: F.cells :=
    (List.prefix_append _ _).trans h.cells
  obtain ⟨tail, hdrop⟩ := hl.drop_pos_of_ne (s := s.emitOp .opExtended) (by decide) h.cells
  have hpos : (s.emitOp .opExtended).pos bc.widths = s.pos bc.widths + 1 := offset_append _ _ _
  rw [hpos] at hdrop
  exact ⟨hl.read_op (by decide) hcell, readByte_of_drop hdrop⟩

lemma read_emitByte {b : Nat} (hl : Linked r F bc) (h : Grows r (s.emitByte b) F) :
    readByte bc.vector (s.pos bc.widths) = .ok b := by
  obtain ⟨tail, hdrop⟩ := hl.drop_pos_of_ne (by decide) h.cells
  have hb : b < 256 := hl.content_isSound h.cells
  rw [readByte_of_drop hdrop, Nat.mod_eq_of_lt hb]

lemma read_addVarRef {n : Nat} (hl : Linked r F bc) (h : Grows r (s.addVarRef n) F) :
    readBytes bc.vector bc.numbytesVarName (s.pos bc.widths) = .ok n := by
  have hcell : (s.addFixup (.varRef n)).cells <+: F.cells := h.cells
  obtain ⟨tail, hdrop⟩ := hl.drop_pos_of_ne (by decide) hcell
  have hn : n < 256 := hl.content_isSound hcell
  exact readBytes_of_drop hl.isProper.varName (fits_of_lt_byte hl.isProper.varName hn) hdrop

lemma read_addLiteral {v : Literal} (hl : Linked r F bc) (h : Grows r (s.addLiteral v) F) :
    readBytes bc.vector bc.numbytesLiteral (s.pos bc.widths)
      = .ok (State.literalIndex v s.gstate.literals) := by
  have hcell : (s.addFixup (.literal (State.literalIndex v s.gstate.literals))).cells
      <+: F.cells := h.cells
  obtain ⟨tail, hdrop⟩ := hl.drop_pos_of_ne (by decide) hcell
  exact readBytes_of_drop hl.isProper.literal (hl.fits_literal (hl.content_isSound hcell)) hdrop

lemma read_addFork {b : Bytecodes} (hl : Linked r F bc) (h : Grows r (s.addFork b) F) :
    readBytes bc.vector bc.numbytesFork (s.pos bc.widths)
      = .ok s.gstate.forkVectors.length := by
  have hcell : (s.addFixup (.fork s.gstate.forkVectors.length)).cells <+: F.cells := h.cells
  obtain ⟨tail, hdrop⟩ := hl.drop_pos_of_ne (by decide) hcell
  exact readBytes_of_drop hl.isProper.fork (hl.fits_fork (hl.content_isSound hcell)) hdrop

/-- A reference to a captured label reads as the offset it was captured at. -/
lemma read_known (hl : Linked r F bc) (ht : t.IsSound r) (hg : Grows r t F)
    (h : Grows r (s.addKnownLabel t.captureLabel) F) :
    readBytes bc.vector bc.numbytesLabel (s.pos bc.widths) = .ok (t.pos bc.widths) := by
  obtain ⟨tail, hdrop⟩ := hl.drop_pos_of_ne (by decide) h.cells
  simp only [Content.bytes, Fixup.bytes, State.resolve_captureLabel hl.isProper ht] at hdrop
  exact readBytes_of_drop hl.isProper.label (hl.fits_label (hg.pos_le _)) hdrop

/-- A reference to a label reads as the offset at which the label was placed. -/
lemma read_label {id : Nat} (hl : Linked r F bc) (ht : t.IsSound r)
    (hid : id < t.labels.length) (hg : Grows r (t.defineLabel id) F)
    (h : (s.addFixup (.label id)).cells <+: F.cells) :
    readBytes bc.vector bc.numbytesLabel (s.pos bc.widths) = .ok (t.pos bc.widths) := by
  obtain ⟨tail, hdrop⟩ := hl.drop_pos_of_ne (by decide) h
  have hlabel : F.labels[id]? = some (some t.captureLabel) := by
    apply hg.labels
    rw [State.defineLabel_labels, List.getElem?_set_self hid]
  have hval : labelValue F.labels id = t.captureLabel := by
    simp [labelValue, hlabel]
  simp only [Content.bytes, Fixup.bytes, hval, State.resolve_captureLabel hl.isProper ht]
    at hdrop
  exact readBytes_of_drop hl.isProper.label (hl.fits_label (hg.pos_le _)) hdrop

/-- The operands 0 and 1 that stand for no label. -/
lemma read_addPseudoLabel {n : Nat} (hl : Linked r F bc) (hn : n < 256)
    (h : Grows r (s.addPseudoLabel n) F) :
    readBytes bc.vector bc.numbytesLabel (s.pos bc.widths) = .ok n := by
  obtain ⟨tail, hdrop⟩ := hl.drop_pos_of_ne (by decide) h.cells
  have hval : (⟨n, Counts.zero⟩ : LabelValue).resolve bc.widths = n := by
    simp [LabelValue.resolve, Counts.zero]
  simp only [Content.bytes, Fixup.bytes, hval] at hdrop
  exact readBytes_of_drop hl.isProper.label (fits_of_lt_byte hl.isProper.label hn) hdrop

end Linked

end LambdaMOO
