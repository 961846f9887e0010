import LambdaMOO.CodeGen.TraceStmt
import LambdaMOO.CodeGen.Layout

/-!
# Operands as they are read

What the interpreter reads where the generator put an operand, for every program that the
parser can build. Nothing bounds the sizes in the program here, so a width may turn out
too small.
-/

namespace LambdaMOO

/-! ### Reading truncated operands -/

lemma readBytes_operandBytes {v : List Nat} {n x ptr : Nat} {tail : List Nat} (hn : IsWidth n)
    (h : v.drop ptr = operandBytes n x ++ tail) :
    readBytes v n ptr = .ok (if n = 4 then x else x % 256 ^ n) := by
  have h₀ (b : Nat) : _ → readByte v ptr = .ok b := readByte_add_of_drop 0 h
  have h₁ (b : Nat) := readByte_add_of_drop (b := b) 1 h
  rcases hn with rfl | rfl | rfl
  · rw [readBytes, if_pos rfl, h₀ _ rfl]
    rfl
  · simp only [readBytes, if_neg (show ¬ 2 = 1 by decide), if_true, h₁ _ rfl,
      h₀ _ rfl, bind, Except.bind, pure, Except.pure]
    congr 1
    rw [if_neg (by decide)]
    omega
  · exact readBytes_of_drop (Or.inr (Or.inr rfl)) (Or.inl rfl) h

lemma readBytes_eq_iff {v : List Nat} {n x ptr : Nat} {tail : List Nat} (hn : IsWidth n)
    (h : v.drop ptr = operandBytes n x ++ tail) : readBytes v n ptr = .ok x ↔ Fits n x := by
  refine ⟨fun hread => ?_, fun hx => readBytes_of_drop hn hx h⟩
  rw [readBytes_operandBytes hn h] at hread
  have hread := Except.ok.inj hread
  by_cases h4 : n = 4
  · exact Or.inl h4
  · rw [if_neg h4] at hread
    exact Or.inr (hread ▸ Nat.mod_lt _ (Nat.pow_pos (by decide)))

/-- A width chosen for the bound `m` is too small only for `m` itself, at the two places
where the width changes. -/
lemma fits_refSize_iff {x m : Nat} (h : x ≤ m) :
    Fits (refSize m) x ↔ ¬ (x = m ∧ (m = 256 ∨ m = 65536)) := by
  unfold Fits refSize
  split_ifs with h₁ h₂
  · norm_num
    omega
  · norm_num
    omega
  · simp
    omega

/-! ### Counting operands -/

def numStacks : List Operand → Nat
  | [] => 0
  | .stack _ :: ops => numStacks ops + 1
  | _ :: ops => numStacks ops

lemma numStacks_append (ops ops' : List Operand) :
    numStacks (ops ++ ops') = numStacks ops + numStacks ops' := by
  induction ops with
  | nil => simp [numStacks]
  | cons o ops ih =>
    cases o <;> simp only [List.cons_append, numStacks, ih]
    omega

lemma numStacks_eq_zero {ops : List Operand} : numStacks ops = 0 ↔ ∀ i, .stack i ∉ ops := by
  induction ops with
  | nil => simp [numStacks]
  | cons o ops ih =>
    cases o with
    | stack i => exact ⟨by rintro ⟨⟩, fun h => absurd List.mem_cons_self (h i)⟩
    | _ => simp [numStacks, ih]

lemma maxSlot_mem {ops : List Operand} (h : 0 < maxSlot ops) : .var (maxSlot ops) ∈ ops := by
  induction ops with
  | nil => simp [maxSlot] at h
  | cons o ops ih =>
    cases o with
    | var slot =>
      simp only [maxSlot] at h ⊢
      rcases Nat.le_total (maxSlot ops) slot with hle | hle
      · rw [Nat.max_eq_left hle]
        exact List.mem_cons_self
      · rw [Nat.max_eq_right hle] at h ⊢
        exact List.mem_cons_of_mem _ (ih h)
    | _ => exact List.mem_cons_of_mem _ (ih h)

def cellOperands (cs : List Cell) : List Operand := cs.filterMap fun c => c.content.operand

lemma stackRefs_countCells (cs : List Cell) : (countCells cs).stackRefs = 0 := by
  induction cs using List.reverseRecOn with
  | nil => rfl
  | append_singleton cs c ih =>
    rw [countCells_append_singleton]
    change (countCells cs).stackRefs + c.content.counts.stackRefs = 0
    rw [ih]
    match c with
    | ⟨.op _, _, _, _, _⟩ | ⟨.eop _, _, _, _, _⟩ | ⟨.byte _, _, _, _, _⟩ => rfl
    | ⟨.fixup f, _, _, _, _⟩ => cases f <;> rfl

lemma Content.width_eq_of_isReadable {w : Widths} (h : w.IsReadable) (c : Content) :
    c.width w = 1 + c.counts.extra w + numStacks c.operand.toList * (w.stack - 1) := by
  have hlabel := h.label.pos
  have hliteral := h.literal.pos
  have hfork := h.fork.pos
  have hvar := h.varName.pos
  have hstack := h.stack.pos
  match c with
  | .op _ | .eop _ | .byte _ =>
    simp [width, counts, Counts.extra, Counts.zero, operand, numStacks]
  | .fixup (.literal _) | .fixup (.fork _) | .fixup (.varRef _) | .fixup (.stack _)
  | .fixup (.label _) | .fixup (.known _) =>
    simp only [width, counts, Fixup.counts, Counts.extra, Counts.zero, operand, numStacks,
      Option.toList]
    omega

/-- `add_stack_ref` counts nothing, so heights of the stack are the operands that the sums
of `stmt_to_code` leave out. -/
lemma offset_eq_of_isReadable {w : Widths} (h : w.IsReadable) (cs : List Cell) :
    offset w cs
      = cs.length + (countCells cs).extra w + numStacks (cellOperands cs) * (w.stack - 1) := by
  induction cs using List.reverseRecOn with
  | nil => simp [offset, countCells, Counts.extra, Counts.zero, cellOperands, numStacks]
  | append_singleton cs c ih =>
    have hops : cellOperands (cs ++ [c]) = cellOperands cs ++ c.content.operand.toList := by
      rw [cellOperands, List.filterMap_append]
      congr 1
    rw [offset_append, offset_singleton, countCells_append_singleton, Counts.extra_add, hops,
      numStacks_append, Nat.add_mul, Content.width_eq_of_isReadable h, ih, List.length_append,
      List.length_singleton]
    omega

lemma countCells_append (cs ds : List Cell) :
    countCells (cs ++ ds) = (countCells cs).add (countCells ds) := by
  induction ds using List.reverseRecOn with
  | nil => simp [countCells]
  | append_singleton ds c ih =>
    rw [← List.append_assoc, countCells_append_singleton, countCells_append_singleton, ih,
      Counts.add_assoc]

lemma extra_countCells_take_le (w : Widths) (cs : List Cell) (i : Nat) :
    (countCells (cs.take i)).extra w ≤ (countCells cs).extra w := by
  conv_rhs => rw [← List.take_append_drop i cs]
  rw [countCells_append, Counts.extra_add]
  exact Nat.le_add_right _ _

lemma Content.eq_of_operand_var {c : Content} {n : Nat} (h : c.operand = some (.var n)) :
    c = .fixup (.varRef n) := by
  unfold Content.operand at h
  split at h <;> simp_all

lemma Content.eq_of_operand_stack {c : Content} {n : Nat} (h : c.operand = some (.stack n)) :
    c = .fixup (.stack n) := by
  unfold Content.operand at h
  split at h <;> simp_all

lemma Content.eq_of_operand_byte {c : Content} {n : Nat} (h : c.operand = some (.byte n)) :
    c = .byte n := by
  unfold Content.operand at h
  split at h <;> simp_all

/-! ### What a vector is made from -/

/-- The trace of the code that a vector is made for. -/
def Body.trace (b : Body) : Trace := b.code.trace [] 0

/-- The offset of the `i`-th cell. -/
def State.offsetOf (F : State) (bc : Bytecodes) (i : Nat) : Nat := offset bc.widths (F.cells.take i)

namespace Body.IsVector

variable {r : Bool} {b : Body} {F : State} {bc : Bytecodes}

lemma laid (h : b.IsVector r F bc) (hb : b.code.isBuilt [] = true) :
    F.IsConsistent ∧ F.openLabels = 0 ∧ F.operands = b.trace.operands ∧
      F.maxStack = b.trace.top := by
  obtain ⟨g, hg⟩ := h.generated
  obtain ⟨F', hF, f⟩ := generateStmts_laid (r := r) b.code (L := []) hb (d := 0)
    (State.init g) ⟨rfl, rfl, rfl⟩
  obtain rfl := Except.ok.inj (hg.symm.trans hF)
  refine ⟨f.consistent (State.isConsistent_init g), f.openLabels, f.operands, ?_⟩
  rw [f.maxStack]
  exact Nat.zero_max _

lemma isConsistent_done (h : b.IsVector r F bc) (hb : b.code.isBuilt [] = true) :
    (F.emitEndingOp .opDone).IsConsistent :=
  (h.laid hb).1.emitCell rfl trivial (by rintro ⟨⟩)

lemma isReadable (h : b.IsVector r F bc) : bc.widths.IsReadable :=
  (finishCode_eq h.finished).2.1 ▸ State.isReadable_widths _

lemma stack_eq (h : b.IsVector r F bc) (hb : b.code.isBuilt [] = true) :
    bc.widths.stack = refSize b.trace.top := by
  rw [(finishCode_eq h.finished).2.1, ← (h.laid hb).2.2.2]
  rfl

lemma varName_eq (h : b.IsVector r F bc) (hb : b.code.isBuilt [] = true) :
    bc.widths.varName = refSize (max (maxSlot b.trace.operands) b.refs) := by
  obtain ⟨hF, -, hops, -⟩ := h.laid hb
  rw [(finishCode_eq h.finished).2.1, ← h.refs, ← hops, ← hF.maxVarRef]
  rfl

/-- The bytes at the offset of a cell that is not a push. -/
lemma drop_offsetOf (h : b.IsVector r F bc) (hb : b.code.isBuilt [] = true) {i : Nat} {c : Cell}
    (hc : F.cells[i]? = some c) (hop : ∀ o, c.content ≠ .op o) :
    ∃ tail, bc.vector.drop (F.offsetOf bc i) = c.content.bytes r bc.widths F.labels ++ tail := by
  have hp : F.cells.take i ++ [c] <+: (F.emitEndingOp .opDone).cells := by
    have htake : F.cells.take i ++ [c] = F.cells.take (i + 1) := by
      rw [List.take_add_one, hc]
      rfl
    rw [htake]
    exact (List.take_prefix _ _).trans (List.prefix_append _ _)
  obtain ⟨d, tail, hred, hdrop⟩ :=
    drop_offset_of_finish h.finished (h.isConsistent_done hb).pushmap hp
  cases hred with
  | same => exact ⟨tail, hdrop⟩
  | clear _ _ hpush => exact absurd hpush (hop _)

end Body.IsVector

/-! ### Labels -/

/-- A captured label is inside of the size that was computed. -/
lemma LabelValue.IsCaptured.resolve_le {v : LabelValue} {cells : List Cell}
    (h : v.IsCaptured cells) (w : Widths) :
    v.resolve w ≤ cells.length + (countCells cells).extra w := by
  have hextra := extra_countCells_take_le w cells v.value
  have heq : v.resolve w = v.value + (countCells (cells.take v.value)).extra w := by
    rw [← h.prev]
    simp only [resolve, Counts.extra]
    omega
  rw [heq]
  exact Nat.add_le_add h.le hextra

/-- Where no operand is left out, a captured label is the offset of its cell. -/
lemma LabelValue.IsCaptured.resolve_eq {v : LabelValue} {cells : List Cell}
    (h : v.IsCaptured cells) {w : Widths} (hw : w.IsReadable)
    (hstack : w.stack = 1 ∨ numStacks (cellOperands cells) = 0) :
    v.resolve w = offset w (cells.take v.value) := by
  have hzero : numStacks (cellOperands (cells.take v.value)) * (w.stack - 1) = 0 := by
    rcases hstack with hstack | hstack
    · rw [hstack, Nat.sub_self, Nat.mul_zero]
    · have hsplit : numStacks (cellOperands (cells.take v.value))
          + numStacks (cellOperands (cells.drop v.value)) = 0 := by
        rw [← numStacks_append, cellOperands, cellOperands, ← List.filterMap_append,
          List.take_append_drop]
        exact hstack
      rw [Nat.eq_zero_of_add_eq_zero_right hsplit, Nat.zero_mul]
  rw [offset_eq_of_isReadable hw, hzero, ← h.prev, List.length_take, Nat.min_eq_left h.le]
  simp only [resolve, Counts.extra]
  omega

namespace Body.IsVector

variable {r : Bool} {b : Body} {F : State} {bc : Bytecodes}

lemma size_eq (h : b.IsVector r F bc) (hb : b.code.isBuilt [] = true) :
    bc.size = F.cells.length + 1 + (countCells F.cells).extra bc.widths := by
  obtain ⟨-, hwidths, hsize, -⟩ := finishCode_eq h.finished
  have hF := (h.laid hb).1
  have hcounts : (F.emitEndingOp .opDone).counts = countCells F.cells := hF.counted
  have hstack := stackRefs_countCells F.cells
  have hlen : (F.emitEndingOp .opDone).cells.length = F.cells.length + 1 := List.length_append
  rw [hsize, hwidths, State.baseSize, hcounts, hlen]
  simp only [Counts.extra, hstack, State.widths, Nat.mul_comm]
  omega

lemma length_vector (h : b.IsVector r F bc) (hb : b.code.isBuilt [] = true) :
    bc.vector.length = bc.size + numStacks b.trace.operands * (bc.widths.stack - 1) := by
  obtain ⟨hvector, hwidths, -, -⟩ := finishCode_eq h.finished
  have hcells : (F.emitEndingOp .opDone).cells = F.cells ++ [⟨.op .opDone, .done, F.tryDepth,
      F.curStack, 0⟩] := rfl
  have hlen (c : Cell) : (c.content.bytes r bc.widths F.labels).length
      = c.content.width bc.widths := Content.length_bytes h.isReadable _ _ _
  have hoffset : bc.vector.length = offset bc.widths (F.emitEndingOp .opDone).cells := by
    rw [hvector, ← hwidths, List.length_flatMap]
    simp only [hlen]
    rw [State.map_width_finalCells (h.isConsistent_done hb).pushmap]
    rfl
  have hops : cellOperands F.cells = b.trace.operands := (h.laid hb).2.2.1
  rw [hoffset, hcells, offset_append, offset_singleton, offset_eq_of_isReadable h.isReadable, hops,
    h.size_eq hb]
  simp only [Content.width]
  omega

/-- No label is too large for its width. -/
lemma fits_label (h : b.IsVector r F bc) {x : Nat} (hx : x < bc.size) :
    Fits bc.widths.label x := by
  obtain ⟨-, hwidths, hsize, -⟩ := finishCode_eq h.finished
  have hlabel : bc.widths.label = (F.emitEndingOp .opDone).labelSize := by
    rw [hwidths]
    rfl
  rw [hlabel]
  unfold State.labelSize at *
  unfold Fits
  split_ifs at * with h₁ h₂
  · right
    omega
  · right
    norm_num
    omega
  · exact Or.inl rfl

lemma resolve_lt_size (h : b.IsVector r F bc) (hb : b.code.isBuilt [] = true) {v : LabelValue}
    (hv : v.IsCaptured F.cells) : v.resolve bc.widths < bc.size := by
  have hle := hv.resolve_le bc.widths
  rw [h.size_eq hb]
  omega

/-- Every label of a vector is placed. -/
lemma label_placed (h : b.IsVector r F bc) (hb : b.code.isBuilt [] = true) {id : Nat}
    (hid : id < F.labels.length) :
    ∃ v, F.labels[id]? = some (some v) ∧ labelValue F.labels id = v ∧ v.IsCaptured F.cells := by
  obtain ⟨hF, hopen, -, -⟩ := h.laid hb
  have hget := List.getElem?_eq_getElem hid
  cases hv : F.labels[id] with
  | none =>
    have hmem : none ∈ F.labels := hv ▸ List.getElem_mem hid
    exact absurd (List.count_pos_iff.mpr hmem) (hopen ▸ Nat.lt_irrefl 0)
  | some v =>
    rw [hv] at hget
    refine ⟨v, hget, ?_, hF.labels v (hv ▸ List.getElem_mem hid)⟩
    simp [labelValue, hget]

end Body.IsVector

/-! ### Operands of several bytes -/

/-- The value that is written for an operand. -/
def Fixup.value (w : Widths) (labels : List (Option LabelValue)) : Fixup → Nat
  | .literal i | .fork i | .stack i => i
  | .varRef slot => slot
  | .label id => (labelValue labels id).resolve w
  | .known v => v.resolve w

def Fixup.width (w : Widths) : Fixup → Nat
  | .literal _ => w.literal
  | .fork _ => w.fork
  | .varRef _ => w.varName
  | .stack _ => w.stack
  | .label _ | .known _ => w.label

lemma Fixup.bytes_eq (w : Widths) (labels : List (Option LabelValue)) (f : Fixup) :
    f.bytes w labels = operandBytes (f.width w) (f.value w labels) := by
  cases f <;> rfl

lemma Fixup.isWidth {w : Widths} (h : w.IsReadable) (f : Fixup) : IsWidth (f.width w) := by
  cases f with
  | literal => exact h.literal
  | fork => exact h.fork
  | varRef => exact h.varName
  | stack => exact h.stack
  | label => exact h.label
  | known => exact h.label

/-- `READ_BYTES` finds the operand at its place, at the width recorded for its kind. -/
def State.ReadsOperand (F : State) (bc : Bytecodes) (i : Nat) (f : Fixup) : Prop :=
  readBytes bc.vector (f.width bc.widths) (F.offsetOf bc i) = .ok (f.value bc.widths F.labels)

def State.ReadsOperands (F : State) (bc : Bytecodes) : Prop :=
  ∀ i c f, F.cells[i]? = some c → c.content = .fixup f → F.ReadsOperand bc i f

/-- No slot and no height of the stack is 256, or 65536, where that is also the bound that
the width was chosen for. -/
def Body.OperandsFit (b : Body) : Prop :=
  ∀ n, n = 256 ∨ n = 65536 →
    ¬ (maxSlot b.trace.operands = n ∧ b.refs ≤ n) ∧ ¬ (b.trace.top = n ∧ .stack n ∈ b.trace.operands)

namespace Body.IsVector

variable {r : Bool} {b : Body} {F : State} {bc : Bytecodes}

lemma readsOperand_iff (h : b.IsVector r F bc) (hb : b.code.isBuilt [] = true) {i : Nat} {c : Cell}
    {f : Fixup} (hc : F.cells[i]? = some c) (hf : c.content = .fixup f) :
    F.ReadsOperand bc i f ↔ Fits (f.width bc.widths) (f.value bc.widths F.labels) := by
  obtain ⟨tail, hdrop⟩ := h.drop_offsetOf hb hc (by rw [hf]; rintro _ ⟨⟩)
  rw [hf] at hdrop
  simp only [Content.bytes, Fixup.bytes_eq] at hdrop
  exact readBytes_eq_iff (Fixup.isWidth h.isReadable f) hdrop

lemma fits_literal (h : b.IsVector r F bc) {i : Nat} (hi : i < F.gstate.literals.length) :
    Fits bc.widths.literal i := by
  rw [(finishCode_eq h.finished).2.1]
  exact Linked.fits_of_lt_refSize (Nat.lt_of_lt_of_le hi (Nat.le_max_right _ _))

lemma fits_fork (h : b.IsVector r F bc) {i : Nat} (hi : i < F.gstate.forkVectors.length) :
    Fits bc.widths.fork i := by
  rw [(finishCode_eq h.finished).2.1]
  exact Linked.fits_of_lt_refSize (Nat.lt_of_lt_of_le hi (Nat.le_max_right _ _))

/-- Variable slots are within the maximum that their width is chosen for. -/
lemma fits_varRef_iff (h : b.IsVector r F bc) (hb : b.code.isBuilt [] = true) {slot : Nat}
    (hslot : .var slot ∈ b.trace.operands) :
    Fits bc.widths.varName slot
      ↔ ¬ ((slot = 256 ∨ slot = 65536) ∧ maxSlot b.trace.operands = slot ∧ b.refs ≤ slot) := by
  have hle := le_maxSlot hslot
  rw [h.varName_eq hb, fits_refSize_iff (Nat.le_trans hle (Nat.le_max_left _ _))]
  omega

lemma fits_stack_iff (h : b.IsVector r F bc) (hb : b.code.isBuilt [] = true) {i : Nat}
    (hi : i ≤ b.trace.top) :
    Fits bc.widths.stack i ↔ ¬ ((i = 256 ∨ i = 65536) ∧ b.trace.top = i) := by
  rw [h.stack_eq hb, fits_refSize_iff hi]
  omega

/-- Literals, forks and labels always fit. -/
lemma operands_iff (h : b.IsVector r F bc) (hb : b.code.isBuilt [] = true) :
    F.ReadsOperands bc ↔ b.OperandsFit := by
  obtain ⟨hF, -, hops, htop⟩ := h.laid hb
  have hmem (i : Nat) (c : Cell) (o : Operand) (hc : F.cells[i]? = some c)
      (ho : c.content.operand = some o) : o ∈ b.trace.operands := by
    rw [← hops]
    exact List.mem_filterMap.mpr ⟨c, List.mem_of_getElem? hc, ho⟩
  have hcell (o : Operand) (ho : o ∈ b.trace.operands) :
      ∃ (i : Nat) (c : Cell), F.cells[i]? = some c ∧ c.content.operand = some o := by
    rw [← hops] at ho
    obtain ⟨c, hc, hco⟩ := List.mem_filterMap.mp ho
    obtain ⟨i, hi⟩ := List.mem_iff_getElem?.mp hc
    exact ⟨i, c, hi, hco⟩
  constructor
  · intro hread n hn
    refine ⟨fun ⟨hmax, hrefs⟩ => ?_, fun ⟨htopn, hstack⟩ => ?_⟩
    · have hvar : .var n ∈ b.trace.operands := hmax ▸ maxSlot_mem (by omega)
      obtain ⟨i, c, hc, ho⟩ := hcell _ hvar
      have hf : c.content = .fixup (.varRef n) := Content.eq_of_operand_var ho
      have hfits := (h.readsOperand_iff hb hc hf).mp (hread i c _ hc hf)
      exact (h.fits_varRef_iff hb hvar).mp hfits ⟨hn, hmax, hrefs⟩
    · obtain ⟨i, c, hc, ho⟩ := hcell _ hstack
      have hf : c.content = .fixup (.stack n) := Content.eq_of_operand_stack ho
      have hfits := (h.readsOperand_iff hb hc hf).mp (hread i c _ hc hf)
      exact (h.fits_stack_iff hb (Nat.le_of_eq htopn.symm)).mp hfits ⟨hn, htopn⟩
  · intro hfit i c f hc hf
    rw [h.readsOperand_iff hb hc hf]
    have hcons := hF.cells c (List.mem_of_getElem? hc)
    rw [hf] at hcons
    match f with
    | .literal j => exact h.fits_literal hcons
    | .fork j => exact h.fits_fork hcons
    | .varRef slot =>
      have hvar := hmem i c (.var slot) hc (by rw [hf]; rfl)
      exact (h.fits_varRef_iff hb hvar).mpr fun ⟨hn, hmax⟩ => (hfit slot hn).1 hmax
    | .stack j =>
      have hstack := hmem i c (.stack j) hc (by rw [hf]; rfl)
      exact (h.fits_stack_iff hb (htop ▸ hcons)).mpr fun ⟨hn, htopn⟩ => (hfit j hn).2 ⟨htopn, hstack⟩
    | .label id =>
      obtain ⟨v, -, hv, hcap⟩ := h.label_placed hb hcons
      rw [Fixup.value, hv]
      exact h.fits_label (h.resolve_lt_size hb hcap)
    | .known v =>
      rcases hcons with hcap | ⟨n, hn, rfl⟩
      · exact h.fits_label (h.resolve_lt_size hb hcap)
      · have hval : (⟨n, Counts.zero⟩ : LabelValue).resolve bc.widths = n := by
          simp [LabelValue.resolve, Counts.zero]
        rw [Fixup.value, hval]
        exact Linked.fits_of_lt_byte h.isReadable.label (by omega)

end Body.IsVector

/-! ### The size of a vector and its labels -/

/-- A label operand reads as the offset of the cell that its label was captured at. The
operands 0 and 1 of a scattering assignment stand for no label. -/
def State.ReadsLabel (F : State) (bc : Bytecodes) (i : Nat) : Fixup → Prop
  | .label id => ∃ v, F.labels[id]? = some (some v) ∧
      readBytes bc.vector bc.numbytesLabel (F.offsetOf bc i) = .ok (F.offsetOf bc v.value)
  | .known v =>
    readBytes bc.vector bc.numbytesLabel (F.offsetOf bc i) = .ok (F.offsetOf bc v.value) ∨
      ∃ n ≤ 1, v = ⟨n, Counts.zero⟩ ∧
        readBytes bc.vector bc.numbytesLabel (F.offsetOf bc i) = .ok n
  | _ => True

def State.ReadsLabels (F : State) (bc : Bytecodes) : Prop :=
  ∀ i c f, F.cells[i]? = some c → c.content = .fixup f → F.ReadsLabel bc i f

/-- Heights of the stack take one byte, or there is none. -/
def Body.StackRefsFit (b : Body) : Prop :=
  b.trace.top ≤ 256 ∨ ∀ i, .stack i ∉ b.trace.operands

namespace Body.IsVector

variable {r : Bool} {b : Body} {F : State} {bc : Bytecodes}

lemma stack_eq_one_iff (h : b.IsVector r F bc) (hb : b.code.isBuilt [] = true) :
    bc.widths.stack = 1 ↔ b.trace.top ≤ 256 := by
  rw [h.stack_eq hb]
  unfold refSize
  split_ifs <;> simp_all

/-- What is written exceeds the size allocated by what `add_stack_ref` does not count. -/
lemma length_eq_size_iff (h : b.IsVector r F bc) (hb : b.code.isBuilt [] = true) :
    bc.vector.length = bc.size ↔ b.StackRefsFit := by
  have hpos := h.isReadable.stack.pos
  rw [h.length_vector hb, Body.StackRefsFit, ← h.stack_eq_one_iff hb, ← numStacks_eq_zero]
  constructor
  · intro hlen
    have hzero : numStacks b.trace.operands * (bc.widths.stack - 1) = 0 := by omega
    rcases Nat.mul_eq_zero.mp hzero with hzero | hzero
    · exact .inr hzero
    · exact .inl (by omega)
  · rintro (hone | hzero)
    · rw [hone, Nat.sub_self, Nat.mul_zero, Nat.add_zero]
    · rw [hzero, Nat.zero_mul, Nat.add_zero]

/-- The cells behind a captured label begin at the label. -/
lemma resolve_eq (h : b.IsVector r F bc) (hb : b.code.isBuilt [] = true) (hfit : b.StackRefsFit)
    {v : LabelValue} (hv : v.IsCaptured F.cells) :
    v.resolve bc.widths = F.offsetOf bc v.value := by
  have hops : cellOperands F.cells = b.trace.operands := (h.laid hb).2.2.1
  refine hv.resolve_eq h.isReadable ?_
  rw [hops, h.stack_eq_one_iff hb, numStacks_eq_zero]
  exact hfit

lemma readsLabels (h : b.IsVector r F bc) (hb : b.code.isBuilt [] = true)
    (hfit : b.StackRefsFit) : F.ReadsLabels bc := by
  intro i c f hc hf
  have hcons := (h.laid hb).1.cells c (List.mem_of_getElem? hc)
  rw [hf] at hcons
  have hread := h.readsOperand_iff hb hc hf
  match f with
  | .literal _ | .fork _ | .varRef _ | .stack _ => trivial
  | .label id =>
    obtain ⟨v, hget, hv, hcap⟩ := h.label_placed hb hcons
    rw [State.ReadsOperand, Fixup.value, hv] at hread
    refine ⟨v, hget, ?_⟩
    rw [← h.resolve_eq hb hfit hcap]
    exact hread.mpr (h.fits_label (h.resolve_lt_size hb hcap))
  | .known v =>
    rw [State.ReadsOperand, Fixup.value] at hread
    rcases hcons with hcap | ⟨n, hn, rfl⟩
    · left
      rw [← h.resolve_eq hb hfit hcap]
      exact hread.mpr (h.fits_label (h.resolve_lt_size hb hcap))
    · right
      have hval : (⟨n, Counts.zero⟩ : LabelValue).resolve bc.widths = n := by
        simp [LabelValue.resolve, Counts.zero]
      rw [hval] at hread
      exact ⟨n, hn, rfl, hread.mpr (Linked.fits_of_lt_byte h.isReadable.label (by omega))⟩

lemma size_and_labels_iff (h : b.IsVector r F bc) (hb : b.code.isBuilt [] = true) :
    (bc.vector.length = bc.size ∧ F.ReadsLabels bc) ↔ b.StackRefsFit :=
  ⟨fun ⟨hlen, _⟩ => (h.length_eq_size_iff hb).mp hlen,
    fun hfit => ⟨(h.length_eq_size_iff hb).mpr hfit, h.readsLabels hb hfit⟩⟩

end Body.IsVector

/-! ### Single bytes -/

def State.ReadsCounts (F : State) (bc : Bytecodes) : Prop :=
  ∀ i c x, F.cells[i]? = some c → c.content = .byte x →
    readByte bc.vector (F.offsetOf bc i) = .ok x

lemma Body.IsVector.counts_iff {r : Bool} {b : Body} {F : State} {bc : Bytecodes}
    (h : b.IsVector r F bc) (hb : b.code.isBuilt [] = true) :
    F.ReadsCounts bc ↔ ∀ x, .byte x ∈ b.trace.operands → x < 256 := by
  have hread (i : Nat) (c : Cell) (x : Nat) (hc : F.cells[i]? = some c)
      (hx : c.content = .byte x) : readByte bc.vector (F.offsetOf bc i) = .ok (x % 256) := by
    obtain ⟨tail, hdrop⟩ := h.drop_offsetOf hb hc (by rw [hx]; rintro _ ⟨⟩)
    rw [hx] at hdrop
    exact readByte_of_drop hdrop
  rw [← (h.laid hb).2.2.1]
  constructor
  · intro hcounts x hmem
    obtain ⟨c, hc, ho⟩ := List.mem_filterMap.mp hmem
    obtain ⟨i, hi⟩ := List.mem_iff_getElem?.mp hc
    have hx := Content.eq_of_operand_byte ho
    have heq := Except.ok.inj ((hread i c x hi hx).symm.trans (hcounts i c x hi hx))
    exact heq ▸ Nat.mod_lt x (by decide)
  · intro hlt i c x hc hx
    rw [hread i c x hc hx, Nat.mod_eq_of_lt]
    exact hlt x (List.mem_filterMap.mpr ⟨c, List.mem_of_getElem? hc, by rw [hx]; rfl⟩)

/-! ### Programs -/

/-- Every operand of every vector of the program reads as what was written. -/
def StmtList.ReadsOperands (r : Bool) (ss : StmtList) : Prop :=
  ∃ p, generateCode r ss = .ok p ∧ ∀ F bc, p.HasVector r ss F bc → F.ReadsOperands bc

/-- Every vector has the size allocated for it, and its labels read as the offsets of what
they were captured at. -/
def StmtList.HasLayout (r : Bool) (ss : StmtList) : Prop :=
  ∃ p, generateCode r ss = .ok p ∧
    ∀ F bc, p.HasVector r ss F bc → bc.vector.length = bc.size ∧ F.ReadsLabels bc

/-- Every raw byte reads as the count that was written. -/
def StmtList.ReadsCounts (r : Bool) (ss : StmtList) : Prop :=
  ∃ p, generateCode r ss = .ok p ∧ ∀ F bc, p.HasVector r ss F bc → F.ReadsCounts bc

/-- `forall_vectors_iff` for the only program there is. -/
lemma exists_forall_vectors_iff {r : Bool} {ss : StmtList} (hb : ss.isBuilt [] = true)
    {P : State → Bytecodes → Prop} {Q : Body → Prop}
    (h : ∀ b F bc, b.code.isBuilt [] = true → b.IsVector r F bc → (P F bc ↔ Q b)) :
    (∃ p, generateCode r ss = .ok p ∧ ∀ F bc, p.HasVector r ss F bc → P F bc)
      ↔ ∀ b ∈ ss.bodies, Q b := by
  obtain ⟨p, hp, hiff⟩ := forall_vectors_iff hb h
  constructor
  · rintro ⟨p', hp', hP⟩
    obtain rfl := Except.ok.inj (hp.symm.trans hp')
    exact hiff.mp hP
  · exact fun hQ => ⟨p, hp, hiff.mpr hQ⟩

end LambdaMOO
