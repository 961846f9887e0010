import LambdaMOO.CodeGen.Trace
import Mathlib.Data.List.Forall2

/-!
# Laying down code

Each operation of the generator lays down a trace, and traces are joined when operations
follow each other.
-/

namespace LambdaMOO

lemma Traces.trans {r : Bool} {P : Set Nat} {a b : Trace} {s t u : State} (h : Traces r P a s t)
    (k : Traces r P b t u) : Traces r P (a ++ b) s u where
  operands := by rw [k.operands, h.operands, List.append_assoc, Trace.append_operands]
  maxStack := by rw [k.maxStack, h.maxStack, Nat.max_assoc, Trace.append_top]
  refs := by rw [k.refs, h.refs, Nat.add_assoc, Trace.append_refs]
  forks := by
    obtain ⟨bcs, hbcs, hall⟩ := h.forks
    obtain ⟨bcs', hbcs', hall'⟩ := k.forks
    refine ⟨bcs ++ bcs', by rw [hbcs', hbcs, List.append_assoc], ?_⟩
    rw [Trace.append_bodies, List.map_append]
    refine List.rel_append hall ?_
    have hshift : (b.bodies.map (Body.shift a.refs)).map (Body.shift s.gstate.totalVarRefs)
        = b.bodies.map (Body.shift t.gstate.totalVarRefs) := by
      rw [List.map_map, h.refs]
      apply List.map_congr_left
      intro body _
      simp [Body.shift, Nat.add_assoc]
    rw [hshift]
    exact hall'
  cells := h.cells.trans k.cells
  literals := Nat.le_trans h.literals k.literals
  labels id v hid hv := k.labels id v hid (h.labels id v hid hv)
  labelCount := Nat.le_trans h.labelCount k.labelCount
  savedStack := k.savedStack.trans h.savedStack
  loops := k.loops.trans h.loops

/-- A cell that is not an operand. -/
lemma Traces.emitCell {r : Bool} {P : Set Nat} {s : State} {c : Content} (p : PushMap) (k : Int)
    (hop : c.operand = none) : Traces r P .empty s (s.emitCell c p k) where
  operands := by
    rw [State.operands, State.emitCell_cells, List.filterMap_append]
    simp [hop, State.operands, Trace.empty]
  maxStack := (Nat.max_zero _).symm
  refs := rfl
  forks := ⟨[], (List.append_nil _).symm, .nil⟩
  cells := List.prefix_append _ _
  literals := Nat.le_refl _
  labels _ _ _ h := h
  labelCount := Nat.le_refl _
  savedStack := rfl
  loops := rfl

namespace Lays

variable {r : Bool} {P Q : Set Nat} {a b : Trace} {s t u : State}

lemma precedes (h : Lays r P a s t) : s.Precedes t where
  cells := h.cells
  literals := h.literals
  forkVectors := by
    obtain ⟨bcs, hbcs, _⟩ := h.forks
    rw [hbcs, List.length_append]
    exact Nat.le_add_right _ _
  maxStack := by
    rw [h.maxStack]
    exact Nat.le_max_left _ _
  labels := h.labelCount

lemma refl (P : Set Nat) (s : State) : Lays r P .empty s s where
  operands := (List.append_nil _).symm
  maxStack := (Nat.max_zero _).symm
  refs := rfl
  forks := ⟨[], (List.append_nil _).symm, .nil⟩
  cells := List.prefix_rfl
  literals := Nat.le_refl _
  labels _ _ _ h := h
  labelCount := Nat.le_refl _
  savedStack := rfl
  loops := rfl
  consistent := id

/-- The precondition of the second piece may rest on a consistent beginning. -/
lemma trans_of (h : Lays r P a s t) (k : Traces r P b t u)
    (hu : s.IsConsistent → t.IsConsistent → u.IsConsistent) : Lays r P (a ++ b) s u :=
  { h.toTraces.trans k with consistent := fun hs => hu hs (h.consistent hs) }

lemma trans (h : Lays r P a s t) (k : Lays r P b t u) : Lays r P (a ++ b) s u :=
  h.trans_of k.toTraces fun _ ht => k.consistent ht

lemma mono (h : Lays r P a s t) (hPQ : P ⊆ Q) : Lays r Q a s t :=
  { h with labels := fun id v hid hv => h.labels id v (fun hp => hid (hPQ hp)) hv }

/-- The labels placed are newer than `s`. -/
lemma close (h : Lays r P a s t) (hP : ∀ id ∈ P, s.labels.length ≤ id) : Lays r Q a s t :=
  { h with
    labels := fun id v _ hv => by
      have hlt := (List.getElem?_eq_some_iff.mp hv).1
      exact h.labels id v (fun hp => Nat.not_lt.mpr (hP id hp) hlt) hv }

lemma cast (h : Lays r P a s t) (hab : a = b) : Lays r P b s t := hab ▸ h

lemma getElem?_labels (h : Lays r ∅ a s t) {id : Nat} {v : Option LabelValue}
    (hv : s.labels[id]? = some v) : t.labels[id]? = some v :=
  h.labels id v (Set.notMem_empty id) hv

/-! ### Steps that emit nothing -/

/-- A step that touches neither cells, labels, loops nor tables. -/
lemma of_eq (hc : t.cells = s.cells) (hn : t.counts = s.counts) (hv : t.maxVarRef = s.maxVarRef)
    (hl : t.labels = s.labels) (hg : t.gstate = s.gstate) (hm : t.maxStack = max s.maxStack a.top)
    (hs : t.savedStack = s.savedStack) (hp : t.loops = s.loops)
    (hk : s.curStack ≤ s.maxStack → t.curStack ≤ t.maxStack)
    (ha : a.operands = [] ∧ a.refs = 0 ∧ a.bodies = []) : Lays r P a s t := by
  obtain ⟨hops, hrefs, hbodies⟩ := ha
  have hst : s.Precedes t := ⟨hc ▸ List.prefix_rfl, by rw [hg], by rw [hg],
    by rw [hm]; exact Nat.le_max_left _ _, by rw [hl]⟩
  exact {
    operands := by rw [hops, State.operands, hc, List.append_nil, State.operands]
    maxStack := hm
    refs := by rw [hg, hrefs, Nat.add_zero]
    forks := ⟨[], by rw [hg, List.append_nil], by rw [hbodies]; exact .nil⟩
    cells := hst.cells
    literals := hst.literals
    labels := fun id v _ hv => hl ▸ hv
    labelCount := hst.labels
    savedStack := hs
    loops := hp
    consistent := fun h => h.of_eq hst hc hn hv (hk h.stack)
      (fun k hmem => Nat.le_trans (h.saved k (hs ▸ hmem)) hst.maxStack)
      (fun v hmem => .inl (hl ▸ hmem)) (fun l hmem => .inl (hp ▸ hmem)) }

lemma pushStack (n : Nat) : Lays r P (.push (s.curStack + n)) s (s.pushStack n) :=
  of_eq rfl rfl rfl rfl rfl rfl rfl rfl (fun _ => Nat.le_max_right _ _) ⟨rfl, rfl, rfl⟩

/-- `pushStack` with the level written in another way. -/
lemma pushStack_of {n d : Nat} (h : s.curStack + n = d) : Lays r P (.push d) s (s.pushStack n) :=
  h ▸ pushStack n

lemma popStack (n : Nat) : Lays r P .empty s (s.popStack n) :=
  of_eq rfl rfl rfl rfl rfl (Nat.max_zero _).symm rfl rfl
    (fun h => Nat.le_trans (Nat.sub_le _ _) h) ⟨rfl, rfl, rfl⟩

lemma incrTryDepth : Lays r P .empty s s.incrTryDepth :=
  of_eq rfl rfl rfl rfl rfl (Nat.max_zero _).symm rfl rfl id ⟨rfl, rfl, rfl⟩

lemma decrTryDepth : Lays r P .empty s s.decrTryDepth :=
  of_eq rfl rfl rfl rfl rfl (Nat.max_zero _).symm rfl rfl id ⟨rfl, rfl, rfl⟩

/-! ### Steps that emit a cell -/

/-- One more cell and, at the same time, longer tables. -/
lemma emitWith {c : Cell} (hc : t.cells = s.cells ++ [c])
    (hn : t.counts = s.counts.add c.content.counts)
    (hv : t.maxVarRef = max s.maxVarRef (maxSlot c.content.operand.toList))
    (hk : t.curStack = s.curStack) (hm : t.maxStack = s.maxStack)
    (hs : t.savedStack = s.savedStack) (hl : t.labels = s.labels) (hp : t.loops = s.loops)
    (hlit : s.gstate.literals.length ≤ t.gstate.literals.length)
    (hfork : t.gstate.forkVectors = s.gstate.forkVectors)
    (hr : t.gstate.totalVarRefs = s.gstate.totalVarRefs + numRefs c.content.operand.toList)
    (hcons : s.IsConsistent → c.content.IsConsistent t)
    (hpush : c.pushmap = .push → ∃ n, c.content = .op (.opPush n)) :
    Lays r P ⟨c.content.operand.toList, 0, numRefs c.content.operand.toList, []⟩ s t := by
  have hst : s.Precedes t := ⟨hc ▸ List.prefix_append _ _, hlit, by rw [hfork], by rw [hm],
    by rw [hl]⟩
  exact {
    operands := by
      rw [State.operands, hc, List.filterMap_append]
      rfl
    maxStack := hm.trans (Nat.max_zero _).symm
    refs := hr
    forks := ⟨[], by rw [hfork, List.append_nil], .nil⟩
    cells := hst.cells
    literals := hlit
    labels := fun id v _ hv => hl ▸ hv
    labelCount := hst.labels
    savedStack := hs
    loops := hp
    consistent := fun h => h.emitWith hst hc hn hv hk hs hl hp (hcons h) hpush }

lemma emitCell {c : Content} {p : PushMap} (k : Int) (hop : c.operand = none)
    (hcons : s.IsConsistent → c.IsConsistent s)
    (hpush : p = .push → ∃ n, c = .op (.opPush n)) : Lays r P .empty s (s.emitCell c p k) :=
  { Traces.emitCell p k hop with
    consistent := fun hs => State.IsConsistent.emitCell hs hop (hcons hs) hpush }

lemma emitOp (o : Opcode) : Lays r P .empty s (s.emitOp o) :=
  emitCell 0 rfl (fun _ => trivial) (by rintro ⟨⟩)

lemma emitEndingOp (o : Opcode) : Lays r P .empty s (s.emitEndingOp o) :=
  emitCell 0 rfl (fun _ => trivial) (by rintro ⟨⟩)

lemma emitCallVerbOp (o : Opcode) : Lays r P .empty s (s.emitCallVerbOp o) :=
  emitCell 0 rfl (fun _ => trivial) (by rintro ⟨⟩)

lemma emitSkewed (o : Opcode) (k : Int) : Lays r P .empty s (s.emitSkewed o k) :=
  emitCell k rfl (fun _ => trivial) (by rintro ⟨⟩)

lemma emitExtended (o : ExtOpcode) : Lays r P .empty s (s.emitExtended o) :=
  trans (b := .empty) (emitOp _) (emitCell 0 rfl (fun _ => trivial) (by rintro ⟨⟩))

lemma emitBinary (op : BinOp) : Lays r P .empty s (s.emitBinary op) := by
  cases op
  all_goals first
    | exact emitOp _
    | exact emitExtended _

lemma emitUnary (op : UnOp) : Lays r P .empty s (s.emitUnary op) := by
  cases op with
  | negate => exact emitOp _
  | not => exact emitOp _
  | complement => exact emitExtended _

lemma emitByte (b : Nat) : Lays r P (.op (.byte b)) s (s.emitByte b) :=
  emitWith (c := ⟨.byte b, .none, s.tryDepth, s.curStack, 0⟩) rfl rfl (Nat.max_zero _).symm rfl rfl
    rfl rfl rfl (Nat.le_refl _) rfl rfl (fun _ => trivial) (by rintro ⟨⟩)

lemma addStackRef {i : Nat} (hi : s.IsConsistent → i ≤ s.maxStack) :
    Lays r P (.op (.stack i)) s (s.addStackRef i) :=
  emitWith (c := ⟨.fixup (.stack i), .none, s.tryDepth, s.curStack, 0⟩) rfl rfl
    (Nat.max_zero _).symm rfl rfl rfl rfl rfl (Nat.le_refl _) rfl rfl hi (by rintro ⟨⟩)

lemma addVarRef (n : Nat) : Lays r P (.op (.var n)) s (s.addVarRef n) :=
  emitWith (c := ⟨.fixup (.varRef n), .none, s.tryDepth, s.curStack, 0⟩) rfl rfl
    (by change max s.maxVarRef n = max s.maxVarRef (max n 0); rw [Nat.max_zero]) rfl rfl rfl rfl rfl
    (Nat.le_refl _) rfl rfl (fun _ => trivial) (by rintro ⟨⟩)

lemma addFixup_label {id : Nat} (h : id < s.labels.length) :
    Lays r P .empty s (s.addFixup (.label id)) :=
  emitCell 0 rfl (fun _ => h) (by rintro ⟨⟩)

lemma addPseudoLabel {n : Nat} (h : n ≤ 1) : Lays r P .empty s (s.addPseudoLabel n) :=
  emitCell 0 rfl (fun _ => .inr ⟨n, h, rfl⟩) (by rintro ⟨⟩)

lemma addKnownLabel (h : Lays r P a s t) {v : LabelValue}
    (hv : s.IsConsistent → v.IsCaptured t.cells) : Lays r P a s (t.addKnownLabel v) :=
  (h.trans_of (Traces.emitCell .none 0 rfl) fun hs ht =>
    ht.emitCell (c := .fixup (.known v)) rfl (Or.inl (hv hs)) (by rintro ⟨⟩)).cast (Trace.append_empty a)

lemma addLiteral (v : Literal) : Lays r P .empty s (s.addLiteral v) := by
  have hle : State.literalIndex v s.gstate.literals ≤ s.gstate.literals.length :=
    List.findIdx_le_length
  refine emitWith (c := ⟨.fixup (.literal (State.literalIndex v s.gstate.literals)), .none,
    s.tryDepth, s.curStack, 0⟩) rfl rfl (Nat.max_zero _).symm rfl rfl rfl rfl rfl ?_ rfl rfl
    (fun _ => ?_) (by rintro ⟨⟩)
  · rw [State.addLiteral_gstate_literals]
    split_ifs
    · simp
    · exact Nat.le_refl _
  · change _ < List.length _
    rw [State.addLiteral_gstate_literals]
    split_ifs with h
    · rw [List.length_append, h, List.length_singleton]
      exact Nat.lt_succ_self _
    · exact Nat.lt_of_le_of_ne hle h

lemma emitPut (n : Nat) : Lays r P (slotTrace n) s (s.emitPut n) := by
  unfold State.emitPut slotTrace
  split_ifs
  · exact (trans (emitOp _) (addVarRef n)).cast (Trace.empty_append _)
  · exact emitCell 0 rfl (fun _ => trivial) (by rintro ⟨⟩)

lemma emitPush (n : Nat) : Lays r P (slotTrace n) s (s.emitPush n) := by
  unfold State.emitPush slotTrace
  split_ifs
  · exact (trans (emitOp _) (addVarRef n)).cast (Trace.empty_append _)
  · exact emitCell 0 rfl (fun _ => trivial) fun _ => ⟨n, rfl⟩

lemma emitExceptPut (slot : Option Nat) :
    Lays r P ((slot.map slotTrace).getD .empty) s (s.emitExceptPut slot) := by
  cases slot with
  | none => exact refl P s
  | some n => exact emitPut n

lemma emitWhile (slot : Option Nat) : Lays r P (optionTrace slot) s (s.emitWhile slot) := by
  cases slot with
  | none => exact emitOp _
  | some n => exact (trans (emitExtended _) (addVarRef n)).cast (Trace.empty_append _)

lemma addForkId (slot : Option Nat) : Lays r P (optionTrace slot) s (s.addForkId slot) := by
  cases slot with
  | none => exact refl P s
  | some n => exact addVarRef n

lemma generateExit (exit : Option Nat) :
    Lays r P (optionTrace exit) s (LambdaMOO.generateExit exit s) := by
  cases exit with
  | none => exact emitExtended _
  | some n => exact (trans (emitExtended _) (addVarRef n)).cast (Trace.empty_append _)

/-! ### Labels -/

lemma newLabel : Lays r P .empty s s.newLabel where
  operands := (List.append_nil _).symm
  maxStack := (Nat.max_zero _).symm
  refs := rfl
  forks := ⟨[], (List.append_nil _).symm, .nil⟩
  cells := List.prefix_rfl
  literals := Nat.le_refl _
  labels id v _ h := by
    have hlt := (List.getElem?_eq_some_iff.mp h).1
    rw [State.newLabel_labels, List.getElem?_append_left hlt]
    exact h
  labelCount := by simp
  savedStack := rfl
  loops := rfl
  consistent hs := by
    refine hs.of_eq ⟨List.prefix_rfl, Nat.le_refl _, Nat.le_refl _, Nat.le_refl _,
      by simp⟩ rfl rfl
      rfl hs.stack hs.saved (fun v hv => .inl ?_) fun l hl => .inl hl
    simpa using hv

lemma addLabel : Lays r P .empty s s.addLabel := by
  have hcell : Lays r P .empty s.newLabel (s.newLabel.addFixup (.label s.labels.length)) :=
    addFixup_label (by simp)
  exact newLabel.trans hcell

/-- Placing a label that `s` does not have. -/
lemma defineLabel (h : Lays r P a s t) {id : Nat} (hid : s.labels.length ≤ id) :
    Lays r P a s (t.defineLabel id) where
  operands := h.operands
  maxStack := h.maxStack
  refs := h.refs
  forks := h.forks
  cells := h.cells
  literals := h.literals
  labels id' v hid' hv := by
    have hlt := (List.getElem?_eq_some_iff.mp hv).1
    rw [State.getElem?_defineLabel_ne (by omega)]
    exact h.labels id' v hid' hv
  labelCount := by
    rw [State.defineLabel_labels, List.length_set]
    exact h.labelCount
  savedStack := h.savedStack
  loops := h.loops
  consistent hs := by
    have ht := h.consistent hs
    refine ht.of_eq (.of_eq rfl rfl rfl (by simp)) rfl rfl
      rfl ht.stack ht.saved (fun v hv => ?_) fun l hl => .inl hl
    rw [State.defineLabel_labels] at hv
    rcases List.mem_or_eq_of_mem_set hv with hv | hv
    · exact .inl hv
    · obtain rfl := Option.some.inj hv
      refine .inr ⟨Nat.le_refl _, ?_⟩
      rw [State.captureLabel, List.take_length]
      exact ht.counted

/-- One label and the code behind it. -/
lemma of_defineLabel {id : Nat} (hid : id ∈ P) (h : Lays r ∅ a (s.defineLabel id) t) :
    Lays r P a s t where
  operands := h.operands
  maxStack := h.maxStack
  refs := h.refs
  forks := h.forks
  cells := h.cells
  literals := h.literals
  labels id' v hid' hv := by
    apply h.getElem?_labels
    rw [State.getElem?_defineLabel_ne (by rintro rfl; exact hid' hid)]
    exact hv
  labelCount := by simpa using h.labelCount
  savedStack := h.savedStack
  loops := h.loops
  consistent hs := by
    refine h.consistent (hs.of_eq (.of_eq rfl rfl rfl (by simp)) rfl rfl rfl hs.stack hs.saved
      (fun v hv => ?_) fun l hl => .inl hl)
    rw [State.defineLabel_labels] at hv
    rcases List.mem_or_eq_of_mem_set hv with hv | hv
    · exact .inl hv
    · obtain rfl := Option.some.inj hv
      refine .inr ⟨Nat.le_refl _, ?_⟩
      rw [State.captureLabel, List.take_length]
      exact hs.counted

/-! ### Regions -/

/-- The saved stack top is put back. -/
lemma restoreStackTop (h : Lays r P a s.saveStackTop t) :
    Lays r P a s (t.restoreStackTop s.savedStack) where
  operands := h.operands
  maxStack := h.maxStack
  refs := h.refs
  forks := h.forks
  cells := h.cells
  literals := h.literals
  labels := h.labels
  labelCount := h.labelCount
  savedStack := rfl
  loops := h.loops
  consistent hs := by
    have hsave : s.saveStackTop.IsConsistent := by
      refine hs.of_eq (.of_eq rfl rfl rfl rfl) rfl rfl rfl hs.stack (fun k hk => ?_)
        (fun v hv => .inl hv) fun l hl => .inl hl
      obtain rfl := Option.some.inj hk
      exact Nat.le_trans (Nat.sub_le _ _) hs.stack
    have ht := h.consistent hsave
    exact ht.of_eq (.of_eq rfl rfl rfl rfl) rfl rfl rfl ht.stack
      (fun k hk => Nat.le_trans (hs.saved k hk) h.precedes.maxStack) (fun v hv => .inl hv)
      fun l hl => .inl hl

/-- A loop is entered and left around its body. -/
lemma exitLoop {slot : Option Nat} {top : LabelValue} {i bottom j : Nat} (h : Lays r P a s t)
    (k : Lays r P b (t.enterLoop slot top i bottom j) u)
    (hloop : s.IsConsistent → Loop.IsConsistent t ⟨slot, top, i, bottom, j⟩) :
    Lays r P (a ++ b) s u.exitLoop := by
  refine h.trans_of ⟨k.operands, k.maxStack, k.refs, k.forks, k.cells, k.literals, k.labels,
    k.labelCount, k.savedStack, ?_⟩ fun hs ht => ?_
  · rw [State.exitLoop_loops, k.loops, State.enterLoop_loops, List.tail_cons]
  · have henter : (t.enterLoop slot top i bottom j).IsConsistent := by
      refine ht.of_eq (.of_eq rfl rfl rfl rfl) rfl rfl rfl ht.stack ht.saved
        (fun v hv => .inl hv) fun l hl => ?_
      rcases List.mem_cons.mp hl with rfl | hl
      · exact .inr ((hloop hs).mono (.of_eq rfl rfl rfl rfl))
      · exact .inl hl
    have hu := k.consistent henter
    exact hu.of_eq (.of_eq rfl rfl rfl rfl) rfl rfl rfl hu.stack hu.saved (fun v hv => .inl hv)
      fun l hl => .inl (List.mem_of_mem_tail hl)

/-- A fork body is laid down in a vector of its own. -/
lemma addFork {body : StmtList} {inner : Trace} {F : State} {bc : Bytecodes}
    (hb : body.isBuilt [] = true) (hF : LambdaMOO.generateStmts r body (State.init s.gstate) = .ok F)
    (hbc : finishCode r F = .ok bc) (h : Lays r ∅ inner (State.init s.gstate) F) :
    Lays r P ⟨[], 0, inner.refs, inner.bodies ++ [⟨body, inner.refs⟩]⟩ s
      ({ s with gstate := F.gstate }.addFork bc) where
  operands := by
    change List.filterMap _ (s.cells ++ [_]) = _
    rw [List.filterMap_append]
    rfl
  maxStack := (Nat.max_zero _).symm
  refs := h.refs
  forks := by
    obtain ⟨bcs, hbcs, hall⟩ := h.forks
    refine ⟨bcs ++ [bc], ?_, ?_⟩
    · change F.gstate.forkVectors ++ [bc] = _
      rw [hbcs, List.append_assoc]
      rfl
    · rw [List.map_append]
      exact List.rel_append hall (.cons ⟨hb, F, ⟨s.gstate, hF⟩, hbc, h.refs⟩ .nil)
  cells := List.prefix_append _ _
  literals := h.literals
  labels _ _ _ hv := hv
  labelCount := Nat.le_refl _
  savedStack := rfl
  loops := rfl
  consistent hs := by
    obtain ⟨bcs, hbcs, _⟩ := h.forks
    have hbcs : F.gstate.forkVectors = s.gstate.forkVectors ++ bcs := hbcs
    refine hs.emitWith (c := ⟨.fixup (.fork F.gstate.forkVectors.length), .none, s.tryDepth,
      s.curStack, 0⟩) ⟨List.prefix_append _ _, h.literals, ?_, Nat.le_refl _, Nat.le_refl _⟩ rfl rfl
      (Nat.max_zero _).symm rfl rfl rfl rfl ?_ (by rintro ⟨⟩)
    · change _ ≤ (F.gstate.forkVectors ++ [bc]).length
      rw [hbcs]
      simp
    · change _ < (F.gstate.forkVectors ++ [bc]).length
      simp

end Lays

/-! ### Labels that are still to be placed -/

section

variable (s : State)

@[simp] lemma State.openLabels_addLabel : s.addLabel.openLabels = s.openLabels + 1 := by
  unfold State.openLabels
  rw [State.labels_addLabel, List.count_append, List.count_singleton_self]

lemma State.openLabels_defineLabel {s : State} {id : Nat} (h : s.labels[id]? = some none) :
    (s.defineLabel id).openLabels + 1 = s.openLabels := by
  obtain ⟨hlt, hget⟩ := List.getElem?_eq_some_iff.mp h
  unfold State.openLabels
  rw [State.defineLabel_labels, List.count_set hlt, hget]
  have hpos : 0 < s.labels.count none := List.count_pos_iff.mpr (hget ▸ List.getElem_mem hlt)
  simp
  omega

end

/-- `Lays` with the change of the static stack, for code that places all of its labels. -/
structure Laid (r : Bool) (tr : Trace) (n : Nat) (s t : State) : Prop
    extends Lays r ∅ tr s t where
  curStack : t.curStack = s.curStack + n
  openLabels : t.openLabels = s.openLabels

/-- Joining traces, up to the way they are bracketed. -/
lemma Lays.of_eq_append {r : Bool} {P : Set Nat} {a b tr : Trace} {s t u : State}
    (h : Lays r P a s t) (k : Lays r P b t u) (htr : a ++ b = tr) : Lays r P tr s u :=
  htr ▸ h.trans k

end LambdaMOO
