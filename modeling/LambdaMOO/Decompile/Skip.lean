import LambdaMOO.CodeGen.Operands
import LambdaMOO.Decompile.Basic

/-!
# Where the skip loop stops

Behind the first `OP_INDEXSET` or `EOP_RANGESET` of an assignment the decompiler runs over the
raw bytes of the code up to the next one that is `OP_PUSH_TEMP`. On the way it passes the other
stores of the nest and the store to the variable or property at its end. Each of these is an
opcode of its own, but from `NUM_READY_VARS` on a variable is written as an operand, and the
bytes of an operand may be anything.
-/

namespace LambdaMOO

/-- `while (*ptr != OP_PUSH_TEMP) ptr++;` -/
def skipToTemp (r : Bool) (v : List Nat) (ptr : Nat) : Option Nat :=
  ((v.drop ptr).findIdx? (· = Opcode.opPushTemp.code r)).map (ptr + ·)

/-- `finish_indexed_assignment` goes on behind the byte at which the loop stops. -/
lemma finishIndexedAssignment_of_skipToTemp {r : Bool} {cap : Nat} {bc : Bytecodes}
    {ptr stop : Nat} (h : skipToTemp r bc.vector ptr = some stop) (e : Expr) (es : List Expr)
    (st : DState) :
    finishIndexedAssignment r cap bc ptr e es st = pushNode cap (stop + 1) e es st := by
  obtain ⟨n, hn, rfl⟩ := Option.map_eq_some_iff.mp h
  rw [finishIndexedAssignment, hn]

/-! ### The stores of an assignment -/

/-- The states right behind the `OP_INDEXSET`s and `EOP_RANGESET`s of the stores to a target,
the first of them first. -/
def Expr.storeEnds : Expr → State → List State
  | .range base _ _, s =>
    let s := (s.emitExtended .eopRangeset).popStack 3
    s :: base.storeEnds s
  | .index lhs _, s =>
    let s := (s.emitOp .opIndexset).popStack 2
    s :: lhs.storeEnds s
  | _, _ => []

/-- The bytes in which the variable at the end of a target is written, if its number is not
part of the opcode. -/
def Expr.slotBytes (w : Widths) : Expr → List Nat
  | .range base _ _ => base.slotBytes w
  | .index lhs _ => lhs.slotBytes w
  | .id slot => if slot ≥ numReadyVars then operandBytes w.varName slot else []
  | _ => []

/-- An assignment `lhs = rhs` through an index or a range, generated from `s₀` to `u`: the
stores begin at `s` and end at `t`, and the result is fetched by the `OP_PUSH_TEMP` behind the
`OP_POP`. -/
structure Expr.StoredBy (r : Bool) (lhs rhs : Expr) (s₀ s t u : State) : Prop where
  assigned : generateExpr r (.asgn lhs rhs) s₀ = .ok u
  valued : ∃ s₁ s₂, pushLvalue r lhs false s₀ = .ok s₁ ∧ generateExpr r rhs s₁ = .ok s₂ ∧
    s = s₂.emitOp .opPutTemp
  stored : storeLvalue lhs s = .ok t
  fetched : u = (t.emitOp .opPop).emitSkewed .opPushTemp (-1)

/-- Behind every index-set and range-set the loop stops at the `OP_PUSH_TEMP` of the same
assignment. -/
def Expr.SkipsToTemp (r : Bool) (bc : Bytecodes) (lhs : Expr) (s t : State) : Prop :=
  ∀ s' ∈ lhs.storeEnds s,
    skipToTemp r bc.vector (s'.pos bc.widths) = some ((t.emitOp .opPop).pos bc.widths)

/-- What storing to a target emits. -/
def Expr.storeContents : Expr → List Content
  | .range base _ _ => .op .opExtended :: .eop .eopRangeset :: base.storeContents
  | .index lhs _ => .op .opIndexset :: lhs.storeContents
  | .id slot =>
    if slot ≥ numReadyVars then [.op .opGPut, .fixup (.varRef slot)] else [.op (.opPut slot)]
  | .prop _ _ => [.op .opPutProp]
  | _ => []

/-- The code between two states holds these contents. -/
def EmitsBetween (s : State) (cs : List Content) (t : State) : Prop :=
  ∃ cells, t.cells = s.cells ++ cells ∧ cells.map (·.content) = cs

lemma EmitsBetween.trans {s t u : State} {cs ds : List Content} (h : EmitsBetween s cs t)
    (k : EmitsBetween t ds u) : EmitsBetween s (cs ++ ds) u := by
  obtain ⟨cells, hcells, rfl⟩ := h
  obtain ⟨cells', hcells', rfl⟩ := k
  exact ⟨cells ++ cells', by rw [hcells', hcells, List.append_assoc], List.map_append⟩

lemma EmitsBetween.refl (s : State) : EmitsBetween s [] s := ⟨[], (List.append_nil _).symm, rfl⟩

lemma emitsBetween_emitCell (c : Content) (p : PushMap) (k : Int) (s : State) :
    EmitsBetween s [c] (s.emitCell c p k) := ⟨_, rfl, rfl⟩

lemma emitsBetween_emitPut (slot : Nat) (s : State) :
    EmitsBetween s (Expr.id slot).storeContents (s.emitPut slot) := by
  rw [Expr.storeContents, State.emitPut]
  split_ifs
  · exact (emitsBetween_emitCell _ _ _ s).trans (emitsBetween_emitCell (.fixup (.varRef slot)) _ _ _)
  · exact emitsBetween_emitCell _ _ _ s

lemma storeLvalue_emitsBetween {e : Expr} {s t : State} (h : storeLvalue e s = .ok t) :
    EmitsBetween s e.storeContents t := by
  induction e, s using storeLvalue.induct with
  | case1 base lo hi s ih =>
    have hext : EmitsBetween s [.op .opExtended, .eop .eopRangeset]
        ((s.emitExtended .eopRangeset).popStack 3) :=
      (emitsBetween_emitCell _ _ _ s).trans (emitsBetween_emitCell _ _ _ _)
    exact hext.trans (ih h)
  | case2 lhs rhs s ih =>
    have hop : EmitsBetween s [.op .opIndexset] ((s.emitOp .opIndexset).popStack 2) :=
      emitsBetween_emitCell _ _ _ s
    exact hop.trans (ih h)
  | case3 slot s =>
    obtain rfl := Except.ok.inj h
    exact emitsBetween_emitPut slot s
  | case4 lhs rhs s =>
    obtain rfl := Except.ok.inj h
    exact emitsBetween_emitCell _ _ _ s
  | case5 e s hrange hindex hid hprop =>
    rw [storeLvalue.eq_5 _ _ hrange hindex hid hprop] at h
    cases h

lemma EmitsBetween.pos_eq {s t : State} {cs : List Content} (h : EmitsBetween s cs t) (w : Widths) :
    t.pos w = s.pos w + (cs.map (Content.width w)).sum := by
  obtain ⟨cells, hcells, rfl⟩ := h
  rw [State.pos, State.pos, hcells, offset_append, List.map_map]
  rfl

/-- What is stored through from the state behind one of the stores. -/
lemma storeLvalue_of_mem_storeEnds {e : Expr} {s s' t : State} (h : storeLvalue e s = .ok t)
    (hs : s' ∈ e.storeEnds s) :
    ∃ e', storeLvalue e' s' = .ok t ∧ ∀ w, e'.slotBytes w = e.slotBytes w := by
  induction e, s using storeLvalue.induct with
  | case1 base lo hi s ih =>
    rcases List.mem_cons.mp hs with rfl | hs
    · exact ⟨base, h, fun w => rfl⟩
    · exact ih h hs
  | case2 lhs rhs s ih =>
    rcases List.mem_cons.mp hs with rfl | hs
    · exact ⟨lhs, h, fun w => rfl⟩
    · exact ih h hs
  | case3 slot s => cases hs
  | case4 lhs rhs s => cases hs
  | case5 e s hrange hindex hid hprop =>
    rw [storeLvalue.eq_5 _ _ hrange hindex hid hprop] at h
    cases h

lemma exists_mem_storeEnds {e : Expr} (h : e.isIndexed = true) (s : State) :
    ∃ s', s' ∈ e.storeEnds s := by
  cases e with
  | range base lo hi => exact ⟨_, List.mem_cons_self⟩
  | index lhs rhs => exact ⟨_, List.mem_cons_self⟩
  | _ => cases h

/-! ### The bytes of the stores -/

section

variable {r : Bool} {w : Widths} {labels : List (Option LabelValue)}

lemma code_opPushTemp (r : Bool) : Opcode.opPushTemp.code r = Opcode.immStart r + 6 := by
  cases r <;> rfl

lemma mem_cons_bytes_iff {c : Content} {b : Nat} (hc : c.bytes r w labels = [b])
    (hb : Opcode.opPushTemp.code r ≠ b) (cs : List Content) :
    Opcode.opPushTemp.code r ∈ (c :: cs).flatMap (Content.bytes r w labels) ↔
      Opcode.opPushTemp.code r ∈ cs.flatMap (Content.bytes r w labels) := by
  rw [List.flatMap_cons, hc, List.singleton_append, List.mem_cons, or_iff_right hb]

/-- Among the bytes of the stores only those of a variable can be `OP_PUSH_TEMP`. -/
lemma mem_storeContents_iff (e : Expr) :
    Opcode.opPushTemp.code r ∈ e.storeContents.flatMap (Content.bytes r w labels) ↔
      Opcode.opPushTemp.code r ∈ e.slotBytes w := by
  match e with
  | .range base lo hi =>
    rw [Expr.storeContents, mem_cons_bytes_iff rfl (by cases r <;> decide),
      mem_cons_bytes_iff rfl (by cases r <;> decide)]
    exact mem_storeContents_iff base
  | .index lhs rhs =>
    rw [Expr.storeContents, mem_cons_bytes_iff rfl (by cases r <;> decide)]
    exact mem_storeContents_iff lhs
  | .id slot =>
    rw [Expr.storeContents, Expr.slotBytes]
    split_ifs with hslot
    · rw [mem_cons_bytes_iff rfl (by cases r <;> decide)]
      simp [Content.bytes, Fixup.bytes]
    · have hput : Opcode.opPushTemp.code r ≠ (Opcode.opPut slot).code r := by
        have himm : 100 ≤ Opcode.immStart r := by cases r <;> decide
        have hready : slot < 32 := Nat.lt_of_not_le hslot
        rw [code_opPushTemp, Opcode.code, Opcode.putStart]
        omega
      rw [mem_cons_bytes_iff rfl hput]
      rfl
  | .prop _ _ =>
    rw [Expr.storeContents, mem_cons_bytes_iff rfl (by cases r <;> decide)]
    rfl
  | .var _ | .verb _ _ _ | .asgn _ _ | .call _ _ | .binary _ _ _ | .unary _ _ | .logical _ _ _
  | .list _ | .cond _ _ _ | .catchExpr _ _ _ | .length | .scatter _ => rfl

lemma opPush_notMem_storeContents (e : Expr) (n : Nat) :
    .op (.opPush n) ∉ e.storeContents := by
  match e with
  | .range base lo hi =>
    simpa [Expr.storeContents] using opPush_notMem_storeContents base n
  | .index lhs rhs =>
    simpa [Expr.storeContents] using opPush_notMem_storeContents lhs n
  | .id slot =>
    rw [Expr.storeContents]
    split_ifs <;> simp
  | .prop _ _ => simp [Expr.storeContents]
  | .var _ | .verb _ _ _ | .asgn _ _ | .call _ _ | .binary _ _ _ | .unary _ _ | .logical _ _ _
  | .list _ | .cond _ _ _ | .catchExpr _ _ _ | .length | .scatter _ => exact List.not_mem_nil

end

/-- The bytes at the offset of cells none of which is a push. -/
lemma drop_offset_of_cells {r : Bool} {F : State} {bc : Bytecodes} (h : finishCode r F = .ok bc)
    (hm : (F.emitEndingOp .opDone).IsMarked) {p cs : List Cell}
    (hp : p ++ cs <+: (F.emitEndingOp .opDone).cells)
    (hcs : ∀ n, .op (.opPush n) ∉ cs.map (·.content)) :
    ∃ tail, bc.vector.drop (offset bc.widths p)
      = (cs.map (·.content)).flatMap (Content.bytes r bc.widths F.labels) ++ tail := by
  have hread : bc.widths.IsReadable := (finishCode_eq h).2.1 ▸ State.isReadable_widths _
  induction cs generalizing p with
  | nil => exact ⟨_, rfl⟩
  | cons c cs ih =>
    have hp' : p ++ [c] ++ cs <+: (F.emitEndingOp .opDone).cells := by
      rwa [List.append_assoc, List.singleton_append]
    obtain ⟨d, tail, hred, hdrop⟩ := drop_offset_of_finish h hm ((List.prefix_append _ _).trans hp')
    obtain ⟨rest, hrest⟩ := ih hp' fun n hn => hcs n (List.mem_cons_of_mem _ hn)
    have hd : d = c.content := by
      cases hred with
      | same => rfl
      | clear _ _ hpush => exact absurd (List.mem_cons.mpr (.inl hpush.symm)) (hcs _)
    subst hd
    refine ⟨rest, ?_⟩
    rw [offset_append, offset_singleton, ← Content.length_bytes hread r F.labels, ← List.drop_drop,
      hdrop, List.drop_left] at hrest
    rw [hdrop, hrest, List.map_cons, List.flatMap_cons, List.append_assoc]

/-- The loop passes the bytes in front of the opcode if none of them looks like it. -/
lemma skipToTemp_eq_iff {r : Bool} {v bytes tail : List Nat} {ptr : Nat}
    (h : v.drop ptr = bytes ++ Opcode.opPushTemp.code r :: tail) :
    skipToTemp r v ptr = some (ptr + bytes.length) ↔ Opcode.opPushTemp.code r ∉ bytes := by
  have hstop : skipToTemp r v ptr = some (ptr + bytes.length) ↔
      (bytes ++ Opcode.opPushTemp.code r :: tail).findIdx? (· = Opcode.opPushTemp.code r)
        = some bytes.length := by
    rw [skipToTemp, h, Option.map_eq_some_iff]
    constructor
    · rintro ⟨n, hn, heq⟩
      rwa [Nat.add_left_cancel heq] at hn
    · intro hn
      exact ⟨_, hn, rfl⟩
  rw [hstop, List.findIdx?_eq_some_iff_getElem]
  constructor
  · rintro ⟨_, _, hne⟩ hmem
    obtain ⟨j, hj, hget⟩ := List.mem_iff_getElem.mp hmem
    refine hne j hj ?_
    rw [List.getElem_append_left hj, hget, decide_eq_true_eq]
  · intro hmem
    refine ⟨by simp, by simp, fun j hj => ?_⟩
    rw [List.getElem_append_left hj, decide_eq_true_eq]
    exact fun heq => hmem (heq ▸ List.getElem_mem hj)

/-- From the state behind a store, the loop stops at the opcode of the same assignment unless
the variable looks like it. -/
lemma skipToTemp_store_iff {r : Bool} {F s t : State} {bc : Bytecodes} {e : Expr}
    (hfin : finishCode r F = .ok bc) (hm : (F.emitEndingOp .opDone).IsMarked)
    (h : storeLvalue e s = .ok t)
    (hF : ((t.emitOp .opPop).emitSkewed .opPushTemp (-1)).cells <+: F.cells) :
    skipToTemp r bc.vector (s.pos bc.widths) = some ((t.emitOp .opPop).pos bc.widths) ↔
      Opcode.opPushTemp.code r ∉ e.slotBytes bc.widths := by
  have hemits := storeLvalue_emitsBetween h
  have hpop : EmitsBetween s (e.storeContents ++ [Content.op .opPop]) (t.emitOp .opPop) :=
    hemits.trans (emitsBetween_emitCell _ _ _ t)
  obtain ⟨cells, hcells, hmap⟩ :=
    hpop.trans (emitsBetween_emitCell (.op .opPushTemp) .none (-1) (t.emitOp .opPop))
  have hread : bc.widths.IsReadable := (finishCode_eq hfin).2.1 ▸ State.isReadable_widths _
  obtain ⟨tail, hdrop⟩ : ∃ tail, bc.vector.drop (s.pos bc.widths)
      = (cells.map (·.content)).flatMap (Content.bytes r bc.widths F.labels) ++ tail := by
    refine drop_offset_of_cells hfin hm ?_ fun n hn => ?_
    · rw [← hcells]
      exact hF.trans (List.prefix_append _ _)
    · rw [hmap] at hn
      have hn' := opPush_notMem_storeContents e n
      simp_all
  rw [hmap, List.flatMap_append, List.append_assoc] at hdrop
  have hlen : ((e.storeContents ++ [Content.op .opPop]).flatMap
      (Content.bytes r bc.widths F.labels)).length
      = ((e.storeContents ++ [Content.op .opPop]).map (Content.width bc.widths)).sum := by
    rw [List.length_flatMap]
    congr 1
    exact List.map_congr_left fun c _ => Content.length_bytes hread r F.labels c
  rw [hpop.pos_eq, ← hlen, skipToTemp_eq_iff hdrop, List.flatMap_append, List.mem_append,
    mem_storeContents_iff, mem_cons_bytes_iff rfl (by cases r <;> decide)]
  simp

/-- The loop stops at the `OP_PUSH_TEMP` of the assignment from behind each of its index-sets and
range-sets if and only if no byte of the variable at the end of the target is `OP_PUSH_TEMP`. -/
theorem Expr.skipsToTemp_iff {r dollars : Bool} {lhs rhs : Expr} (s₀ : State)
    (hi : lhs.isIndexed = true) (hb : (Expr.asgn lhs rhs).isBuilt dollars = true)
    (hd : dollars = true → s₀.savedStack.isSome = true) :
    ∃ s t u, lhs.StoredBy r rhs s₀ s t u ∧ ∀ (b : Body) (F : State) (bc : Bytecodes),
      b.code.isBuilt [] = true → b.IsVector r F bc → u.cells <+: F.cells →
      (lhs.SkipsToTemp r bc s t ↔ Opcode.opPushTemp.code r ∉ lhs.slotBytes bc.widths) := by
  obtain ⟨hl, hbl, hbr⟩ | ⟨_, rfl, -⟩ := Expr.isBuilt_asgn hb
  swap
  · cases hi
  obtain ⟨s₁, h₁, f₁⟩ := pushLvalue_laid (r := r) lhs false ⟨hl, by rintro ⟨⟩⟩ hbl s₀ rfl rfl hd
  obtain ⟨s₂, h₂, f₂⟩ := generateExpr_laid (r := r) rhs hbr s₁ f₁.savedStack rfl hd
  have hc₂ : s₂.curStack = s₀.curStack + lhs.lvalueDepth + 1 := by
    rw [f₂.curStack, f₁.curStack]
    rfl
  obtain ⟨t, ht, -, -, -⟩ := storeLvalue_lays (r := r) (s := s₂.emitOp .opPutTemp) hl (by
    change _ ≤ s₂.curStack
    omega)
  refine ⟨s₂.emitOp .opPutTemp, t, _, ⟨?_, ⟨s₁, s₂, h₁, h₂, rfl⟩, ht, rfl⟩, ?_⟩
  · rw [generateExpr_asgn hl]
    simp only [Except.bind_eq_ok]
    exact ⟨s₁, h₁, s₂, h₂, t, by rw [if_pos hi]; exact ht, by rw [if_pos hi]; rfl⟩
  · intro b F bc hbody hvec hF
    have hm := (hvec.isConsistent_done hbody).pushmap
    constructor
    · intro hskips
      obtain ⟨s', hs'⟩ := exists_mem_storeEnds hi (s₂.emitOp .opPutTemp)
      obtain ⟨e', he', hbytes⟩ := storeLvalue_of_mem_storeEnds ht hs'
      rw [← hbytes, ← skipToTemp_store_iff hvec.finished hm he' hF]
      exact hskips s' hs'
    · intro hslot s' hs'
      obtain ⟨e', he', hbytes⟩ := storeLvalue_of_mem_storeEnds ht hs'
      rw [skipToTemp_store_iff hvec.finished hm he' hF, hbytes]
      exact hslot

/-- The target of the statement `v[1] = 0;`, for the variable of a slot. -/
def firstElement (slot : Nat) : Expr := .index (.id slot) (.var (.int 1))

/-- The statement `v[1] = 0;`. -/
def storeFirst (slot : Nat) : StmtList :=
  .cons (.expr (.asgn (firstElement slot) (.var (.int 0)))) .nil

theorem Expr.skipsToTemp_iff_firstElement :
    ∃ s t u F bc, (firstElement 3).StoredBy false (.var (.int 0)) (State.init initGState) s t u ∧
      (⟨storeFirst 3, 0⟩ : Body).IsVector false F bc ∧ u.cells <+: F.cells ∧
      (firstElement 3).SkipsToTemp false bc s t := by
  obtain ⟨s, t, u, h, hskips⟩ := skipsToTemp_iff (r := false) (State.init initGState)
    (show (firstElement 3).isIndexed = true by rfl)
    (show (Expr.asgn (firstElement 3) (.var (.int 0))).isBuilt false = true by rfl) (by rintro ⟨⟩)
  have hvec : (⟨storeFirst 3, 0⟩ : Body).IsVector false _ _ := ⟨⟨initGState, rfl⟩, rfl, rfl⟩
  obtain rfl := Except.ok.inj h.assigned
  exact ⟨s, t, _, _, _, h, hvec, ⟨[_], rfl⟩,
    (hskips _ _ _ (by decide) hvec ⟨[_], rfl⟩).mpr (by decide)⟩

/-- With slot 106 the bytes are those of `OP_G_PUT`, the slot, `OP_POP` and `OP_PUSH_TEMP`, and
the slot is also the number of `OP_PUSH_TEMP`: the loop stops in front of `OP_POP`, and the
decompiler ends in a panic at the opcode it was to find. -/
theorem Expr.not_skipsToTemp_slot :
    ∃ s t u F bc prog,
      (firstElement 106).StoredBy false (.var (.int 0)) (State.init initGState) s t u ∧
      (⟨storeFirst 106, 2⟩ : Body).IsVector false F bc ∧ u.cells <+: F.cells ∧
      (storeFirst 106).isBuilt [] = true ∧ ¬ (firstElement 106).SkipsToTemp false bc s t ∧
      generateCode false (storeFirst 106) = .ok prog ∧
      ∀ fuel, decompileProgram false prog (fuel + 20)
        = .error "Unexpected opcode in DECOMPILE!" := by
  refine ⟨_, _, _, _, _, _, ⟨rfl, ⟨_, _, rfl, rfl, rfl⟩, rfl, rfl⟩, ⟨⟨initGState, rfl⟩, rfl, rfl⟩,
    ⟨[_], rfl⟩, by decide, fun h => ?_, rfl, fun fuel => ?_⟩
  · have hfirst := h _ List.mem_cons_self
    revert hfirst
    decide
  · rfl

end LambdaMOO
