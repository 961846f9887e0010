import LambdaMOO.Decompile.Runs

/-!
# Decompiling expressions

The loop of `decompile`, started at the code of an expression, pushes that expression.
-/

namespace LambdaMOO

/-- The limits of the round trip: every variable has opcodes of its own. -/
structure Limits.IsReady (lim : Limits) : Prop extends lim.IsByte where
  ready : lim.slots ≤ numReadyVars

section

variable {r : Bool} {prog : Program} {cap slack : Nat} {F : State} {bc : Bytecodes}
  {lim : Limits} {stop : Nat} {s t : State} {es : List Expr}

/-- The tree with every literal replaced by the table entry it is read back as. -/
abbrev Expr.canon (prog : Program) (e : Expr) : Expr :=
  e.mapLiterals (canonLiteral prog.literals)

/-- The loop gets from `p` to `q` and only touches the expression stack. -/
def Evals (r : Bool) (prog : Program) (cap : Nat) (bc : Bytecodes) (stop p q : Nat)
    (es es' : List Expr) : Prop :=
  ∀ a b ss as k, Runs r prog cap ⟨bc, stop, a, b⟩ ⟨p, es, ss, as, k⟩ ⟨q, es', ss, as, k⟩

namespace Evals

variable {p q q' : Nat} {es' es'' : List Expr}

lemma refl (p : Nat) (es : List Expr) : Evals r prog cap bc stop p p es es :=
  fun _ _ _ _ _ => Runs.refl _

lemma trans (h : Evals r prog cap bc stop p q es es')
    (h' : Evals r prog cap bc stop q q' es' es'') : Evals r prog cap bc stop p q' es es'' :=
  fun a b ss as k => (h a b ss as k).trans (h' a b ss as k)

/-- A nested call for just this piece of code. -/
lemma decompile (h : Evals r prog cap bc q p q es es') (a b : Bool) :
    ∃ n, ∀ fuel ≥ n, decompile r prog cap fuel ⟨bc, q, a, b⟩ p es
      = .ok ⟨q, es', .nil, .nil, p⟩ :=
  (h a b .nil .nil p).decomp rfl

end Evals

/-! ### What is left on the expression stack -/

/-- The parts of an lvalue that its code leaves on the expression stack, the last on top. -/
def Expr.parts (prog : Program) : Expr → List Expr
  | .range base lo hi => [hi.canon prog, lo.canon prog, base.canon prog]
  | .index lhs rhs | .prop lhs rhs => [rhs.canon prog, lhs.canon prog]
  | _ => []

/-- The expression that stands for an argument list, `nilOp` being its code when empty. -/
def ArgList.asExpr (prog : Program) (nilOp : Opcode) (args : ArgList) : Expr :=
  match nilOp, args with
  | .optimNum i, .nil => .var (.int i)
  | _, args => .list (args.mapLiterals (canonLiteral prog.literals))

/-! ### Single instructions -/

/-- An opcode that pops expressions and pushes one made of them. -/
lemma Ctx.evals_op {o : Opcode} {q : Nat} {e : Expr} {es' : List Expr}
    (c : Ctx r prog cap slack F bc) (hg : Grows r (s.emitOp o) F)
    (hstop : s.pos bc.widths + 1 ≤ stop) (hcap : es'.length < cap)
    (h : ∃ n, ∀ fuel ≥ n, ∀ a b st, st.exprs = es →
      decompileOp r prog cap (decompile r prog cap fuel) ⟨bc, stop, a, b⟩ o
        (s.pos bc.widths + 1) st = pushNode cap q e es' st) :
    Evals r prog cap bc stop (s.pos bc.widths) q es (e :: es') := by
  intro a b ss as k
  obtain ⟨n, hn⟩ := h
  refine c.runs_emitOp hg rfl hstop ⟨n, fun fuel hfuel => ?_⟩
  rw [hn fuel hfuel a b _ rfl, pushNode_ok hcap]

lemma Ctx.evals_ext {o : ExtOpcode} {q : Nat} {e : Expr} {es' : List Expr}
    (c : Ctx r prog cap slack F bc) (hg : Grows r (s.emitExtended o) F)
    (hstop : s.pos bc.widths + 2 ≤ stop) (hcap : es'.length < cap)
    (h : ∃ n, ∀ fuel ≥ n, ∀ a b st, st.exprs = es →
      decompileExt r cap (decompile r prog cap fuel) ⟨bc, stop, a, b⟩ o
        (s.pos bc.widths + 2) st = pushNode cap q e es' st) :
    Evals r prog cap bc stop (s.pos bc.widths) q es (e :: es') := by
  intro a b ss as k
  obtain ⟨n, hn⟩ := h
  refine c.runs_emitExtended hg rfl hstop ⟨n, fun fuel hfuel => ?_⟩
  rw [hn fuel hfuel a b _ rfl, pushNode_ok hcap]

lemma decompileOp_binary {op : BinOp} {o : Opcode} (h : op.opcode = .inl o) (rec : Decompiler)
    (f : Region) (ptr : Nat) (st : DState) :
    decompileOp r prog cap rec f o ptr st = finishBinary cap ptr (.binary op) st := by
  cases op <;> cases h <;> rfl

lemma decompileExt_binary {op : BinOp} {o : ExtOpcode} (h : op.opcode = .inr o)
    (rec : Decompiler) (f : Region) (ptr : Nat) (st : DState) :
    decompileExt r cap rec f o ptr st = finishBinary cap ptr (.binary op) st := by
  cases op <;> cases h <;> rfl

lemma Ctx.evals_binary {op : BinOp} {x y : Expr} (c : Ctx r prog cap slack F bc)
    (hg : Grows r (s.emitBinary op) F) (hstop : (s.emitBinary op).pos bc.widths ≤ stop)
    (hcap : es.length < cap) :
    Evals r prog cap bc stop (s.pos bc.widths) ((s.emitBinary op).pos bc.widths)
      (y :: x :: es) (.binary op x y :: es) := by
  unfold State.emitBinary at *
  cases hop : op.opcode with
  | inl o =>
    simp only [hop, State.pos_emitOp] at hg hstop ⊢
    refine c.evals_op hg hstop hcap ⟨0, fun fuel _ a b st hst => ?_⟩
    simp only [decompileOp_binary hop, finishBinary, hst, popExpr, bind, Except.bind]
  | inr o =>
    simp only [hop, State.pos_emitExtended] at hg hstop ⊢
    refine c.evals_ext hg hstop hcap ⟨0, fun fuel _ a b st hst => ?_⟩
    simp only [decompileExt_binary hop, finishBinary, hst, popExpr, bind, Except.bind]

lemma Ctx.evals_unary {op : UnOp} {x : Expr} (c : Ctx r prog cap slack F bc)
    (hg : Grows r (s.emitUnary op) F) (hstop : (s.emitUnary op).pos bc.widths ≤ stop)
    (hcap : es.length < cap) :
    Evals r prog cap bc stop (s.pos bc.widths) ((s.emitUnary op).pos bc.widths) (x :: es)
      (.unary op x :: es) := by
  cases op with
  | negate | not =>
    simp only [State.emitUnary, State.pos_emitOp] at *
    refine c.evals_op hg hstop hcap ⟨0, fun fuel _ a b st hst => ?_⟩
    simp only [decompileOp, hst, popExpr, bind, Except.bind]
  | complement =>
    simp only [State.emitUnary, State.pos_emitExtended] at *
    refine c.evals_ext hg hstop hcap ⟨0, fun fuel _ a b st hst => ?_⟩
    simp only [decompileExt, hst, popExpr, bind, Except.bind]

lemma State.emitPush_of_lt {n : Nat} (h : n < numReadyVars) (s : State) :
    s.emitPush n = s.emitCell (.op (.opPush n)) .push 0 :=
  if_neg (Nat.not_le.mpr h)

lemma State.emitPut_of_lt {n : Nat} (h : n < numReadyVars) (s : State) :
    s.emitPut n = s.emitCell (.op (.opPut n)) .put 0 :=
  if_neg (Nat.not_le.mpr h)

lemma State.pos_emitPush {n : Nat} (h : n < numReadyVars) (w : Widths) (s : State) :
    (s.emitPush n).pos w = s.pos w + 1 := by
  rw [State.emitPush_of_lt h]
  exact s.pos_emitCell _ _ _ _

lemma State.pos_emitPut {n : Nat} (h : n < numReadyVars) (w : Widths) (s : State) :
    (s.emitPut n).pos w = s.pos w + 1 := by
  rw [State.emitPut_of_lt h]
  exact s.pos_emitCell _ _ _ _

/-- A variable is pushed whether or not the push clears it. -/
lemma Ctx.evals_emitPush {n : Nat} (hn : n < numReadyVars) (c : Ctx r prog cap slack F bc)
    (hg : Grows r (s.emitPush n) F) (hstop : (s.emitPush n).pos bc.widths ≤ stop)
    (hcap : es.length < cap) :
    Evals r prog cap bc stop (s.pos bc.widths) ((s.emitPush n).pos bc.widths) es
      (.id n :: es) := by
  intro a b ss as k st' hd
  rw [State.pos_emitPush hn] at *
  rw [State.emitPush_of_lt hn] at hg
  have hlt : s.pos bc.widths < stop := hstop
  rcases c.linked.read_push hg.cells with hread | ⟨hr, hread⟩
  · have hv : (Opcode.opPush n).IsValid r := hn
    refine Steps.decomp_next hlt hv hread (.of_forall fun rec => ?_) hd
    rw [decompileOp, pushNode_ok hcap]
  · have hv : (Opcode.opPushClear n).IsValid r := ⟨hr, hn⟩
    refine Steps.decomp_next hlt hv hread (.of_forall fun rec => ?_) hd
    rw [decompileOp, pushNode_ok hcap]

lemma Ctx.evals_emitPut {n : Nat} {x : Expr} (hn : n < numReadyVars)
    (c : Ctx r prog cap slack F bc) (hg : Grows r (s.emitPut n) F)
    (hstop : (s.emitPut n).pos bc.widths ≤ stop) (hcap : es.length < cap) :
    Evals r prog cap bc stop (s.pos bc.widths) ((s.emitPut n).pos bc.widths) (x :: es)
      (.asgn (.id n) x :: es) := by
  intro a b ss as k st' hd
  rw [State.pos_emitPut hn] at *
  rw [State.emitPut_of_lt hn] at hg
  have hlt : s.pos bc.widths < stop := hstop
  have hv : (Opcode.opPut n).IsValid r := hn
  refine Steps.decomp_next hlt hv (c.linked.read_op (by decide) hg.cells)
    (.of_forall fun rec => ?_) hd
  simp only [decompileOp, popExpr, bind, Except.bind, pushNode_ok hcap]

/-- The index of a literal points to the first equal entry, also of a longer table. -/
lemma getElem?_literalIndex {v : Literal} {s : State} {lits : List Literal}
    (h : (s.addLiteral v).gstate.literals <+: lits) :
    lits[State.literalIndex v s.gstate.literals]? = some (canonLiteral lits v) := by
  obtain ⟨more, rfl⟩ := h
  have hle : s.gstate.literals.findIdx v.equality ≤ s.gstate.literals.length :=
    List.findIdx_le_length
  have hidx : ((s.addLiteral v).gstate.literals ++ more).findIdx v.equality
      = State.literalIndex v s.gstate.literals := by
    rw [State.addLiteral_gstate_literals, State.literalIndex]
    split_ifs with hlen
    · simp [List.findIdx_append, hlen, List.findIdx_cons]
    · rw [List.findIdx_append, if_pos (by omega)]
  have hlt : State.literalIndex v s.gstate.literals
      < ((s.addLiteral v).gstate.literals ++ more).length := by
    rw [State.addLiteral_gstate_literals, State.literalIndex] at *
    split_ifs at * with hlen
    · simp
      omega
    · simp
      omega
  unfold canonLiteral
  rw [List.find?_eq_getElem?_findIdx, hidx, List.getElem?_eq_getElem hlt, Option.getD_some]

lemma Ctx.evals_callVerb {x y : Expr} {args : ArgList} (c : Ctx r prog cap slack F bc)
    (hg : Grows r (s.emitCallVerbOp .opCallVerb) F) (hstop : s.pos bc.widths + 1 ≤ stop)
    (hcap : es.length < cap) :
    Evals r prog cap bc stop (s.pos bc.widths) (s.pos bc.widths + 1)
      (.list args :: y :: x :: es) (.verb x y args :: es) := by
  intro a b ss as k st' hd
  have hv : Opcode.opCallVerb.IsValid r := trivial
  refine Steps.decomp_next hstop hv (c.linked.read_op (by decide) hg.cells)
    (.of_forall fun rec => ?_) hd
  simp only [decompileOp, popExpr, bind, Except.bind, pushNode_ok hcap]

lemma codesOf_asExpr (args : ArgList) :
    codesOf (args.asExpr prog (.optimNum 0))
      = .ok (args.mapLiterals (canonLiteral prog.literals)) := by
  cases args <;> rfl

/-- The catch expression around the code from `s` to `t`, up to its handler. -/
lemma Ctx.evals_catch {x y : Expr} {codes : ArgList} {q done : Nat}
    (c : Ctx r prog cap slack F bc) (hs : s.IsSound r)
    (hg : Grows r s.emitCatch F) (ht : t.IsSound r)
    (hnone : t.labels[s.labels.length]? = some none)
    (hge : Grows r (t.emitEndCatch s.labels.length) F)
    (hstop : t.pos bc.widths + 2 ≤ stop) (hle : s.emitCatch.pos bc.widths ≤ t.pos bc.widths)
    (hlen : es.length + 2 ≤ slack + s.curStack + 1)
    (hbody : Evals r prog cap bc stop (s.emitCatch.pos bc.widths) (t.pos bc.widths) es (x :: es))
    (hdone : readBytes bc.vector bc.numbytesLabel (t.pos bc.widths + 2) = .ok done)
    (hfinish : ∃ n, ∀ fuel ≥ n, ∀ st, finishCatch r cap (decompile r prog cap fuel) bc
      (t.pos bc.widths + 2 + bc.numbytesLabel) done x
      (codes.mapLiterals (canonLiteral prog.literals)) es st = pushNode cap q y es st) :
    Evals r prog cap bc stop (s.pos bc.widths) q (codes.asExpr prog (.optimNum 0) :: es)
      (y :: es) := by
  have g₂ : Grows r ((s.emitExtended .eopPushLabel).addLabel.pushStack 1) F :=
    (Grows.emitExtended .eopCatch).trans ((Grows.pushStack 1).trans hg)
  have g₁ : Grows r (s.emitExtended .eopPushLabel).addLabel F := (Grows.pushStack 1).trans g₂
  have hhandler := State.getElem?_endCatch hnone
  have ht' : ((t.emitExtended .eopEndCatch).addLabel.popStack 3).IsSound r :=
    ((Grows.emitExtended _).trans (Grows.addLabel.trans (Grows.popStack 3))).sound ht
  have hlabel := c.linked.read_label ht' (List.getElem?_eq_some_iff.mp hhandler).1 hge g₁.cells
  have hends : Grows r (t.emitExtended .eopEndCatch) F :=
    Grows.addLabel.trans ((Grows.popStack 3).trans ((Grows.defineLabel hhandler).trans hge))
  have hend := (c.linked.read_emitExtended hends).2
  have hs₂ : ((s.emitExtended .eopPushLabel).addLabel.pushStack 1).IsSound r :=
    ((Grows.emitExtended _).trans (Grows.addLabel.trans (Grows.pushStack 1))).sound hs
  have hcap₁ : (codes.asExpr prog (.optimNum 0) :: es).length < cap :=
    c.lt_cap hs₂ g₂ (by
      change _ ≤ _ + (s.curStack + 1)
      rw [List.length_cons]
      omega)
  have hcap : es.length < cap := by
    rw [List.length_cons] at hcap₁
    omega
  simp only [State.emitCatch, State.pos_pushStack, State.pos_emitExtended, State.pos_addLabel,
    State.pos_popStack, Bytecodes.widths_label] at hle hbody hlabel
  have hpush : Evals r prog cap bc stop (s.pos bc.widths)
      (((s.emitExtended .eopPushLabel).addLabel.pushStack 1).pos bc.widths)
      (codes.asExpr prog (.optimNum 0) :: es)
      (.var (.int ↑(t.pos bc.widths + 2 + bc.numbytesLabel)) ::
        codes.asExpr prog (.optimNum 0) :: es) := by
    simp only [State.pos_pushStack, State.pos_emitExtended, State.pos_addLabel,
      Bytecodes.widths_label]
    refine c.evals_ext (Grows.addLabel.trans g₁) (by omega) hcap₁
      ⟨0, fun fuel _ a b st hst => ?_⟩
    simp only [decompileExt, hlabel, hst, bind, Except.bind]
  refine hpush.trans ?_
  have hbody' : Decomp r prog cap ⟨bc, stop, false, false⟩ _ _ :=
    (hbody false false .nil .nil (s.pos bc.widths + 2 + bc.numbytesLabel + 2)) _
      (c.decomp_end hends rfl hstop (.inl rfl))
  obtain ⟨n, hn⟩ := hbody'
  obtain ⟨m, hm⟩ := hfinish
  refine c.evals_ext ((Grows.pushStack 1).trans hg) (by simpa using by omega) hcap
    ⟨max n m, fun fuel hfuel a b st hst => ?_⟩
  have hrec := hn fuel (by omega)
  simp only [State.pos_pushStack, State.pos_emitExtended, State.pos_addLabel,
    Bytecodes.widths_label, decompileExt, decompile, hst, popExpr, labelOf, codesOf_asExpr,
    hrec, hend, hdone, bind, Except.bind, ne_eq, not_true_eq_false, if_false]
  exact hm fuel (by omega) st

/-- Only zeros of opposite sign are pooled with one another. -/
lemma canonLiteral_int (lits : List Literal) (n : Int) :
    canonLiteral lits (.int n) = .int n := by
  unfold canonLiteral
  cases h : lits.find? (Literal.int n).equality with
  | none => rfl
  | some v =>
    have heq := List.find?_some h
    rcases Literal.eq_or_zero_of_equality heq with rfl | ⟨f, _, hf, _⟩
    · rfl
    · exact Literal.noConfusion hf

/-- A literal comes back as the entry of the table it was pooled with. -/
lemma Ctx.evals_addLiteral {v : Literal} (c : Ctx r prog cap slack F bc)
    (hg : Grows r ((s.emitOp .opImm).addLiteral v) F)
    (hstop : ((s.emitOp .opImm).addLiteral v).pos bc.widths ≤ stop) (hcap : es.length < cap) :
    Evals r prog cap bc stop (s.pos bc.widths)
      (((s.emitOp .opImm).addLiteral v).pos bc.widths) es
      (.var (canonLiteral prog.literals v) :: es) := by
  have hread := c.linked.read_addLiteral hg
  simp only [State.pos_addLiteral, State.pos_emitOp] at hread hstop ⊢
  refine c.evals_op ((Grows.addLiteral v).trans hg) (by omega) hcap
    ⟨0, fun fuel _ a b st hst => ?_⟩
  have hlit : prog.literals[State.literalIndex v (s.emitOp .opImm).gstate.literals]?
      = some (canonLiteral prog.literals v) :=
    getElem?_literalIndex (hg.literals.trans c.literals)
  simp only [decompileOp, hread, hlit, hst, bind, Except.bind, Bytecodes.widths_literal]

/-! ### Indexed assignments -/

/-- The bytes of the code between `s` and `t` do not look like `OP_PUSH_TEMP`. -/
def Skips (r : Bool) (bc : Bytecodes) (s t : State) : Prop :=
  ∀ i, s.pos bc.widths ≤ i → i < t.pos bc.widths →
    ∃ x, bc.vector[i]? = some x ∧ x ≠ Opcode.opPushTemp.code r

lemma readByte_eq_ok {v : List Nat} {p x : Nat} : readByte v p = .ok x ↔ v[p]? = some x := by
  unfold readByte
  cases v[p]? <;> simp

lemma Skips.refl (s : State) : Skips r bc s s := fun _ h₁ h₂ => absurd h₁ (Nat.not_le.mpr h₂)

lemma Skips.trans {u : State} (h : Skips r bc s t) (h' : Skips r bc t u) : Skips r bc s u := by
  intro i h₁ h₂
  by_cases hi : i < t.pos bc.widths
  · exact h i h₁ hi
  · exact h' i (Nat.le_of_not_lt hi) h₂

lemma Ctx.skips_emitCell {o : Opcode} {p : PushMap} (c : Ctx r prog cap slack F bc)
    (hp : p ≠ .push) (hg : Grows r (s.emitCell (.op o) p 0) F)
    (ho : o.code r ≠ Opcode.opPushTemp.code r) : Skips r bc s (s.emitCell (.op o) p 0) := by
  intro i h₁ h₂
  rw [State.pos_emitCell] at h₂
  obtain rfl : i = s.pos bc.widths := by
    simp only [Content.width] at h₂
    omega
  exact ⟨_, readByte_eq_ok.mp (c.linked.read_op hp hg.cells), ho⟩

lemma Ctx.skips_emitExtended {o : ExtOpcode} (c : Ctx r prog cap slack F bc)
    (hg : Grows r (s.emitExtended o) F) (ho : o.code ≠ Opcode.opPushTemp.code r) :
    Skips r bc s (s.emitExtended o) := by
  intro i h₁ h₂
  rw [State.pos_emitExtended] at h₂
  obtain ⟨hop, heop⟩ := c.linked.read_emitExtended hg
  rcases (show i = s.pos bc.widths ∨ i = s.pos bc.widths + 1 by omega) with rfl | rfl
  · exact ⟨_, readByte_eq_ok.mp hop, by cases r <;> decide⟩
  · exact ⟨_, readByte_eq_ok.mp heop, ho⟩

lemma Ctx.skips_storeLvalue (hlim : lim.IsReady) (c : Ctx r prog cap slack F bc) {e : Expr}
    {s : State}
    (hl : e.isLvalue = true) (hw : e.isWithin lim = true)
    (hs : e.lvalueDepth + 1 ≤ s.curStack) (h : storeLvalue e s = .ok t) (hg : Grows r t F) :
    Skips r bc s t := by
  match e with
  | .range base lo hi =>
    have ht := Expr.isLvalue_of_isIndexTarget (e := base) hl
    simp only [Expr.isWithin, Bool.and_eq_true, Expr.lvalueDepth] at hw hs
    simp only [storeLvalue] at h
    have hpop : ((s.emitExtended .eopRangeset).popStack 3).curStack = s.curStack - 3 := rfl
    obtain ⟨k, -⟩ := keeps_of_storeLvalue hlim.toIsByte (r := r)
      ht hw.1.1 (by omega) h
    have ih := c.skips_storeLvalue hlim ht hw.1.1
      (by omega) h hg
    have hg' : Grows r (s.emitExtended .eopRangeset) F :=
      (Grows.popStack 3).trans (k.grows.trans hg)
    exact (c.skips_emitExtended hg' (by cases r <;> decide)).trans ih
  | .index lhs rhs =>
    have ht := Expr.isLvalue_of_isIndexTarget (e := lhs) hl
    simp only [Expr.isWithin, Bool.and_eq_true, Expr.lvalueDepth] at hw hs
    simp only [storeLvalue] at h
    have hpop : ((s.emitOp .opIndexset).popStack 2).curStack = s.curStack - 2 := rfl
    obtain ⟨k, -⟩ := keeps_of_storeLvalue hlim.toIsByte (r := r)
      ht hw.1 (by omega) h
    have ih := c.skips_storeLvalue hlim ht hw.1
      (by omega) h hg
    have hg' : Grows r (s.emitOp .opIndexset) F :=
      (Grows.popStack 2).trans (k.grows.trans hg)
    exact (c.skips_emitCell (by decide) hg' (by cases r <;> decide)).trans ih
  | .id slot =>
    have hready := hlim.ready
    simp only [Expr.isWithin, decide_eq_true_eq] at hw
    obtain rfl := Except.ok.inj h
    rw [State.emitPut_of_lt (by omega)] at *
    refine c.skips_emitCell (by decide) hg ?_
    unfold numReadyVars at hready
    have hcode : Opcode.opPushTemp.code r = Opcode.immStart r + 6 := by cases r <;> rfl
    have himm : 100 ≤ Opcode.immStart r := by cases r <;> decide
    rw [hcode]
    simp only [Opcode.code, Opcode.putStart]
    omega
  | .prop _ _ =>
    obtain rfl := Except.ok.inj h
    exact c.skips_emitCell (by decide) ((Grows.popStack 2).trans hg) (by cases r <;> decide)

/-- `finish_indexed_assignment` goes on behind the `OP_PUSH_TEMP` of this assignment. -/
lemma Ctx.finishIndexedAssignment_eq (c : Ctx r prog cap slack F bc) {k : Int}
    (hskip : Skips r bc s t) (hle : s.pos bc.widths ≤ t.pos bc.widths)
    (hg : Grows r (t.emitSkewed .opPushTemp k) F) (e : Expr) (es : List Expr) (st : DState) :
    finishIndexedAssignment r cap bc (s.pos bc.widths) e es st
      = pushNode cap (t.pos bc.widths + 1) e es st := by
  have htemp := readByte_eq_ok.mp (c.linked.read_op (by decide) hg.cells)
  have hfind : (bc.vector.drop (s.pos bc.widths)).findIdx? (· = Opcode.opPushTemp.code r)
      = some (t.pos bc.widths - s.pos bc.widths) := by
    rw [List.findIdx?_eq_some_iff_getElem]
    have hlt := (List.getElem?_eq_some_iff.mp htemp).1
    refine ⟨by rw [List.length_drop]; omega, ?_, fun j hj => ?_⟩
    · rw [List.getElem_drop, decide_eq_true_eq]
      obtain ⟨_, hget⟩ := List.getElem?_eq_some_iff.mp htemp
      simpa only [Nat.add_sub_cancel' hle] using hget
    · obtain ⟨x, hx, hne⟩ := hskip (s.pos bc.widths + j) (by omega) (by omega)
      rw [List.getElem_drop, decide_eq_true_eq, (List.getElem?_eq_some_iff.mp hx).2]
      exact hne
  unfold finishIndexedAssignment
  rw [hfind]
  simp only
  rw [Nat.add_sub_cancel' hle]

end

/-! ### Expressions -/

/-- Code made by `gen` changes the expression stack by `out`. -/
def Yields (r : Bool) (prog : Program) (cap slack : Nat) (F : State) (bc : Bytecodes)
    (dollars : Bool) (gen : State → Except String State) (out : List Expr → List Expr) : Prop :=
  ∀ ⦃s t : State⦄, gen s = .ok t → (dollars = true → s.savedStack.isSome = true) →
    s.IsSound r → Grows r t F → ∀ ⦃stop : Nat⦄, t.pos bc.widths ≤ stop → ∀ ⦃es : List Expr⦄,
      es.length ≤ slack + s.curStack →
        Evals r prog cap bc stop (s.pos bc.widths) (t.pos bc.widths) es (out es)

/-- The code of an expression pushes it. -/
abbrev YieldsExpr (r : Bool) (prog : Program) (cap slack : Nat) (F : State) (bc : Bytecodes)
    (dollars : Bool) (e : Expr) : Prop :=
  Yields r prog cap slack F bc dollars (generateExpr r e) (e.canon prog :: ·)

abbrev YieldsArgs (r : Bool) (prog : Program) (cap slack : Nat) (F : State) (bc : Bytecodes)
    (dollars : Bool) (nilOp : Opcode) (args : ArgList) : Prop :=
  Yields r prog cap slack F bc dollars (generateArgs r nilOp args) (args.asExpr prog nilOp :: ·)

section

variable {r : Bool} {prog : Program} {cap slack : Nat} {F : State} {bc : Bytecodes}
  {lim : Limits} {dollars : Bool}

lemma Ctx.lt_cap_of_frame (c : Ctx r prog cap slack F bc) {s t : State} {es : List Expr}
    (f : Frame r 1 s t) (hs : s.IsSound r) (hg : Grows r t F)
    (hlen : es.length ≤ slack + s.curStack) : es.length < cap := by
  refine c.lt_cap (f.grows.sound hs) hg ?_
  rw [f.curStack]
  omega

variable (hlim : lim.IsReady) (c : Ctx r prog cap slack F bc)

include hlim c

lemma yields_var {v : Literal}
    (hb : (Expr.var v).isBuilt dollars = true) (hw : (Expr.var v).isWithin lim = true) :
    YieldsExpr r prog cap slack F bc dollars (Expr.var v) := by
  intro s t h hd hs hg stop hstop es hlen
  have f := frame_of_generateExpr hlim.toIsByte hb hw hd h
  have hcap := c.lt_cap_of_frame f hs hg hlen
  cases v with
  | int n =>
    simp only [generateExpr] at h
    split_ifs at h with hn
    · obtain rfl := Except.ok.inj h
      have hcanon : canonLiteral prog.literals (.int n) = .int n := canonLiteral_int _ _
      simp only [Expr.canon, Expr.mapLiterals, hcanon, State.pos_pushStack,
        State.pos_emitOp] at hstop ⊢
      exact c.evals_op ((Grows.pushStack 1).trans hg) hstop hcap
        ⟨0, fun fuel _ a b st hst => by rw [decompileOp, hst]⟩
    · obtain rfl := Except.ok.inj h
      exact c.evals_addLiteral ((Grows.pushStack 1).trans hg) hstop hcap
  | _ =>
    obtain rfl := Except.ok.inj h
    exact c.evals_addLiteral ((Grows.pushStack 1).trans hg) hstop hcap

lemma yields_id {slot : Nat}
    (hb : (Expr.id slot).isBuilt dollars = true) (hw : (Expr.id slot).isWithin lim = true) :
    YieldsExpr r prog cap slack F bc dollars (Expr.id slot) := by
  intro s t h hd hs hg stop hstop es hlen
  have f := frame_of_generateExpr hlim.toIsByte hb hw hd h
  have hcap := c.lt_cap_of_frame f hs hg hlen
  have hready := hlim.ready
  simp only [Expr.isWithin, decide_eq_true_eq] at hw
  obtain rfl := Except.ok.inj h
  exact c.evals_emitPush (by omega) ((Grows.pushStack 1).trans hg) hstop hcap

lemma yields_unary {op : UnOp} {e : Expr}
    (hb : (Expr.unary op e).isBuilt dollars = true) (hw : (Expr.unary op e).isWithin lim = true)
    (ie : YieldsExpr r prog cap slack F bc dollars e) :
    YieldsExpr r prog cap slack F bc dollars (Expr.unary op e) := by
  intro s t h hd hs hg stop hstop es hlen
  have f := frame_of_generateExpr hlim.toIsByte hb hw hd h
  have hcap := c.lt_cap_of_frame f hs hg hlen
  simp only [Expr.isBuilt, Expr.isWithin, Bool.and_eq_true] at hb hw
  simp only [generateExpr, Except.bind_eq_ok] at h
  obtain ⟨s₁, h₁, h⟩ := h
  obtain rfl := Except.ok.inj h
  have g₁ : Grows r s₁ F := (Grows.emitUnary op).trans hg
  have hp := (Grows.emitUnary (r := r) (s := s₁) op).pos_le bc.widths
  exact (ie h₁ hd hs g₁ (by omega) hlen).trans
    (c.evals_unary hg hstop hcap)

lemma yields_binary {op : BinOp} {lhs rhs : Expr}
    (hb : (Expr.binary op lhs rhs).isBuilt dollars = true) (hw : (Expr.binary op lhs rhs).isWithin lim = true)
    (ilhs : YieldsExpr r prog cap slack F bc dollars lhs)
    (irhs : YieldsExpr r prog cap slack F bc dollars rhs) :
    YieldsExpr r prog cap slack F bc dollars (Expr.binary op lhs rhs) := by
  intro s t h hd hs hg stop hstop es hlen
  have f := frame_of_generateExpr hlim.toIsByte hb hw hd h
  have hcap := c.lt_cap_of_frame f hs hg hlen
  simp only [Expr.isBuilt, Expr.isWithin, Bool.and_eq_true] at hb hw
  simp only [generateExpr, Except.bind_eq_ok] at h
  obtain ⟨s₁, h₁, s₂, h₂, h⟩ := h
  obtain rfl := Except.ok.inj h
  have f₁ := frame_of_generateExpr hlim.toIsByte hb.1 hw.1 hd h₁
  have f₂ := frame_of_generateExpr hlim.toIsByte hb.2 hw.2 (f₁.savedStack ▸ hd) h₂
  have g₂ : Grows r (s₂.emitBinary op) F := (Grows.popStack 1).trans hg
  have hp := (Grows.emitBinary (r := r) (s := s₂) op).pos_le bc.widths
  have hp₂ := f₂.grows.pos_le bc.widths
  simp only [State.pos_popStack] at hstop ⊢
  refine (ilhs h₁ hd hs
    (f₂.grows.trans ((Grows.emitBinary op).trans g₂)) (by omega) hlen).trans
    ((irhs h₂ (f₁.savedStack ▸ hd) (f₁.grows.sound hs)
      ((Grows.emitBinary op).trans g₂) (by omega) ?_).trans (c.evals_binary g₂ hstop hcap))
  rw [f₁.curStack, List.length_cons]
  omega

lemma yields_prop {lhs rhs : Expr}
    (hb : (Expr.prop lhs rhs).isBuilt dollars = true) (hw : (Expr.prop lhs rhs).isWithin lim = true)
    (ilhs : YieldsExpr r prog cap slack F bc dollars lhs)
    (irhs : YieldsExpr r prog cap slack F bc dollars rhs) :
    YieldsExpr r prog cap slack F bc dollars (Expr.prop lhs rhs) := by
  intro s t h hd hs hg stop hstop es hlen
  have f := frame_of_generateExpr hlim.toIsByte hb hw hd h
  have hcap := c.lt_cap_of_frame f hs hg hlen
  simp only [Expr.isBuilt, Expr.isWithin, Bool.and_eq_true] at hb hw
  simp only [generateExpr, Except.bind_eq_ok] at h
  obtain ⟨s₁, h₁, s₂, h₂, h⟩ := h
  obtain rfl := Except.ok.inj h
  have f₁ := frame_of_generateExpr hlim.toIsByte hb.1 hw.1 hd h₁
  have f₂ := frame_of_generateExpr hlim.toIsByte hb.2 hw.2 (f₁.savedStack ▸ hd) h₂
  have g₃ : Grows r (s₂.emitOp .opGetProp) F := (Grows.popStack 1).trans hg
  have g₂ : Grows r s₂ F := Grows.trans (Grows.emitOp (by trivial)) g₃
  have hp₂ := f₂.grows.pos_le bc.widths
  simp only [State.pos_popStack, State.pos_emitOp] at hstop ⊢
  refine (ilhs h₁ hd hs (f₂.grows.trans g₂) (by omega) hlen).trans
    ((irhs h₂ (f₁.savedStack ▸ hd) (f₁.grows.sound hs) g₂
      (by omega) ?_).trans (c.evals_op g₃ hstop hcap ⟨0, fun fuel _ a b st hst => ?_⟩))
  · rw [f₁.curStack, List.length_cons]
    omega
  · simp only [decompileOp, finishBinary, hst, popExpr, bind, Except.bind]
    rfl

lemma yields_index {lhs rhs : Expr}
    (hb : (Expr.index lhs rhs).isBuilt dollars = true) (hw : (Expr.index lhs rhs).isWithin lim = true)
    (ilhs : YieldsExpr r prog cap slack F bc dollars lhs)
    (irhs : YieldsExpr r prog cap slack F bc true rhs) :
    YieldsExpr r prog cap slack F bc dollars (Expr.index lhs rhs) := by
  intro s t h hd hs hg stop hstop es hlen
  have f := frame_of_generateExpr hlim.toIsByte hb hw hd h
  have hcap := c.lt_cap_of_frame f hs hg hlen
  simp only [Expr.isBuilt, Expr.isWithin, Bool.and_eq_true] at hb hw
  simp only [generateExpr, Except.bind_eq_ok] at h
  obtain ⟨s₁, h₁, s₂, h₂, h⟩ := h
  obtain rfl := Except.ok.inj h
  have f₁ := frame_of_generateExpr hlim.toIsByte hb.1 hw.1 hd h₁
  have f₂ := frame_of_generateExpr hlim.toIsByte hb.2 hw.2 (fun _ => rfl) h₂
  have g₃ : Grows r ((s₂.restoreStackTop s₁.savedStack).emitOp .opRef) F :=
    (Grows.popStack 1).trans hg
  have g₂ : Grows r s₂ F := (Grows.restoreStackTop _).trans (Grows.trans (Grows.emitOp (by trivial)) g₃)
  have hp₂ := f₂.grows.pos_le bc.widths
  simp only [State.pos_popStack, State.pos_emitOp, State.pos_restoreStackTop,
    State.pos_saveStackTop] at hstop hp₂ ⊢
  refine (ilhs h₁ hd hs
    (Grows.saveStackTop.trans (f₂.grows.trans g₂)) (by omega) hlen).trans
    ((irhs h₂ (fun _ => rfl)
      ((f₁.grows.trans Grows.saveStackTop).sound hs) g₂ (by omega) ?_).trans
        (c.evals_op (s := s₂.restoreStackTop s₁.savedStack) g₃ hstop hcap
          ⟨0, fun fuel _ a b st hst => ?_⟩))
  · rw [State.saveStackTop_curStack, f₁.curStack, List.length_cons]
    omega
  · simp only [decompileOp, finishBinary, hst, popExpr, bind, Except.bind]
    rfl

lemma yields_range {base lo hi : Expr}
    (hb : (Expr.range base lo hi).isBuilt dollars = true) (hw : (Expr.range base lo hi).isWithin lim = true)
    (ibase : YieldsExpr r prog cap slack F bc dollars base)
    (ilo : YieldsExpr r prog cap slack F bc true lo)
    (ihi : YieldsExpr r prog cap slack F bc true hi) :
    YieldsExpr r prog cap slack F bc dollars (Expr.range base lo hi) := by
  intro s t h hd hs hg stop hstop es hlen
  have f := frame_of_generateExpr hlim.toIsByte hb hw hd h
  have hcap := c.lt_cap_of_frame f hs hg hlen
  simp only [Expr.isBuilt, Expr.isWithin, Bool.and_eq_true] at hb hw
  simp only [generateExpr, Except.bind_eq_ok] at h
  obtain ⟨s₁, h₁, s₂, h₂, s₃, h₃, h⟩ := h
  obtain rfl := Except.ok.inj h
  have f₁ := frame_of_generateExpr hlim.toIsByte hb.1.1 hw.1.1 hd h₁
  have f₂ := frame_of_generateExpr hlim.toIsByte hb.1.2 hw.1.2 (fun _ => rfl) h₂
  have hd₂ : true = true → s₂.savedStack.isSome = true := fun _ => by rw [f₂.savedStack]; rfl
  have f₃ := frame_of_generateExpr hlim.toIsByte hb.2 hw.2 hd₂ h₃
  have g₄ : Grows r ((s₃.restoreStackTop s₁.savedStack).emitOp .opRangeRef) F :=
    (Grows.popStack 2).trans hg
  have g₃ : Grows r s₃ F := (Grows.restoreStackTop _).trans (Grows.trans (Grows.emitOp (by trivial)) g₄)
  have hp₂ := f₂.grows.pos_le bc.widths
  have hp₃ := f₃.grows.pos_le bc.widths
  simp only [State.pos_popStack, State.pos_emitOp, State.pos_restoreStackTop,
    State.pos_saveStackTop] at hstop hp₂ ⊢
  refine (ibase h₁ hd hs
    (Grows.saveStackTop.trans (f₂.grows.trans (f₃.grows.trans g₃))) (by omega) hlen).trans
    ((ilo h₂ (fun _ => rfl)
      ((f₁.grows.trans Grows.saveStackTop).sound hs) (f₃.grows.trans g₃) (by omega) ?_).trans
      ((ihi h₃ hd₂
        ((f₁.grows.trans (Grows.saveStackTop.trans f₂.grows)).sound hs) g₃ (by omega) ?_).trans
        (c.evals_op (s := s₃.restoreStackTop s₁.savedStack) g₄ hstop hcap ⟨0, fun fuel _ a b st hst => ?_⟩)))
  · rw [State.saveStackTop_curStack, f₁.curStack, List.length_cons]
    omega
  · rw [f₂.curStack, State.saveStackTop_curStack, f₁.curStack, List.length_cons,
      List.length_cons]
    omega
  · simp only [decompileOp, hst, popExpr, bind, Except.bind]
    rfl

lemma yields_length 
    (hb : Expr.length.isBuilt dollars = true) (hw : Expr.length.isWithin lim = true) :
    YieldsExpr r prog cap slack F bc dollars Expr.length := by
  intro s t h hd hs hg stop hstop es hlen
  have f := frame_of_generateExpr hlim.toIsByte hb hw hd h
  have hcap := c.lt_cap_of_frame f hs hg hlen
  obtain ⟨k, hk⟩ := Option.isSome_iff_exists.mp (hd (by simpa only [Expr.isBuilt] using hb))
  simp only [generateExpr, hk] at h
  obtain rfl := Except.ok.inj h
  simp only [State.pos_pushStack, State.pos_addStackRef, State.pos_emitExtended] at hstop ⊢
  have g₁ : Grows r (s.emitExtended .eopLength) F :=
    Grows.trans (Grows.addFixup (by trivial)) ((Grows.pushStack 1).trans hg)
  exact c.evals_ext g₁ (by omega) hcap ⟨0, fun fuel _ a b st hst => by
    simp only [decompileExt, hst, Bytecodes.widths_stack]
    rfl⟩

lemma yields_list {args : ArgList}
    (hb : (Expr.list args).isBuilt dollars = true) (hw : (Expr.list args).isWithin lim = true)
    (iargs : YieldsArgs r prog cap slack F bc dollars .opMakeEmptyList args) :
    YieldsExpr r prog cap slack F bc dollars (Expr.list args) := by
  intro s t h hd hs hg stop hstop es hlen
  have f := frame_of_generateExpr hlim.toIsByte hb hw hd h
  have hcap := c.lt_cap_of_frame f hs hg hlen
  simp only [Expr.isBuilt, Expr.isWithin] at hb hw
  simp only [generateExpr] at h
  exact iargs h hd hs hg hstop hlen

lemma yields_call {func : Nat} {args : ArgList}
    (hb : (Expr.call func args).isBuilt dollars = true) (hw : (Expr.call func args).isWithin lim = true)
    (iargs : YieldsArgs r prog cap slack F bc dollars .opMakeEmptyList args) :
    YieldsExpr r prog cap slack F bc dollars (Expr.call func args) := by
  intro s t h hd hs hg stop hstop es hlen
  have f := frame_of_generateExpr hlim.toIsByte hb hw hd h
  have hcap := c.lt_cap_of_frame f hs hg hlen
  simp only [Expr.isBuilt, Expr.isWithin, Bool.and_eq_true, decide_eq_true_eq] at hb hw
  simp only [generateExpr, Except.bind_eq_ok] at h
  obtain ⟨s₁, h₁, h⟩ := h
  obtain rfl := Except.ok.inj h
  have g₂ : Grows r (s₁.emitOp .opBiFuncCall) F := (Grows.emitByte hb.1).trans hg
  have hfunc := c.linked.read_emitByte hg
  simp only [State.pos_emitByte, State.pos_emitOp] at hstop hfunc ⊢
  refine (iargs h₁ hd hs
    (Grows.trans (Grows.emitOp (by trivial)) g₂) (by omega) hlen).trans
    (c.evals_op g₂ (by omega) hcap ⟨0, fun fuel _ a b st hst => ?_⟩)
  simp only [decompileOp, hst, popExpr, ArgList.asExpr, hfunc, bind, Except.bind]
  rfl

lemma yields_verb {obj verb : Expr} {args : ArgList}
    (hb : (Expr.verb obj verb args).isBuilt dollars = true) (hw : (Expr.verb obj verb args).isWithin lim = true)
    (iobj : YieldsExpr r prog cap slack F bc dollars obj)
    (iverb : YieldsExpr r prog cap slack F bc dollars verb)
    (iargs : YieldsArgs r prog cap slack F bc dollars .opMakeEmptyList args) :
    YieldsExpr r prog cap slack F bc dollars (Expr.verb obj verb args) := by
  intro s t h hd hs hg stop hstop es hlen
  have f := frame_of_generateExpr hlim.toIsByte hb hw hd h
  have hcap := c.lt_cap_of_frame f hs hg hlen
  simp only [Expr.isBuilt, Expr.isWithin, Bool.and_eq_true] at hb hw
  simp only [generateExpr, Except.bind_eq_ok] at h
  obtain ⟨s₁, h₁, s₂, h₂, s₃, h₃, h⟩ := h
  obtain rfl := Except.ok.inj h
  have f₁ := frame_of_generateExpr hlim.toIsByte hb.1.1 hw.1.1 hd h₁
  have hd₁ : dollars = true → s₁.savedStack.isSome = true := f₁.savedStack ▸ hd
  have f₂ := frame_of_generateExpr hlim.toIsByte hb.1.2 hw.1.2 hd₁ h₂
  have hd₂ : dollars = true → s₂.savedStack.isSome = true := f₂.savedStack ▸ hd₁
  have f₃ := frame_of_generateArgs hlim.toIsByte (o := .opMakeEmptyList) trivial hb.2 hw.2
    hd₂ h₃
  have g₄ : Grows r (s₃.emitCallVerbOp .opCallVerb) F := (Grows.popStack 2).trans hg
  have g₃ : Grows r s₃ F := Grows.trans (Grows.emitCallVerbOp (by trivial)) g₄
  have hp₂ := f₂.grows.pos_le bc.widths
  have hp₃ := f₃.grows.pos_le bc.widths
  simp only [State.pos_popStack, State.pos_emitCallVerbOp] at hstop ⊢
  refine (iobj h₁ hd hs (f₂.grows.trans (f₃.grows.trans g₃))
    (by omega) hlen).trans
    ((iverb h₂ hd₁ (f₁.grows.sound hs) (f₃.grows.trans g₃)
      (by omega) ?_).trans
      ((iargs h₃ hd₂
        ((f₁.grows.trans f₂.grows).sound hs) g₃ (by omega) ?_).trans
        (c.evals_callVerb g₄ hstop hcap)))
  · rw [f₁.curStack, List.length_cons]
    omega
  · rw [f₂.curStack, f₁.curStack, List.length_cons, List.length_cons]
    omega

lemma yields_logical {op : LogOp} {lhs rhs : Expr}
    (hb : (Expr.logical op lhs rhs).isBuilt dollars = true) (hw : (Expr.logical op lhs rhs).isWithin lim = true)
    (ilhs : YieldsExpr r prog cap slack F bc dollars lhs)
    (irhs : YieldsExpr r prog cap slack F bc dollars rhs) :
    YieldsExpr r prog cap slack F bc dollars (Expr.logical op lhs rhs) := by
  intro s t h hd hs hg stop hstop es hlen
  have f := frame_of_generateExpr hlim.toIsByte hb hw hd h
  have hcap := c.lt_cap_of_frame f hs hg hlen
  simp only [Expr.isBuilt, Expr.isWithin, Bool.and_eq_true] at hb hw
  simp only [generateExpr, Except.bind_eq_ok] at h
  obtain ⟨s₁, h₁, s₂, h₂, h⟩ := h
  obtain rfl := Except.ok.inj h
  have f₁ := frame_of_generateExpr hlim.toIsByte hb.1 hw.1 hd h₁
  have f₂ := frame_of_generateExpr hlim.toIsByte hb.2 hw.2 (f₁.savedStack ▸ hd) h₂
  have hop : (op.opcode).IsValid r := by cases op <;> trivial
  have hnone : s₂.labels[s₁.labels.length]? = some none :=
    f₂.getElem?_labels (State.getElem?_addLabel (s₁.emitOp op.opcode))
  have g₂ : Grows r s₂ F := (Grows.defineLabel hnone).trans hg
  have g₁ : Grows r (s₁.emitOp op.opcode).addLabel F :=
    (Grows.popStack 1).trans (f₂.grows.trans g₂)
  have hp₂ := f₂.grows.pos_le bc.widths
  have hs₂ : s₂.IsSound r := (f₁.grows.trans (Grows.trans (Grows.emitOp hop)
    (Grows.addLabel.trans ((Grows.popStack 1).trans f₂.grows)))).sound hs
  have hlabel := c.linked.read_label hs₂ (List.getElem?_eq_some_iff.mp hnone).1 hg g₁.cells
  simp only [State.pos_popStack, State.pos_emitOp, State.pos_addLabel, State.pos_defineLabel,
    Bytecodes.widths_label] at hstop hp₂ hlabel ⊢
  refine (ilhs h₁ hd hs
    (Grows.trans (Grows.emitOp hop) (Grows.addLabel.trans g₁)) (by omega) hlen).trans ?_
  have hlen₁ : es.length ≤ slack + ((s₁.emitOp op.opcode).addLabel.popStack 1).curStack := by
    change _ ≤ _ + (s₁.curStack - 1)
    rw [f₁.curStack]
    omega
  have hright := irhs h₂ (f₁.savedStack ▸ hd)
    ((f₁.grows.trans (Grows.trans (Grows.emitOp hop) (Grows.addLabel.trans
      (Grows.popStack 1)))).sound hs) g₂ (Nat.le_refl _) hlen₁
  obtain ⟨n, hn⟩ := hright.decompile false false
  refine c.evals_op (Grows.addLabel.trans g₁) (by omega) hcap
    ⟨n, fun fuel hfuel a b st hst => ?_⟩
  have hrec := hn fuel hfuel
  simp only [State.pos_popStack, State.pos_emitOp, State.pos_addLabel,
    Bytecodes.widths_label] at hrec
  cases op <;>
    simp [LogOp.opcode, decompileOp, hlabel, hst, popExpr, hrec, bind, Except.bind,
      Expr.mapLiterals]

lemma yields_cond {x y z : Expr}
    (hb : (Expr.cond x y z).isBuilt dollars = true) (hw : (Expr.cond x y z).isWithin lim = true)
    (ix : YieldsExpr r prog cap slack F bc dollars x)
    (iy : YieldsExpr r prog cap slack F bc dollars y)
    (iz : YieldsExpr r prog cap slack F bc dollars z) :
    YieldsExpr r prog cap slack F bc dollars (Expr.cond x y z) := by
  intro s t h hd hs hg stop hstop es hlen
  have f := frame_of_generateExpr hlim.toIsByte hb hw hd h
  have hcap := c.lt_cap_of_frame f hs hg hlen
  simp only [Expr.isBuilt, Expr.isWithin, Bool.and_eq_true] at hb hw
  simp only [generateExpr, Except.bind_eq_ok] at h
  obtain ⟨s₁, h₁, s₂, h₂, s₃, h₃, h⟩ := h
  obtain rfl := Except.ok.inj h
  have f₁ := frame_of_generateExpr hlim.toIsByte hb.1.1 hw.1.1 hd h₁
  have hd₁ : dollars = true → s₁.savedStack.isSome = true := f₁.savedStack ▸ hd
  have f₂ := frame_of_generateExpr hlim.toIsByte hb.1.2 hw.1.2 (s := (s₁.emitOp
    .opIfQues).addLabel.popStack 1) hd₁ h₂
  have hd₂ : dollars = true → s₂.savedStack.isSome = true := f₂.savedStack ▸ hd₁
  have f₃ := frame_of_generateExpr hlim.toIsByte hb.2 hw.2 (s := ((s₂.emitOp
    .opJump).addLabel.popStack 1).defineLabel s₁.labels.length) hd₂ h₃
  have hnone₁ : s₂.labels[s₁.labels.length]? = some none :=
    f₂.getElem?_labels (State.getElem?_addLabel (s₁.emitOp .opIfQues))
  have hlt := (List.getElem?_eq_some_iff.mp hnone₁).1
  have hnone₂ : ((s₂.emitOp .opJump).addLabel.popStack 1).labels[s₁.labels.length]?
      = some none :=
    (Keeps.addLabel (r := r) (s := s₂.emitOp .opJump)).getElem?_labels hnone₁
  have hnone₃ : s₃.labels[s₂.labels.length]? = some none := by
    apply f₃.getElem?_labels
    rw [State.getElem?_defineLabel_ne (Nat.ne_of_lt hlt)]
    exact State.getElem?_addLabel (s₂.emitOp .opJump)
  have g₃ : Grows r s₃ F := (Grows.defineLabel hnone₃).trans hg
  have g₂' : Grows r (((s₂.emitOp .opJump).addLabel.popStack 1).defineLabel
    s₁.labels.length) F := f₃.grows.trans g₃
  have g₂ : Grows r (s₂.emitOp .opJump).addLabel F :=
    (Grows.popStack 1).trans ((Grows.defineLabel hnone₂).trans g₂')
  have g₁ : Grows r (s₁.emitOp .opIfQues).addLabel F :=
    (Grows.popStack 1).trans (f₂.grows.trans (Grows.trans (Grows.emitOp (by trivial))
      (Grows.addLabel.trans g₂)))
  have hp₂ := f₂.grows.pos_le bc.widths
  have hp₃ := f₃.grows.pos_le bc.widths
  have hs₁' : ((s₁.emitOp .opIfQues).addLabel.popStack 1).IsSound r :=
    (f₁.grows.trans (Grows.trans (Grows.emitOp (by trivial))
      (Grows.addLabel.trans (Grows.popStack 1)))).sound hs
  have hs₂ : s₂.IsSound r := f₂.grows.sound hs₁'
  have hs₂' : ((s₂.emitOp .opJump).addLabel.popStack 1).IsSound r :=
    (Grows.trans (Grows.emitOp (by trivial)) (Grows.addLabel.trans (Grows.popStack 1))).sound hs₂
  have hs₃ : s₃.IsSound r := ((Grows.defineLabel hnone₂).trans f₃.grows).sound hs₂'
  have hc₁ : ((s₁.emitOp .opIfQues).addLabel.popStack 1).curStack = s.curStack := by
    change s₁.curStack - 1 = _
    rw [f₁.curStack]
    rfl
  have hc₂ : (((s₂.emitOp .opJump).addLabel.popStack 1).defineLabel
      s₁.labels.length).curStack = s.curStack := by
    change s₂.curStack - 1 = _
    rw [f₂.curStack, hc₁]
    rfl
  have hlabel := c.linked.read_label hs₂' (List.getElem?_eq_some_iff.mp hnone₂).1 g₂' g₁.cells
  have hjump := c.linked.read_emitOp (Grows.addLabel.trans g₂)
  have hdone := c.linked.read_label hs₃ (List.getElem?_eq_some_iff.mp hnone₃).1 hg g₂.cells
  have hleft := iy h₂ hd₁ hs₁'
    (Grows.trans (Grows.emitOp (by trivial)) (Grows.addLabel.trans g₂)) (Nat.le_refl _) (hc₁ ▸ hlen)
  have hright := iz h₃ hd₂ ((Grows.defineLabel hnone₂).sound hs₂')
    g₃ (Nat.le_refl _) (hc₂ ▸ hlen)
  simp only [State.pos_popStack, State.pos_emitOp, State.pos_addLabel, State.pos_defineLabel,
    Bytecodes.widths_label] at hstop hp₂ hp₃ hlabel hdone hleft hright ⊢
  refine (ix h₁ hd hs
    (Grows.trans (Grows.emitOp (by trivial)) (Grows.addLabel.trans g₁)) (by omega) hlen).trans ?_
  obtain ⟨n, hn⟩ := hleft.decompile false false
  obtain ⟨m, hm⟩ := hright.decompile false false
  refine c.evals_op (Grows.addLabel.trans g₁) (by omega) hcap
    ⟨max n m, fun fuel hfuel a b st hst => ?_⟩
  have hrec₁ := hn fuel (by omega)
  have hrec₂ := hm fuel (by omega)
  have hend : s₂.pos bc.widths + 1 + bc.numbytesLabel - (bc.numbytesLabel + 1)
    = s₂.pos bc.widths := by omega
  have hptr : s₂.pos bc.widths + bc.numbytesLabel + 1
    = s₂.pos bc.widths + 1 + bc.numbytesLabel := by omega
  simp [decompileOp, hlabel, hst, popExpr, hend, hrec₁, readJump, hjump, hdone, hptr, hrec₂,
    bind, Except.bind, Expr.mapLiterals]

/-- What both kinds of catch expression have in front of their handlers. -/
lemma yields_catch_aux {e y : Expr} {codes : ArgList} {s s₁ s₃ : State}
    (hbe : e.isBuilt dollars = true) (hwe : e.isWithin lim = true)
    (hbc : codes.isBuilt dollars = true) (hwc : codes.isWithin lim = true)
    (ie : YieldsExpr r prog cap slack F bc dollars e)
    (icodes : YieldsArgs r prog cap slack F bc dollars (.optimNum 0) codes)
    (h₁ : generateArgs r (.optimNum 0) codes s = .ok s₁)
    (h₃ : generateExpr r e s₁.emitCatch.incrTryDepth = .ok s₃)
    (hd : dollars = true → s.savedStack.isSome = true) (hs : s.IsSound r)
    (hg : Grows r (s₃.decrTryDepth.emitEndCatch s₁.labels.length) F) {stop : Nat}
    (hstop : s₃.pos bc.widths + 2 ≤ stop) {es : List Expr}
    (hlen : es.length ≤ slack + s.curStack) {done q : Nat}
    (hdone : readBytes bc.vector bc.numbytesLabel (s₃.pos bc.widths + 2) = .ok done)
    (hfinish : ∃ n, ∀ fuel ≥ n, ∀ st, finishCatch r cap (decompile r prog cap fuel) bc
      (s₃.pos bc.widths + 2 + bc.numbytesLabel) done (e.canon prog)
      (codes.mapLiterals (canonLiteral prog.literals)) es st = pushNode cap q y es st) :
    Evals r prog cap bc stop (s.pos bc.widths) q es (y :: es) := by
  have f₁ := frame_of_generateArgs hlim.toIsByte (by cases r <;> decide) hbc hwc hd h₁
  have kc : Keeps r s s₁.emitCatch := f₁.trans Keeps.emitCatch
  have hd₁ : dollars = true → s₁.emitCatch.incrTryDepth.savedStack.isSome = true :=
    kc.savedStack ▸ hd
  have f₃ := frame_of_generateExpr hlim.toIsByte hbe hwe hd₁ h₃
  have hnone : s₃.labels[s₁.labels.length]? = some none :=
    f₃.getElem?_labels s₁.getElem?_emitCatch
  have hs₁ : s₁.IsSound r := f₁.grows.sound hs
  have ge : Grows r s₁ s₁.emitCatch := Keeps.emitCatch.grows
  have hs₁' : s₁.emitCatch.incrTryDepth.IsSound r := (ge.trans .incrTryDepth).sound hs₁
  have g₃ : Grows r s₃ F := Grows.decrTryDepth.trans
    ((Grows.emitEndCatch (s := s₃.decrTryDepth) hnone).trans hg)
  have g₁ : Grows r s₁.emitCatch F := Grows.incrTryDepth.trans (f₃.grows.trans g₃)
  have hp₃ : s₁.emitCatch.pos bc.widths ≤ s₃.pos bc.widths := f₃.grows.pos_le bc.widths
  have hp₁ := ge.pos_le bc.widths
  have hc₁ := f₁.curStack
  have hc₂ : s₁.emitCatch.incrTryDepth.curStack = s₁.curStack + 2 := rfl
  have hbody : Evals r prog cap bc stop (s₁.emitCatch.pos bc.widths) (s₃.pos bc.widths) es
      (e.canon prog :: es) := ie h₃ hd₁ hs₁' g₃ (by omega) (by omega)
  refine (icodes h₁ hd hs (ge.trans g₁) (by omega) hlen).trans ?_
  exact c.evals_catch (t := s₃.decrTryDepth) hs₁ g₁ ((f₃.grows.trans .decrTryDepth).sound hs₁')
    hnone hg hstop hp₃ (by omega) hbody hdone hfinish

lemma yields_catch_none {e : Expr} {codes : ArgList}
    (hb : (Expr.catchExpr e codes .none).isBuilt dollars = true)
    (hw : (Expr.catchExpr e codes .none).isWithin lim = true)
    (ie : YieldsExpr r prog cap slack F bc dollars e)
    (icodes : YieldsArgs r prog cap slack F bc dollars (.optimNum 0) codes) :
    YieldsExpr r prog cap slack F bc dollars (.catchExpr e codes .none) := by
  intro s t h hd hs hg stop hstop es hlen
  simp only [Expr.isBuilt, Expr.isWithin, Bool.and_eq_true] at hb hw
  simp only [generateExpr, Except.bind_eq_ok] at h
  obtain ⟨s₁, h₁, s₃, h₃, h⟩ := h
  obtain rfl := Except.ok.inj h
  have hone : (Opcode.optimNum 1).IsValid r := by cases r <;> decide
  have f₁ := frame_of_generateArgs hlim.toIsByte (by cases r <;> decide) hb.1.2 hw.1.2 hd h₁
  have kc : Keeps r s s₁.emitCatch := f₁.trans Keeps.emitCatch
  have f₃ := frame_of_generateExpr hlim.toIsByte hb.1.1 hw.1.1
    (s := s₁.emitCatch.incrTryDepth) (kc.savedStack ▸ hd) h₃
  have hnone : s₃.labels[s₁.labels.length]? = some none :=
    f₃.getElem?_labels s₁.getElem?_emitCatch
  have hlt := (List.getElem?_eq_some_iff.mp hnone).1
  have hend := s₃.decrTryDepth.getElem?_emitEndCatch hlt
  have hs₃ : s₃.decrTryDepth.IsSound r := (kc.grows.trans (Grows.incrTryDepth.trans
    (f₃.grows.trans .decrTryDepth))).sound hs
  have ge : Grows r s₃.decrTryDepth (s₃.decrTryDepth.emitEndCatch s₁.labels.length) :=
    Grows.emitEndCatch hnone
  generalize hs₄ : s₃.decrTryDepth.emitEndCatch s₁.labels.length = s₄ at hend hg hstop ge
  have g₆ : Grows r ((s₄.emitOp (.optimNum 1)).emitSkewed .opRef 1) F :=
    Grows.trans (Grows.defineLabel hend) hg
  have g₅ : Grows r (s₄.emitOp (.optimNum 1)) F := Grows.trans (Grows.emitSkewed 1 (by trivial)) g₆
  have g₄ : Grows r s₄ F := Grows.trans (Grows.emitOp hone) g₅
  have hs₆ : ((s₄.emitOp (.optimNum 1)).emitSkewed .opRef 1).IsSound r :=
    (ge.trans (Grows.trans (Grows.emitOp hone) (Grows.emitSkewed 1 (by trivial)))).sound hs₃
  have hp₄ : s₄.pos bc.widths = s₃.pos bc.widths + 2 + bc.numbytesLabel := by
    rw [← hs₄]
    simp [State.emitEndCatch]
  have hdone : readBytes bc.vector bc.numbytesLabel (s₃.pos bc.widths + 2)
      = .ok (s₄.pos bc.widths + 2) := by
    have hcells : (s₃.decrTryDepth.emitExtended .eopEndCatch).addLabel.cells <+: F.cells := by
      rw [← hs₄] at g₄
      exact g₄.cells
    simpa using c.linked.read_label hs₆ (List.getElem?_eq_some_iff.mp hend).1 hg hcells
  have hop₁ := c.linked.read_emitOp g₅
  have hop₂ := c.linked.read_op (by decide) g₆.cells
  simp only [State.pos_defineLabel, State.pos_emitSkewed, State.pos_emitOp] at hstop hop₂ ⊢
  refine yields_catch_aux hlim c hb.1.1 hw.1.1 hb.1.2 hw.1.2 ie icodes h₁ h₃ hd hs
    (by rw [hs₄]; exact g₄) (by omega) hlen hdone ⟨0, fun fuel _ st => ?_⟩
  rw [← hp₄]
  simp [finishCatch, hop₁, hop₂, bind, Except.bind, Expr.mapLiterals, Default.mapLiterals]

lemma yields_catch_some {e d : Expr} {codes : ArgList}
    (hb : (Expr.catchExpr e codes (.some d)).isBuilt dollars = true)
    (hw : (Expr.catchExpr e codes (.some d)).isWithin lim = true)
    (ie : YieldsExpr r prog cap slack F bc dollars e)
    (icodes : YieldsArgs r prog cap slack F bc dollars (.optimNum 0) codes)
    (id : YieldsExpr r prog cap slack F bc dollars d) :
    YieldsExpr r prog cap slack F bc dollars (.catchExpr e codes (.some d)) := by
  intro s t h hd hs hg stop hstop es hlen
  simp only [Expr.isBuilt, Expr.isWithin, Default.isBuilt, Default.isWithin,
    Bool.and_eq_true] at hb hw
  simp only [generateExpr, Except.bind_eq_ok] at h
  obtain ⟨s₁, h₁, s₃, h₃, s₅, h₅, h⟩ := h
  obtain rfl := Except.ok.inj h
  have f₁ := frame_of_generateArgs hlim.toIsByte (by cases r <;> decide) hb.1.2 hw.1.2 hd h₁
  have kc : Keeps r s s₁.emitCatch := f₁.trans Keeps.emitCatch
  have f₃ := frame_of_generateExpr hlim.toIsByte hb.1.1 hw.1.1
    (s := s₁.emitCatch.incrTryDepth) (kc.savedStack ▸ hd) h₃
  have hnone : s₃.labels[s₁.labels.length]? = some none :=
    f₃.getElem?_labels s₁.getElem?_emitCatch
  have hlt := (List.getElem?_eq_some_iff.mp hnone).1
  have hend := s₃.decrTryDepth.getElem?_emitEndCatch hlt
  have hs₃ : s₃.decrTryDepth.IsSound r := (kc.grows.trans (Grows.incrTryDepth.trans
    (f₃.grows.trans .decrTryDepth))).sound hs
  have ge : Grows r s₃.decrTryDepth (s₃.decrTryDepth.emitEndCatch s₁.labels.length) :=
    Grows.emitEndCatch hnone
  have hsaved : (s₃.decrTryDepth.emitEndCatch s₁.labels.length).savedStack = s.savedStack :=
    ((kc.decrTryDepth f₃.toKeeps).emitEndCatch f₁.labels.length_le hnone).savedStack
  have hcur : (s₃.decrTryDepth.emitEndCatch s₁.labels.length).curStack = s.curStack + 1 := by
    change s₃.curStack - 3 = _
    have hc₂ : s₁.emitCatch.curStack = s₁.curStack + 2 := rfl
    rw [f₃.curStack, State.incrTryDepth_curStack, hc₂, f₁.curStack]
    omega
  generalize hs₄ : s₃.decrTryDepth.emitEndCatch s₁.labels.length = s₄ at *
  have hd₄ : dollars = true → ((s₄.emitOp .opPop).popStack 1).savedStack.isSome = true :=
    hsaved ▸ hd
  have f₅ := frame_of_generateExpr hlim.toIsByte hb.2 hw.2 hd₄ h₅
  have hnone₅ : s₅.labels[s₃.labels.length]? = some none := f₅.getElem?_labels hend
  have g₆ : Grows r s₅ F := (Grows.defineLabel hnone₅).trans hg
  have g₅ : Grows r (s₄.emitOp .opPop) F := (Grows.popStack 1).trans (f₅.grows.trans g₆)
  have g₄ : Grows r s₄ F := Grows.trans (Grows.emitOp (by trivial)) g₅
  have hs₄' : ((s₄.emitOp .opPop).popStack 1).IsSound r :=
    (ge.trans (Grows.trans (Grows.emitOp (by trivial)) (Grows.popStack 1))).sound hs₃
  have hp₄ : s₄.pos bc.widths = s₃.pos bc.widths + 2 + bc.numbytesLabel := by
    rw [← hs₄]
    simp [State.emitEndCatch]
  have hdone : readBytes bc.vector bc.numbytesLabel (s₃.pos bc.widths + 2)
      = .ok (s₅.pos bc.widths) := by
    have hcells : (s₃.decrTryDepth.emitExtended .eopEndCatch).addLabel.cells <+: F.cells := by
      rw [← hs₄] at g₄
      exact g₄.cells
    simpa using c.linked.read_label (f₅.grows.sound hs₄')
      (List.getElem?_eq_some_iff.mp hnone₅).1 hg hcells
  have hop := c.linked.read_emitOp g₅
  have hp₅ := f₅.grows.pos_le bc.widths
  have hc₄ : ((s₄.emitOp .opPop).popStack 1).curStack = s₄.curStack - 1 := rfl
  have hlen₄ : es.length ≤ slack + ((s₄.emitOp .opPop).popStack 1).curStack := by omega
  have hdflt := id h₅ hd₄ hs₄' g₆ (Nat.le_refl _) hlen₄
  obtain ⟨n, hn⟩ := hdflt.decompile false false
  simp only [State.pos_defineLabel, State.pos_popStack, State.pos_emitOp] at hstop hp₅ hn ⊢
  refine yields_catch_aux hlim c hb.1.1 hw.1.1 hb.1.2 hw.1.2 ie icodes h₁ h₃ hd hs
    (by rw [hs₄]; exact g₄) (by omega) hlen hdone ⟨n, fun fuel hfuel st => ?_⟩
  have hne : ¬ Opcode.opPop.code r = (Opcode.optimNum 1).code r := by cases r <;> decide
  rw [← hp₄]
  simp [finishCatch, hop, hne, hn fuel hfuel, popExpr, bind, Except.bind, Expr.mapLiterals,
    Default.mapLiterals]

/-! ### Argument lists -/

lemma yields_args_nil {o : Opcode} (ho : o = .opMakeEmptyList ∨ o = .optimNum 0) :
    YieldsArgs r prog cap slack F bc dollars o .nil := by
  intro s t h hd hs hg stop hstop es hlen
  have hvalid : o.IsValid r := by
    rcases ho with rfl | rfl
    · trivial
    · cases r <;> decide
  have f := frame_of_generateArgs hlim.toIsByte hvalid rfl rfl hd h
  have hcap := c.lt_cap_of_frame f hs hg hlen
  obtain rfl := Except.ok.inj h
  simp only [State.pos_pushStack, State.pos_emitOp] at hstop ⊢
  refine c.evals_op ((Grows.pushStack 1).trans hg) hstop hcap ⟨0, fun fuel _ a b st hst => ?_⟩
  rcases ho with rfl | rfl <;> rw [decompileOp, hst] <;> rfl

/-- Later arguments are added to the list on top of the expression stack. -/
def YieldsMoreArgs (r : Bool) (prog : Program) (cap slack : Nat) (F : State) (bc : Bytecodes)
    (dollars : Bool) (args : ArgList) : Prop :=
  ∀ ⦃s t : State⦄, generateMoreArgs r args s = .ok t →
    (dollars = true → s.savedStack.isSome = true) → s.IsSound r → Grows r t F →
    ∀ ⦃stop : Nat⦄, t.pos bc.widths ≤ stop → ∀ ⦃es : List Expr⦄,
      es.length + 1 ≤ slack + s.curStack → ∀ kind x next,
        Evals r prog cap bc stop (s.pos bc.widths) (t.pos bc.widths)
          (.list (.cons kind x next) :: es)
          (.list ((ArgList.cons kind x next).append
            (args.mapLiterals (canonLiteral prog.literals))) :: es)

lemma yields_args_cons {o : Opcode} (ho : o = .opMakeEmptyList ∨ o = .optimNum 0)
    {kind : ArgKind} {e : Expr} {next : ArgList}
    (hb : (ArgList.cons kind e next).isBuilt dollars = true)
    (hw : (ArgList.cons kind e next).isWithin lim = true)
    (ie : YieldsExpr r prog cap slack F bc dollars e)
    (inext : YieldsMoreArgs r prog cap slack F bc dollars next) :
    YieldsArgs r prog cap slack F bc dollars o (.cons kind e next) := by
  intro s t h hd hs hg stop hstop es hlen
  simp only [ArgList.isBuilt, ArgList.isWithin, Bool.and_eq_true] at hb hw
  simp only [generateArgs, Except.bind_eq_ok] at h
  obtain ⟨s₁, h₁, h₂⟩ := h
  have f₁ := frame_of_generateExpr hlim.toIsByte hb.1 hw.1 hd h₁
  have hexpr : (ArgList.cons kind e next).asExpr prog o = .list ((ArgList.cons kind
      (e.canon prog) .nil).append (next.mapLiterals (canonLiteral prog.literals))) := by
    rcases ho with rfl | rfl <;> rfl
  have f₂ := frame_of_generateMoreArgs hlim.toIsByte hb.2 hw.2
    (s := s₁.emitOp kind.firstOp) (f₁.savedStack ▸ hd) h₂
  have g₂ : Grows r (s₁.emitOp kind.firstOp) F := f₂.grows.trans hg
  have g₁ : Grows r s₁ F := Grows.trans (Grows.emitOp kind.isValid_firstOp) g₂
  have hcap := c.lt_cap_of_frame f₁ hs g₁ hlen
  have hp₂ := f₂.grows.pos_le bc.widths
  rw [State.pos_emitOp] at hp₂
  have hfirst : Evals r prog cap bc stop (s₁.pos bc.widths)
      ((s₁.emitOp kind.firstOp).pos bc.widths) (e.canon prog :: es)
      (.list (.cons kind (e.canon prog) .nil) :: es) := by
    rw [State.pos_emitOp]
    refine c.evals_op g₂ (by omega) hcap ⟨0, fun fuel _ a b st hst => ?_⟩
    cases kind <;> simp only [ArgKind.firstOp, decompileOp, hst, popExpr, bind, Except.bind]
  simp only [hexpr]
  refine (ie h₁ hd hs g₁ (by omega) hlen).trans (hfirst.trans
    (inext h₂ (f₁.savedStack ▸ hd) ((Grows.trans f₁.grows (Grows.emitOp
      kind.isValid_firstOp)).sound hs) hg hstop ?_ _ _ _))
  change _ ≤ _ + s₁.curStack
  rw [f₁.curStack]
  omega

lemma yields_moreArgs_cons {kind' : ArgKind} {e : Expr} {rest : ArgList}
    (hb : (ArgList.cons kind' e rest).isBuilt dollars = true)
    (hw : (ArgList.cons kind' e rest).isWithin lim = true)
    (ie : YieldsExpr r prog cap slack F bc dollars e)
    (irest : YieldsMoreArgs r prog cap slack F bc dollars rest) :
    YieldsMoreArgs r prog cap slack F bc dollars (.cons kind' e rest) := by
  intro s t h hd hs hg stop hstop es hlen kind x next
  simp only [ArgList.isBuilt, ArgList.isWithin, Bool.and_eq_true] at hb hw
  simp only [generateMoreArgs, Except.bind_eq_ok] at h
  obtain ⟨s₁, h₁, h₂⟩ := h
  have f₁ := frame_of_generateExpr hlim.toIsByte hb.1 hw.1 hd h₁
  have f₂ := frame_of_generateMoreArgs hlim.toIsByte hb.2 hw.2
    (s := (s₁.emitOp kind'.moreOp).popStack 1) (f₁.savedStack ▸ hd) h₂
  have g₂ : Grows r (s₁.emitOp kind'.moreOp) F := (Grows.popStack 1).trans (f₂.grows.trans hg)
  have g₁ : Grows r s₁ F := Grows.trans (Grows.emitOp kind'.isValid_moreOp) g₂
  have hlen' : (Expr.list (.cons kind x next) :: es).length ≤ slack + s.curStack := hlen
  have hcap : es.length < cap := by
    have := c.lt_cap_of_frame f₁ hs g₁ hlen'
    rw [List.length_cons] at this
    omega
  have hp₂ := f₂.grows.pos_le bc.widths
  rw [State.pos_popStack, State.pos_emitOp] at hp₂
  have hmore : Evals r prog cap bc stop (s₁.pos bc.widths)
      (((s₁.emitOp kind'.moreOp).popStack 1).pos bc.widths)
      (e.canon prog :: .list (.cons kind x next) :: es)
      (.list (.cons kind x (next.snoc kind' (e.canon prog))) :: es) := by
    rw [State.pos_popStack, State.pos_emitOp]
    refine c.evals_op g₂ (by omega) hcap ⟨0, fun fuel _ a b st hst => ?_⟩
    cases kind' <;>
      simp [ArgKind.moreOp, decompileOp, hst, popExpr, bind, Except.bind, ArgList.snoc]
  have hsnoc : (ArgList.cons kind x next).append
      ((ArgList.cons kind' e rest).mapLiterals (canonLiteral prog.literals))
      = (ArgList.cons kind x (next.snoc kind' (e.canon prog))).append
        (rest.mapLiterals (canonLiteral prog.literals)) := by
    rw [ArgList.append, ArgList.append, ArgList.snoc_append, ArgList.mapLiterals]
  rw [hsnoc]
  refine (ie h₁ hd hs g₁ (by omega) hlen').trans (hmore.trans
    (irest h₂ (f₁.savedStack ▸ hd) ((Grows.trans f₁.grows (Grows.trans (Grows.emitOp
      kind'.isValid_moreOp) (Grows.popStack 1))).sound hs) hg hstop ?_ _ _ _))
  change _ ≤ _ + (s₁.curStack - 1)
  rw [f₁.curStack]
  omega

end

end LambdaMOO
