import LambdaMOO.Decompile.Expr

/-!
# Decompiling assignments

Assignments to variables and properties, indexed assignments, whose storing instructions
the decompiler skips, and scattering assignments. The last section puts the cases of all
expressions together.
-/

namespace LambdaMOO

section

variable {r : Bool} {prog : Program} {cap slack : Nat} {F : State} {bc : Bytecodes}
  {lim : Limits} {dollars : Bool} (hlim : lim.IsReady) (c : Ctx r prog cap slack F bc)

include hlim c

/-! ### Lvalues -/

/-- The code of an lvalue: its value if it is indexed further, else its parts. -/
abbrev YieldsLvalue (r : Bool) (prog : Program) (cap slack : Nat) (F : State) (bc : Bytecodes)
    (dollars indexedAbove : Bool) (e : Expr) : Prop :=
  Yields r prog cap slack F bc dollars (pushLvalue r e indexedAbove)
    (if indexedAbove then (e.canon prog :: ·) else (e.parts prog ++ ·))

lemma yields_lvalue_id {slot : Nat} (hw : (Expr.id slot).isWithin lim = true)
    (indexedAbove : Bool) :
    YieldsLvalue r prog cap slack F bc dollars indexedAbove (.id slot) := by
  intro s t h hd hs hg stop hstop es hlen
  cases indexedAbove with
  | false =>
    obtain rfl := Except.ok.inj h
    exact Evals.refl _ _
  | true =>
    have hb : (Expr.id slot).isBuilt dollars = true := rfl
    exact yields_id hlim c hb hw h hd hs hg hstop hlen

lemma yields_lvalue_prop {lhs rhs : Expr} (hb : (Expr.prop lhs rhs).isBuilt dollars = true)
    (hw : (Expr.prop lhs rhs).isWithin lim = true)
    (ilhs : YieldsExpr r prog cap slack F bc dollars lhs)
    (irhs : YieldsExpr r prog cap slack F bc dollars rhs) (indexedAbove : Bool) :
    YieldsLvalue r prog cap slack F bc dollars indexedAbove (.prop lhs rhs) := by
  intro s t h hd hs hg stop hstop es hlen
  simp only [Expr.isBuilt, Expr.isWithin, Bool.and_eq_true] at hb hw
  simp only [pushLvalue, Except.bind_eq_ok] at h
  obtain ⟨s₁, h₁, s₂, h₂, h⟩ := h
  have f₁ := frame_of_generateExpr hlim.toIsByte hb.1 hw.1 hd h₁
  have f₂ := frame_of_generateExpr hlim.toIsByte hb.2 hw.2 (f₁.savedStack ▸ hd) h₂
  have hs₁ := f₁.grows.sound hs
  have hp₂ := f₂.grows.pos_le bc.widths
  have hlen₁ : (lhs.canon prog :: es).length ≤ slack + s₁.curStack := by
    rw [f₁.curStack, List.length_cons]
    omega
  cases indexedAbove with
  | false =>
    obtain rfl := Except.ok.inj h
    exact (ilhs h₁ hd hs (f₂.grows.trans hg) (by omega) hlen).trans
      (irhs h₂ (f₁.savedStack ▸ hd) hs₁ hg hstop hlen₁)
  | true =>
    obtain rfl := Except.ok.inj h
    have g₃ : Grows r (s₂.emitOp .opPushGetProp) F := (Grows.pushStack 1).trans hg
    have g₂ : Grows r s₂ F := Grows.trans (Grows.emitOp (by trivial)) g₃
    have hcap := c.lt_cap_of_frame f₁ hs (f₂.grows.trans g₂) hlen
    simp only [State.pos_pushStack, State.pos_emitOp] at hstop ⊢
    refine (ilhs h₁ hd hs (f₂.grows.trans g₂) (by omega) hlen).trans
      ((irhs h₂ (f₁.savedStack ▸ hd) hs₁ g₂ (by omega) hlen₁).trans
        (c.evals_op g₃ hstop hcap ⟨0, fun fuel _ a b st hst => ?_⟩))
    simp only [decompileOp, finishBinary, hst, popExpr, bind, Except.bind]
    rfl

lemma yields_lvalue_index {lhs rhs : Expr} (ht : lhs.isIndexTarget = true)
    (hb : (Expr.index lhs rhs).isBuilt dollars = true)
    (hw : (Expr.index lhs rhs).isWithin lim = true)
    (ilhs : YieldsLvalue r prog cap slack F bc dollars true lhs)
    (irhs : YieldsExpr r prog cap slack F bc true rhs) (indexedAbove : Bool) :
    YieldsLvalue r prog cap slack F bc dollars indexedAbove (.index lhs rhs) := by
  intro s t h hd hs hg stop hstop es hlen
  simp only [Expr.isBuilt, Expr.isWithin, Bool.and_eq_true] at hb hw
  simp only [pushLvalue, Except.bind_eq_ok] at h
  obtain ⟨s₁, h₁, s₂, h₂, h⟩ := h
  obtain ⟨k₁, hc₁⟩ := keeps_of_pushLvalue hlim.toIsByte
    ⟨Expr.isLvalue_of_isIndexTarget ht, fun _ => ht⟩ hb.1 hw.1 hd h₁
  have f₂ := frame_of_generateExpr hlim.toIsByte hb.2 hw.2 (fun _ => rfl) h₂
  have hs₁ : s₁.saveStackTop.IsSound r := (k₁.grows.trans .saveStackTop).sound hs
  have hp₂ : s₁.pos bc.widths ≤ s₂.pos bc.widths := f₂.grows.pos_le bc.widths
  have hlen₁ : (lhs.canon prog :: es).length ≤ slack + s₁.saveStackTop.curStack := by
    rw [State.saveStackTop_curStack, hc₁, List.length_cons, Bool.toNat_true]
    omega
  cases indexedAbove with
  | false =>
    obtain rfl := Except.ok.inj h
    have g₂ : Grows r s₂ F := (Grows.restoreStackTop _).trans hg
    exact (ilhs h₁ hd hs (Grows.saveStackTop.trans (f₂.grows.trans g₂)) (Nat.le_trans hp₂ hstop)
      hlen).trans (irhs h₂ (fun _ => rfl) hs₁ g₂ hstop hlen₁)
  | true =>
    obtain rfl := Except.ok.inj h
    have g₃ : Grows r ((s₂.restoreStackTop s₁.savedStack).emitOp .opPushRef) F :=
      (Grows.pushStack 1).trans hg
    have g₂ : Grows r s₂ F := (Grows.restoreStackTop _).trans (Grows.trans (Grows.emitOp (by trivial)) g₃)
    have hcap := c.lt_cap_of_frame f₂ hs₁ g₂ hlen₁
    rw [List.length_cons] at hcap
    simp only [State.pos_pushStack, State.pos_emitOp, State.pos_restoreStackTop] at hstop ⊢
    refine (ilhs h₁ hd hs (Grows.saveStackTop.trans (f₂.grows.trans g₂)) (by omega) hlen).trans
      ((irhs h₂ (fun _ => rfl) hs₁ g₂ (by omega) hlen₁).trans
        (c.evals_op (s := s₂.restoreStackTop s₁.savedStack) g₃ hstop (by omega)
          ⟨0, fun fuel _ a b st hst => ?_⟩))
    simp only [decompileOp, finishBinary, hst, popExpr, bind, Except.bind]
    rfl

omit c in
lemma yields_lvalue_range {base lo hi : Expr} (ht : base.isIndexTarget = true)
    (hb : (Expr.range base lo hi).isBuilt dollars = true)
    (hw : (Expr.range base lo hi).isWithin lim = true)
    (ibase : YieldsLvalue r prog cap slack F bc dollars true base)
    (ilo : YieldsExpr r prog cap slack F bc true lo)
    (ihi : YieldsExpr r prog cap slack F bc true hi) :
    YieldsLvalue r prog cap slack F bc dollars false (.range base lo hi) := by
  intro s t h hd hs hg stop hstop es hlen
  simp only [Expr.isBuilt, Expr.isWithin, Bool.and_eq_true] at hb hw
  simp only [pushLvalue, Except.bind_eq_ok] at h
  obtain ⟨s₁, h₁, s₂, h₂, s₃, h₃, h⟩ := h
  obtain rfl := Except.ok.inj h
  obtain ⟨k₁, hc₁⟩ := keeps_of_pushLvalue hlim.toIsByte
    ⟨Expr.isLvalue_of_isIndexTarget ht, fun _ => ht⟩ hb.1.1 hw.1.1 hd h₁
  have f₂ := frame_of_generateExpr hlim.toIsByte hb.1.2 hw.1.2 (fun _ => rfl) h₂
  have hd₂ : true = true → s₂.savedStack.isSome = true := fun _ => by rw [f₂.savedStack]; rfl
  have f₃ := frame_of_generateExpr hlim.toIsByte hb.2 hw.2 hd₂ h₃
  have hs₁ : s₁.saveStackTop.IsSound r := (k₁.grows.trans .saveStackTop).sound hs
  have g₃ : Grows r s₃ F := (Grows.restoreStackTop _).trans hg
  have hp₂ : s₁.pos bc.widths ≤ s₂.pos bc.widths := f₂.grows.pos_le bc.widths
  have hp₃ := f₃.grows.pos_le bc.widths
  rw [State.pos_restoreStackTop] at *
  have hlen₁ : (base.canon prog :: es).length ≤ slack + s₁.saveStackTop.curStack := by
    rw [State.saveStackTop_curStack, hc₁, List.length_cons, Bool.toNat_true]
    omega
  have hlen₂ : (lo.canon prog :: base.canon prog :: es).length ≤ slack + s₂.curStack := by
    rw [f₂.curStack, List.length_cons]
    omega
  exact (ibase h₁ hd hs (Grows.saveStackTop.trans (f₂.grows.trans (f₃.grows.trans g₃)))
    (by omega) hlen).trans ((ilo h₂ (fun _ => rfl) hs₁ (f₃.grows.trans g₃) (by omega)
      hlen₁).trans (ihi h₃ hd₂ (f₂.grows.sound hs₁) g₃ (by omega) hlen₂))

/-! ### Storing -/

omit hlim in
/-- `OP_PUT_TEMP` does nothing to the decompiler. -/
lemma Ctx.evals_putTemp {s : State} {stop : Nat} {es : List Expr}
    (hg : Grows r (s.emitOp .opPutTemp) F) (hstop : s.pos bc.widths + 1 ≤ stop) :
    Evals r prog cap bc stop (s.pos bc.widths) ((s.emitOp .opPutTemp).pos bc.widths) es es := by
  intro a b ss as k
  rw [State.pos_emitOp]
  exact c.runs_emitOp hg rfl hstop (.of_forall fun _ => rfl)

/-- Storing through an index: the value and the parts become one assignment, and the rest
of the stores is skipped. -/
lemma Ctx.evals_store_index {lhs rhs x y z : Expr} {s t : State} {stop : Nat} {es : List Expr}
    (ht : lhs.isIndexTarget = true) (hw : (Expr.index lhs rhs).isWithin lim = true)
    (hcur : (Expr.index lhs rhs).lvalueDepth + 1 ≤ s.curStack)
    (h : storeLvalue (.index lhs rhs) s = .ok t)
    (hg : Grows r ((t.emitOp .opPop).emitSkewed .opPushTemp (-1)) F)
    (hstop : t.pos bc.widths + 2 ≤ stop) (hcap : es.length < cap) :
    Evals r prog cap bc stop (s.pos bc.widths) (t.pos bc.widths + 2) (z :: y :: x :: es)
      (.asgn (.index x y) z :: es) := by
  simp only [storeLvalue] at h
  simp only [Expr.isWithin, Bool.and_eq_true, Expr.lvalueDepth] at hw hcur
  have hl := Expr.isLvalue_of_isIndexTarget ht
  have hc : lhs.lvalueDepth + 1 ≤ ((s.emitOp .opIndexset).popStack 2).curStack := by
    change _ ≤ s.curStack - 2
    omega
  obtain ⟨k, -⟩ := keeps_of_storeLvalue hlim.toIsByte (r := r) hl hw.1 hc h
  have g₂ : Grows r (t.emitOp .opPop) F := Grows.trans (Grows.emitSkewed (-1) (by trivial)) hg
  have g₁ : Grows r t F := Grows.trans (Grows.emitOp (by trivial)) g₂
  have g₀ : Grows r (s.emitOp .opIndexset) F := (Grows.popStack 2).trans (k.grows.trans g₁)
  have hskip₁ : Skips r bc ((s.emitOp .opIndexset).popStack 2) t :=
    c.skips_storeLvalue hlim hl hw.1 hc h g₁
  have hskip : Skips r bc (s.emitOp .opIndexset) (t.emitOp .opPop) :=
    hskip₁.trans (c.skips_emitCell (by decide) g₂ (by cases r <;> decide))
  have hp : s.pos bc.widths + 1 ≤ t.pos bc.widths := by
    simpa using k.grows.pos_le bc.widths
  refine c.evals_op g₀ (by omega) hcap ⟨0, fun fuel _ a b st hst => ?_⟩
  have hfinish := c.finishIndexedAssignment_eq hskip (by simp; omega) hg (.asgn (.index x y) z)
    es st
  simp only [State.pos_emitOp] at hfinish
  simp only [decompileOp, hst, popExpr, bind, Except.bind]
  exact hfinish

/-- Storing through a range. -/
lemma Ctx.evals_store_range {base lo hi x y y' z : Expr} {s t : State} {stop : Nat}
    {es : List Expr} (ht : base.isIndexTarget = true)
    (hw : (Expr.range base lo hi).isWithin lim = true)
    (hcur : (Expr.range base lo hi).lvalueDepth + 1 ≤ s.curStack)
    (h : storeLvalue (.range base lo hi) s = .ok t)
    (hg : Grows r ((t.emitOp .opPop).emitSkewed .opPushTemp (-1)) F)
    (hstop : t.pos bc.widths + 2 ≤ stop) (hcap : es.length < cap) :
    Evals r prog cap bc stop (s.pos bc.widths) (t.pos bc.widths + 2) (z :: y' :: y :: x :: es)
      (.asgn (.range x y y') z :: es) := by
  simp only [storeLvalue] at h
  simp only [Expr.isWithin, Bool.and_eq_true, Expr.lvalueDepth] at hw hcur
  have hl := Expr.isLvalue_of_isIndexTarget ht
  have hc : base.lvalueDepth + 1 ≤ ((s.emitExtended .eopRangeset).popStack 3).curStack := by
    change _ ≤ s.curStack - 3
    omega
  obtain ⟨k, -⟩ := keeps_of_storeLvalue hlim.toIsByte (r := r) hl hw.1.1 hc h
  have g₂ : Grows r (t.emitOp .opPop) F := Grows.trans (Grows.emitSkewed (-1) (by trivial)) hg
  have g₁ : Grows r t F := Grows.trans (Grows.emitOp (by trivial)) g₂
  have g₀ : Grows r (s.emitExtended .eopRangeset) F :=
    (Grows.popStack 3).trans (k.grows.trans g₁)
  have hskip₁ : Skips r bc ((s.emitExtended .eopRangeset).popStack 3) t :=
    c.skips_storeLvalue hlim hl hw.1.1 hc h g₁
  have hskip : Skips r bc (s.emitExtended .eopRangeset) (t.emitOp .opPop) :=
    hskip₁.trans (c.skips_emitCell (by decide) g₂ (by cases r <;> decide))
  have hp : s.pos bc.widths + 2 ≤ t.pos bc.widths := by
    simpa using k.grows.pos_le bc.widths
  refine c.evals_ext g₀ (by omega) hcap ⟨0, fun fuel _ a b st hst => ?_⟩
  have hfinish := c.finishIndexedAssignment_eq hskip (by simp; omega) hg
    (.asgn (.range x y y') z) es st
  simp only [State.pos_emitOp, State.pos_emitExtended] at hfinish
  simp only [decompileExt, hst, popExpr, bind, Except.bind]
  exact hfinish

lemma yields_asgn {lhs rhs : Expr} (hl : lhs.isLvalue = true)
    (hbl : lhs.isBuilt dollars = true) (hbr : rhs.isBuilt dollars = true)
    (hw : (Expr.asgn lhs rhs).isWithin lim = true)
    (ilhs : YieldsLvalue r prog cap slack F bc dollars false lhs)
    (irhs : YieldsExpr r prog cap slack F bc dollars rhs) :
    YieldsExpr r prog cap slack F bc dollars (.asgn lhs rhs) := by
  intro s t h hd hs hg stop hstop es hlen
  simp only [Expr.isWithin, Bool.and_eq_true] at hw
  rw [generateExpr_asgn hl] at h
  simp only [Except.bind_eq_ok] at h
  obtain ⟨s₁, h₁, s₂, h₂, s₃, h₃, h⟩ := h
  have hl' : lhs.isLvalue = true ∧ (false = true → lhs.isIndexTarget = true) := ⟨hl, by rintro ⟨⟩⟩
  obtain ⟨k₁, hc₁⟩ := keeps_of_pushLvalue hlim.toIsByte hl' hbl hw.1 hd h₁
  rw [Bool.toNat_false, Nat.add_zero] at hc₁
  have hd₁ : dollars = true → s₁.savedStack.isSome = true := k₁.savedStack ▸ hd
  have f₂ := frame_of_generateExpr hlim.toIsByte hbr hw.2 hd₁ h₂
  have hs₁ := k₁.grows.sound hs
  have hp₁ := k₁.grows.pos_le bc.widths
  have hp₂ := f₂.grows.pos_le bc.widths
  have hparts : (lhs.parts prog).length ≤ lhs.lvalueDepth := by
    cases lhs <;> simp [Expr.parts, Expr.lvalueDepth]
  have hlen₁ : (lhs.parts prog ++ es).length ≤ slack + s₁.curStack := by
    rw [hc₁, List.length_append]
    omega
  -- What is left after the parts and the value are on the expression stack.
  have hrest : Grows r s₂ F → s₂.pos bc.widths ≤ stop →
      Evals r prog cap bc stop (s₂.pos bc.widths) (t.pos bc.widths)
        (rhs.canon prog :: (lhs.parts prog ++ es)) ((Expr.asgn lhs rhs).canon prog :: es) →
      Evals r prog cap bc stop (s.pos bc.widths) (t.pos bc.widths) es
        ((Expr.asgn lhs rhs).canon prog :: es) := fun g₂ hstop₂ hstore =>
    (ilhs h₁ hd hs (f₂.grows.trans g₂) (by omega) hlen).trans
      ((irhs h₂ hd₁ hs₁ g₂ hstop₂ hlen₁).trans hstore)
  have hcap (g₂ : Grows r s₂ F) : es.length < cap := by
    have := c.lt_cap_of_frame f₂ hs₁ g₂ hlen₁
    rw [List.length_append] at this
    omega
  have hc₂ : s₂.curStack = s.curStack + lhs.lvalueDepth + 1 := by rw [f₂.curStack, hc₁]
  cases lhs with
  | id slot =>
    have hready := hlim.ready
    simp only [Expr.isWithin, decide_eq_true_eq] at hw
    obtain rfl : s₂.emitPut slot = s₃ := Except.ok.inj h₃
    obtain rfl : s₂.emitPut slot = t := Except.ok.inj h
    have g₂ : Grows r s₂ F := (Grows.emitPut (by have := hlim.slots; omega)).trans hg
    refine hrest g₂ ?_ (c.evals_emitPut (by omega) hg hstop (hcap g₂))
    rw [State.pos_emitPut (by omega)] at hstop
    omega
  | prop _ _ =>
    obtain rfl : (s₂.emitOp .opPutProp).popStack 2 = s₃ := Except.ok.inj h₃
    obtain rfl : (s₂.emitOp .opPutProp).popStack 2 = t := Except.ok.inj h
    have g₃ : Grows r (s₂.emitOp .opPutProp) F := (Grows.popStack 2).trans hg
    have g₂ : Grows r s₂ F := Grows.trans (Grows.emitOp (by trivial)) g₃
    simp only [State.pos_popStack, State.pos_emitOp] at hstop hrest ⊢
    refine hrest g₂ (by omega) (c.evals_op g₃ hstop (hcap g₂) ⟨0, fun fuel _ a b st hst => ?_⟩)
    simp only [decompileOp, hst, Expr.parts, List.cons_append, List.nil_append, popExpr, bind,
      Except.bind]
    rfl
  | index lhs' rhs' =>
    have ht : lhs'.isIndexTarget = true := hl
    obtain rfl : (s₃.emitOp .opPop).emitSkewed .opPushTemp (-1) = t := Except.ok.inj h
    have h₃ : storeLvalue (.index lhs' rhs') (s₂.emitOp .opPutTemp) = .ok s₃ := h₃
    have hcur : (Expr.index lhs' rhs').lvalueDepth + 1 ≤ (s₂.emitOp .opPutTemp).curStack := by
      change _ ≤ s₂.curStack
      omega
    obtain ⟨k₃, -⟩ := keeps_of_storeLvalue hlim.toIsByte (r := r) hl hw.1 hcur h₃
    have g₃ : Grows r (s₂.emitOp .opPutTemp) F := k₃.grows.trans (Grows.trans (Grows.emitOp (by trivial))
      (Grows.trans (Grows.emitSkewed (-1) (by trivial)) hg))
    have g₂ : Grows r s₂ F := Grows.trans (Grows.emitOp (by trivial)) g₃
    have hp₃ := k₃.grows.pos_le bc.widths
    simp only [State.pos_emitSkewed, State.pos_emitOp] at hstop hp₃ hrest ⊢
    exact hrest g₂ (by omega) ((c.evals_putTemp g₃ (by omega)).trans
      (c.evals_store_index hlim ht hw.1 hcur h₃ hg hstop (hcap g₂)))
  | range base lo hi =>
    have ht : base.isIndexTarget = true := hl
    obtain rfl : (s₃.emitOp .opPop).emitSkewed .opPushTemp (-1) = t := Except.ok.inj h
    have h₃ : storeLvalue (.range base lo hi) (s₂.emitOp .opPutTemp) = .ok s₃ := h₃
    have hcur : (Expr.range base lo hi).lvalueDepth + 1 ≤ (s₂.emitOp .opPutTemp).curStack := by
      change _ ≤ s₂.curStack
      omega
    obtain ⟨k₃, -⟩ := keeps_of_storeLvalue hlim.toIsByte (r := r) hl hw.1 hcur h₃
    have g₃ : Grows r (s₂.emitOp .opPutTemp) F := k₃.grows.trans (Grows.trans (Grows.emitOp (by trivial))
      (Grows.trans (Grows.emitSkewed (-1) (by trivial)) hg))
    have g₂ : Grows r s₂ F := Grows.trans (Grows.emitOp (by trivial)) g₃
    have hp₃ := k₃.grows.pos_le bc.widths
    simp only [State.pos_emitSkewed, State.pos_emitOp] at hstop hp₃ hrest ⊢
    exact hrest g₂ (by omega) ((c.evals_putTemp g₃ (by omega)).trans
      (c.evals_store_range hlim ht hw.1 hcur h₃ hg hstop (hcap g₂)))
  | _ =>
    simp [Expr.isLvalue, Expr.isIndexTarget] at hl

end

end LambdaMOO
