import LambdaMOO.CodeGen.Lays

/-!
# The traces of expressions

Every expression that the parser can build generates code with its trace, whatever its size.
-/

namespace LambdaMOO

attribute [local simp] Trace.append_assoc

variable {r : Bool}

lemma Lays.emitScatter {P : Set Nat} (targets : Scatter) (s : State) :
    Lays r P targets.countsTrace s (s.emitScatter targets) := by
  have h := (Lays.emitExtended (r := r) (P := P) (s := s) .eopScatter).trans
    ((Lays.emitByte targets.length).trans ((Lays.emitByte targets.numRequired).trans
      (Lays.emitByte ((targets.restPosition 0).getD (targets.length + 1)))))
  exact h.cast (by simp [Scatter.countsTrace])

lemma generateTargets_lays (targets : Scatter) (s : State) :
    Lays r ∅ targets.slotsTrace s (generateTargets targets s) ∧
      (generateTargets targets s).curStack = s.curStack ∧
      (generateTargets targets s).labels
        = s.labels ++ List.replicate targets.numDefaults none := by
  match targets with
  | .nil => exact ⟨Lays.refl _ s, rfl, by simp [generateTargets, Scatter.numDefaults]⟩
  | .required slot next | .rest slot next =>
    obtain ⟨h, hc, hl⟩ := generateTargets_lays next ((s.addVarRef slot).addPseudoLabel 0)
    refine ⟨(Lays.addVarRef slot).trans ?_, hc, hl⟩
    exact ((Lays.addPseudoLabel (by decide)).trans h).cast (Trace.empty_append _)
  | .optional slot .none next =>
    obtain ⟨h, hc, hl⟩ := generateTargets_lays next ((s.addVarRef slot).addPseudoLabel 1)
    refine ⟨(Lays.addVarRef slot).trans ?_, hc, hl⟩
    exact ((Lays.addPseudoLabel (by decide)).trans h).cast (Trace.empty_append _)
  | .optional slot (.some e) next =>
    obtain ⟨h, hc, hl⟩ := generateTargets_lays next (s.addVarRef slot).addLabel
    refine ⟨(Lays.addVarRef slot).trans ?_, hc, ?_⟩
    · exact (Lays.addLabel.trans h).cast (Trace.empty_append _)
    · rw [generateTargets, hl, Scatter.numDefaults, List.replicate_succ]
      simp [State.addLabel, State.addFixup, State.addVarRef]

lemma State.openLabels_emitPut (n : Nat) (s : State) :
    (s.emitPut n).openLabels = s.openLabels := by
  unfold State.emitPut
  split_ifs <;> rfl

lemma State.openLabels_emitPush (n : Nat) (s : State) :
    (s.emitPush n).openLabels = s.openLabels := by
  unfold State.emitPush
  split_ifs <;> rfl

/-- Storing takes the parts of the lvalue from below the value. -/
lemma storeLvalue_lays {e : Expr} {s : State} (hl : e.isLvalue = true)
    (hs : e.lvalueDepth + 1 ≤ s.curStack) :
    ∃ t, storeLvalue e s = .ok t ∧ Lays r ∅ e.storeTrace s t ∧
      t.curStack + e.lvalueDepth = s.curStack ∧ t.openLabels = s.openLabels := by
  match e with
  | .range base lo hi =>
    simp only [Expr.lvalueDepth] at hs
    have hpop : ((s.emitExtended .eopRangeset).popStack 3).curStack = s.curStack - 3 := rfl
    obtain ⟨t, ht, h, hc, ho⟩ := storeLvalue_lays (e := base)
      (s := (s.emitExtended .eopRangeset).popStack 3) (Expr.isLvalue_of_isIndexTarget hl) (by omega)
    refine ⟨t, ht, ?_, ?_, ho⟩
    · exact ((Lays.emitExtended _).trans ((Lays.popStack 3).trans h)).cast (by
        simp [Expr.storeTrace])
    · simp only [Expr.lvalueDepth]
      omega
  | .index lhs rhs =>
    simp only [Expr.lvalueDepth] at hs
    have hpop : ((s.emitOp .opIndexset).popStack 2).curStack = s.curStack - 2 := rfl
    obtain ⟨t, ht, h, hc, ho⟩ := storeLvalue_lays (e := lhs)
      (s := (s.emitOp .opIndexset).popStack 2) (Expr.isLvalue_of_isIndexTarget hl) (by omega)
    refine ⟨t, ht, ?_, ?_, ho⟩
    · exact ((Lays.emitOp _).trans ((Lays.popStack 2).trans h)).cast (by simp [Expr.storeTrace])
    · simp only [Expr.lvalueDepth]
      omega
  | .id slot =>
    exact ⟨_, rfl, Lays.emitPut slot, State.curStack_emitPut slot s,
      State.openLabels_emitPut slot s⟩
  | .prop _ _ =>
    refine ⟨_, rfl, (Lays.emitOp _).trans (Lays.popStack 2), ?_, rfl⟩
    simp only [Expr.lvalueDepth] at hs ⊢
    have hpop : ((s.emitOp .opPutProp).popStack 2).curStack = s.curStack - 2 := rfl
    omega

/-- The trace of an assignment that is not a scattering one. -/
lemma Expr.trace_asgn {lhs rhs : Expr} (hl : lhs.isLvalue = true) (saved : Option Nat) (d : Nat) :
    (Expr.asgn lhs rhs).trace saved d = lhs.pushTrace saved d false
      ++ rhs.trace saved (d + lhs.lvalueDepth) ++ lhs.storeTrace := by
  cases lhs <;> first | rfl | simp [Expr.isLvalue, Expr.isIndexTarget] at hl

lemma State.curStack_emitCatch (s : State) : s.emitCatch.curStack = s.curStack + 2 := rfl

lemma Lays.emitCatch {P : Set Nat} {s : State} {d : Nat} (hc : s.curStack = d + 1) :
    Lays r P (.push (d + 3)) s s.emitCatch := by
  have h₁ : Lays r P .empty s (s.emitExtended .eopPushLabel).addLabel :=
    (Lays.emitExtended _).trans Lays.addLabel
  have h₂ : Lays r P (.push (d + 2)) s ((s.emitExtended .eopPushLabel).addLabel.pushStack 1) :=
    (h₁.trans (Lays.pushStack_of (congrArg (· + 1) hc))).cast (Trace.empty_append _)
  have h₃ : Lays r P (.push (d + 3)) ((s.emitExtended .eopPushLabel).addLabel.pushStack 1)
      s.emitCatch :=
    ((Lays.emitExtended .eopCatch).trans (Lays.pushStack_of (n := 1) (by
      change s.curStack + 1 + 1 = d + 3
      omega))).cast (Trace.empty_append _)
  exact (h₂.trans h₃).cast (Trace.push_append_push (by omega))

lemma Lays.emitEndCatch {s t : State} {tr : Trace} {id : Nat} (h : Lays r ∅ tr s t)
    (hid : s.labels.length ≤ id) : Lays r ∅ tr s (t.emitEndCatch id) := by
  refine Lays.defineLabel ?_ hid
  have hend := (Lays.emitExtended (r := r) (P := ∅) (s := t) .eopEndCatch).trans
    (Lays.addLabel.trans (Lays.popStack 3))
  exact (h.trans hend).cast (by simp)


/-- The end of the code for the true branch of a conditional, where the false branch begins. -/
lemma laid_else {a b : Trace} {s s₁ s₂ : State} (f₁ : Laid r a 1 s s₁)
    (f₂ : Laid r b 1 ((s₁.emitOp .opIfQues).addLabel.popStack 1) s₂) :
    Lays r ∅ (a ++ b) s (((s₂.emitOp .opJump).addLabel.popStack 1).defineLabel s₁.labels.length) ∧
      (((s₂.emitOp .opJump).addLabel.popStack 1).defineLabel s₁.labels.length).curStack
        = s.curStack ∧
      (((s₂.emitOp .opJump).addLabel.popStack 1).defineLabel s₁.labels.length).openLabels
        = s.openLabels + 1 ∧
      (((s₂.emitOp .opJump).addLabel.popStack 1).defineLabel s₁.labels.length).labels[
        s₂.labels.length]? = some none ∧ s.labels.length ≤ s₂.labels.length := by
  have hnone : s₂.labels[s₁.labels.length]? = some none :=
    f₂.getElem?_labels (State.getElem?_addLabel (s₁.emitOp .opIfQues))
  have hlt := (List.getElem?_eq_some_iff.mp hnone).1
  have helse : (s₂.emitOp .opJump).addLabel.labels[s₁.labels.length]? = some none :=
    (Lays.addLabel (r := r) (s := s₂.emitOp .opJump)).getElem?_labels hnone
  refine ⟨?_, ?_, ?_, ?_, Nat.le_trans f₁.labelCount (Nat.le_of_lt hlt)⟩
  · refine Lays.defineLabel ?_ f₁.labelCount
    exact (f₁.trans ((Lays.emitOp .opIfQues).trans (Lays.addLabel.trans
      ((Lays.popStack 1).trans (f₂.trans ((Lays.emitOp .opJump).trans (Lays.addLabel.trans
        (Lays.popStack 1)))))))).cast (by simp)
  · have hc₁ := f₁.curStack
    have hc₂ : s₂.curStack = s₁.curStack - 1 + 1 := f₂.curStack
    change s₂.curStack - 1 = s.curStack
    omega
  · have hopen := State.openLabels_defineLabel helse
    have ho₁ : (s₁.emitOp .opIfQues).openLabels = s.openLabels := f₁.openLabels
    have ho₂ : (s₂.emitOp .opJump).openLabels = (s₁.emitOp .opIfQues).addLabel.openLabels :=
      f₂.openLabels
    rw [State.openLabels_addLabel, ho₂, State.openLabels_addLabel, ho₁] at hopen
    exact Nat.succ.inj hopen
  · rw [State.getElem?_defineLabel_ne (Nat.ne_of_lt hlt)]
    exact State.getElem?_addLabel (s₂.emitOp .opJump)

/-- The end of the protected expression of a catch. -/
lemma laid_endCatch {a b : Trace} {d : Nat} {s s₁ s₃ : State} (hc : s.curStack = d)
    (f₁ : Laid r a 1 s s₁) (f₃ : Laid r b 1 s₁.emitCatch.incrTryDepth s₃) :
    Lays r ∅ (a ++ (.push (d + 3) ++ b)) s (s₃.decrTryDepth.emitEndCatch s₁.labels.length) ∧
      (s₃.decrTryDepth.emitEndCatch s₁.labels.length).curStack = s.curStack + 1 ∧
      (s₃.decrTryDepth.emitEndCatch s₁.labels.length).openLabels = s.openLabels + 1 ∧
      (s₃.decrTryDepth.emitEndCatch s₁.labels.length).labels[s₃.labels.length]? = some none ∧
      s.labels.length ≤ s₃.labels.length := by
  have hnone : s₃.labels[s₁.labels.length]? = some none :=
    f₃.getElem?_labels s₁.getElem?_emitCatch
  have hlt := (List.getElem?_eq_some_iff.mp hnone).1
  refine ⟨?_, ?_, ?_, s₃.decrTryDepth.getElem?_emitEndCatch hlt,
    Nat.le_trans f₁.labelCount (Nat.le_of_lt hlt)⟩
  · have hcatch := Lays.emitCatch (r := r) (P := ∅) (s := s₁) (d := d)
      (f₁.curStack.trans (congrArg (· + 1) hc))
    exact ((f₁.trans (hcatch.trans (Lays.incrTryDepth.trans (f₃.trans Lays.decrTryDepth)))).cast
      (by simp)).emitEndCatch f₁.labelCount
  · have hc₁ := f₁.curStack
    have hc₃ : s₃.curStack = s₁.curStack + 2 + 1 := f₃.curStack
    change s₃.curStack - 3 = s.curStack + 1
    omega
  · have hopen := State.openLabels_defineLabel (State.getElem?_endCatch (s := s₃.decrTryDepth) hnone)
    have ho : ((s₃.decrTryDepth.emitExtended .eopEndCatch).addLabel.popStack 3).openLabels
        = (s₃.decrTryDepth.emitExtended .eopEndCatch).addLabel.openLabels := rfl
    have ho₁ : (s₁.emitExtended .eopPushLabel).openLabels = s.openLabels := f₁.openLabels
    have ho₃ : (s₃.decrTryDepth.emitExtended .eopEndCatch).openLabels
        = (s₁.emitExtended .eopPushLabel).addLabel.openLabels := f₃.openLabels
    rw [ho, State.openLabels_addLabel, ho₃, State.openLabels_addLabel, ho₁] at hopen
    exact Nat.succ.inj hopen

/-- The end of an assignment that is not a scattering one. -/
lemma laid_store {lhs rhs : Expr} {saved : Option Nat} {d : Nat} {s s₁ s₂ : State}
    (hl : lhs.isLvalue = true)
    (f₁ : Laid r (lhs.pushTrace saved d false) (lhs.lvalueDepth + false.toNat) s s₁)
    (h₁ : pushLvalue r lhs false s = .ok s₁)
    (f₂ : Laid r (rhs.trace saved (d + lhs.lvalueDepth)) 1 s₁ s₂)
    (h₂ : generateExpr r rhs s₁ = .ok s₂) (hc : s.curStack = d) :
    ∃ t, generateExpr r (.asgn lhs rhs) s = .ok t ∧
      Laid r ((Expr.asgn lhs rhs).trace saved d) 1 s t := by
  have hc₂ : s₂.curStack = s.curStack + lhs.lvalueDepth + 1 := by
    rw [f₂.curStack, f₁.curStack]
    rfl
  have ho₂ : s₂.openLabels = s.openLabels := f₂.openLabels.trans f₁.openLabels
  rw [generateExpr_asgn hl, Expr.trace_asgn hl]
  simp only [Except.bind_eq_ok]
  by_cases hi : lhs.isIndexed = true
  · obtain ⟨s₃, h₃, k₃, hc₃, ho₃⟩ := storeLvalue_lays (r := r) (s := s₂.emitOp .opPutTemp) hl (by
      change _ ≤ s₂.curStack
      omega)
    have hc₃ : s₃.curStack + lhs.lvalueDepth = s₂.curStack := hc₃
    refine ⟨(s₃.emitOp .opPop).emitSkewed .opPushTemp (-1), ⟨s₁, h₁, s₂, h₂, s₃, ?_, ?_⟩, ?_, ?_,
      ho₃.trans ho₂⟩
    · rw [if_pos hi, h₃]
    · rw [if_pos hi]
      rfl
    · exact (f₁.trans (f₂.trans ((Lays.emitOp _).trans (k₃.trans ((Lays.emitOp _).trans
        (Lays.emitSkewed _ _)))))).cast (by simp)
    · change s₃.curStack = _
      omega
  · obtain ⟨s₃, h₃, k₃, hc₃, ho₃⟩ := storeLvalue_lays (r := r) (s := s₂) hl (by omega)
    refine ⟨s₃, ⟨s₁, h₁, s₂, h₂, s₃, ?_, ?_⟩, ?_, ?_, ho₃.trans ho₂⟩
    · rw [if_neg hi, h₃]
    · rw [if_neg hi]
      rfl
    · exact (f₁.trans (f₂.trans k₃)).cast (by simp)
    · omega

mutual
lemma generateExpr_laid (e : Expr) {dollars : Bool} (hb : e.isBuilt dollars = true)
    {saved : Option Nat} {d : Nat} (s : State) (hs : s.savedStack = saved) (hc : s.curStack = d)
    (hd : dollars = true → saved.isSome = true) :
    ∃ t, generateExpr r e s = .ok t ∧ Laid r (e.trace saved d) 1 s t := by
  match e with
  | .var v =>
    have himm : Laid r (.push (d + 1)) 1 s (((s.emitOp .opImm).addLiteral v).pushStack 1) := by
      refine ⟨?_, rfl, rfl⟩
      exact ((Lays.emitOp _).trans ((Lays.addLiteral v).trans
        (Lays.pushStack_of (congrArg (· + 1) hc)))).cast (by simp)
    cases v with
    | int n =>
      simp only [generateExpr]
      split_ifs with hn
      · refine ⟨_, rfl, ?_, rfl, rfl⟩
        exact ((Lays.emitOp _).trans (Lays.pushStack_of (congrArg (· + 1) hc))).cast
          (Trace.empty_append _)
      · exact ⟨_, rfl, himm⟩
    | _ => exact ⟨_, rfl, himm⟩
  | .id slot =>
    refine ⟨_, rfl, (Lays.emitPush slot).trans (Lays.pushStack_of ?_), ?_, ?_⟩
    · rw [State.curStack_emitPush, hc]
    · rw [State.pushStack_curStack, State.curStack_emitPush]
    · exact s.openLabels_emitPush slot
  | .logical op lhs rhs =>
    simp only [Expr.isBuilt, Bool.and_eq_true] at hb
    obtain ⟨s₁, h₁, f₁⟩ := generateExpr_laid lhs hb.1 s hs hc hd
    have hc₂ : ((s₁.emitOp op.opcode).addLabel.popStack 1).curStack = d := by
      change s₁.curStack - 1 = d
      rw [f₁.curStack, hc, Nat.add_sub_cancel]
    obtain ⟨s₂, h₂, f₂⟩ := generateExpr_laid rhs hb.2
      ((s₁.emitOp op.opcode).addLabel.popStack 1) (f₁.savedStack.trans hs) hc₂ hd
    have hnone : s₂.labels[s₁.labels.length]? = some none :=
      f₂.getElem?_labels (State.getElem?_addLabel (s₁.emitOp op.opcode))
    refine ⟨s₂.defineLabel s₁.labels.length, ?_, ?_, ?_, ?_⟩
    · simp only [generateExpr, Except.bind_eq_ok]
      exact ⟨s₁, h₁, s₂, h₂, rfl⟩
    · refine Lays.defineLabel ?_ f₁.labelCount
      exact (f₁.trans ((Lays.emitOp _).trans (Lays.addLabel.trans ((Lays.popStack 1).trans
        f₂.toLays)))).cast (by simp [Expr.trace])
    · rw [State.defineLabel_curStack, f₂.curStack, hc₂, hc]
    · have hopen := State.openLabels_defineLabel hnone
      have hadd := (s₁.emitOp op.opcode).openLabels_addLabel
      have ho₁ := f₁.openLabels
      have ho₂ : s₂.openLabels = (s₁.emitOp op.opcode).addLabel.openLabels := f₂.openLabels
      have ho : (s₁.emitOp op.opcode).openLabels = s₁.openLabels := rfl
      omega
  | .unary op e =>
    simp only [Expr.isBuilt, Bool.and_eq_true] at hb
    obtain ⟨s₁, h₁, f₁⟩ := generateExpr_laid e hb.2 s hs hc hd
    refine ⟨s₁.emitUnary op, ?_, ?_, ?_, ?_⟩
    · simp only [generateExpr, Except.bind_eq_ok]
      exact ⟨s₁, h₁, rfl⟩
    · exact (f₁.trans (Lays.emitUnary op)).cast (Trace.append_empty _)
    · rw [← f₁.curStack]
      cases op <;> rfl
    · rw [← f₁.openLabels]
      cases op <;> rfl
  | .binary op lhs rhs =>
    simp only [Expr.isBuilt, Bool.and_eq_true] at hb
    obtain ⟨s₁, h₁, f₁⟩ := generateExpr_laid lhs hb.1 s hs hc hd
    have hc₁ : s₁.curStack = d + 1 := f₁.curStack.trans (congrArg (· + 1) hc)
    obtain ⟨s₂, h₂, f₂⟩ := generateExpr_laid rhs hb.2 s₁ (f₁.savedStack.trans hs) hc₁ hd
    refine ⟨(s₂.emitBinary op).popStack 1, ?_, ?_, ?_, ?_⟩
    · simp only [generateExpr, Except.bind_eq_ok]
      exact ⟨s₁, h₁, s₂, h₂, rfl⟩
    · exact (f₁.trans (f₂.trans ((Lays.emitBinary op).trans (Lays.popStack 1)))).cast (by
        simp [Expr.trace])
    · have hop : (s₂.emitBinary op).curStack = s₂.curStack := by cases op <;> rfl
      rw [State.popStack_curStack, hop, f₂.curStack, f₁.curStack, Nat.add_sub_cancel]
    · have hop : ((s₂.emitBinary op).popStack 1).openLabels = s₂.openLabels := by
        cases op <;> rfl
      rw [hop, f₂.openLabels, f₁.openLabels]
  | .prop lhs rhs =>
    simp only [Expr.isBuilt, Bool.and_eq_true] at hb
    obtain ⟨s₁, h₁, f₁⟩ := generateExpr_laid lhs hb.1 s hs hc hd
    have hc₁ : s₁.curStack = d + 1 := f₁.curStack.trans (congrArg (· + 1) hc)
    obtain ⟨s₂, h₂, f₂⟩ := generateExpr_laid rhs hb.2 s₁ (f₁.savedStack.trans hs) hc₁ hd
    refine ⟨(s₂.emitOp .opGetProp).popStack 1, ?_, ?_, ?_, f₂.openLabels.trans f₁.openLabels⟩
    · simp only [generateExpr, Except.bind_eq_ok]
      exact ⟨s₁, h₁, s₂, h₂, rfl⟩
    · exact (f₁.trans (f₂.trans ((Lays.emitOp _).trans (Lays.popStack 1)))).cast (by
        simp [Expr.trace])
    · change s₂.curStack - 1 = _
      rw [f₂.curStack, f₁.curStack, Nat.add_sub_cancel]
  | .index lhs rhs =>
    simp only [Expr.isBuilt, Bool.and_eq_true] at hb
    obtain ⟨s₁, h₁, f₁⟩ := generateExpr_laid lhs hb.1 s hs hc hd
    have hc₁ : s₁.curStack = d + 1 := f₁.curStack.trans (congrArg (· + 1) hc)
    have hsaved : s₁.saveStackTop.savedStack = some d := by
      rw [State.saveStackTop_savedStack, hc₁, Nat.add_sub_cancel]
    obtain ⟨s₂, h₂, f₂⟩ := generateExpr_laid rhs hb.2 s₁.saveStackTop hsaved hc₁ (fun _ => rfl)
    refine ⟨((s₂.restoreStackTop s₁.savedStack).emitOp .opRef).popStack 1, ?_, ?_, ?_,
      f₂.openLabels.trans f₁.openLabels⟩
    · simp only [generateExpr, Except.bind_eq_ok]
      exact ⟨s₁, h₁, s₂, h₂, rfl⟩
    · exact (f₁.trans (f₂.toLays.restoreStackTop.trans ((Lays.emitOp _).trans
        (Lays.popStack 1)))).cast (by simp [Expr.trace])
    · change s₂.curStack - 1 = _
      rw [f₂.curStack, State.saveStackTop_curStack, f₁.curStack, Nat.add_sub_cancel]
  | .range base lo hi =>
    simp only [Expr.isBuilt, Bool.and_eq_true] at hb
    obtain ⟨s₁, h₁, f₁⟩ := generateExpr_laid base hb.1.1 s hs hc hd
    have hc₁ : s₁.curStack = d + 1 := f₁.curStack.trans (congrArg (· + 1) hc)
    have hsaved : s₁.saveStackTop.savedStack = some d := by
      rw [State.saveStackTop_savedStack, hc₁, Nat.add_sub_cancel]
    obtain ⟨s₂, h₂, f₂⟩ := generateExpr_laid lo hb.1.2 s₁.saveStackTop hsaved hc₁ (fun _ => rfl)
    have hc₂ : s₂.curStack = d + 2 := f₂.curStack.trans (congrArg (· + 1) hc₁)
    obtain ⟨s₃, h₃, f₃⟩ := generateExpr_laid hi hb.2 s₂ (f₂.savedStack.trans hsaved) hc₂
      (fun _ => rfl)
    refine ⟨((s₃.restoreStackTop s₁.savedStack).emitOp .opRangeRef).popStack 2, ?_, ?_, ?_, ?_⟩
    · simp only [generateExpr, Except.bind_eq_ok]
      exact ⟨s₁, h₁, s₂, h₂, s₃, h₃, rfl⟩
    · exact (f₁.trans ((f₂.trans f₃.toLays).restoreStackTop.trans ((Lays.emitOp _).trans
        (Lays.popStack 2)))).cast (by simp [Expr.trace])
    · change s₃.curStack - 2 = _
      rw [f₃.curStack, hc₂, hc]
      rfl
    · exact f₃.openLabels.trans (f₂.openLabels.trans f₁.openLabels)
  | .length =>
    obtain ⟨k, hk⟩ := Option.isSome_iff_exists.mp (hd (by simpa only [Expr.isBuilt] using hb))
    refine ⟨((s.emitExtended .eopLength).addStackRef k).pushStack 1, ?_, ?_, rfl, rfl⟩
    · simp only [generateExpr, hs, hk]
    · have href : Lays r ∅ (.op (.stack k)) (s.emitExtended .eopLength)
          ((s.emitExtended .eopLength).addStackRef k) :=
        Lays.addStackRef fun h => h.saved k (hs.trans hk)
      exact ((Lays.emitExtended _).trans (href.trans (Lays.pushStack_of
        (congrArg (· + 1) hc)))).cast (by simp [Expr.trace, hk])
  | .list args =>
    simp only [Expr.isBuilt] at hb
    simp only [generateExpr]
    exact generateArgs_laid .opMakeEmptyList args hb s hs hc hd
  | .call func args =>
    simp only [Expr.isBuilt, Bool.and_eq_true] at hb
    obtain ⟨s₁, h₁, f₁⟩ := generateArgs_laid .opMakeEmptyList args hb.2 s hs hc hd
    refine ⟨(s₁.emitOp .opBiFuncCall).emitByte func, ?_, ?_, f₁.curStack, f₁.openLabels⟩
    · simp only [generateExpr, Except.bind_eq_ok]
      exact ⟨s₁, h₁, rfl⟩
    · exact (f₁.trans ((Lays.emitOp _).trans (Lays.emitByte func))).cast (by simp [Expr.trace])
  | .verb obj verb args =>
    simp only [Expr.isBuilt, Bool.and_eq_true] at hb
    obtain ⟨s₁, h₁, f₁⟩ := generateExpr_laid obj hb.1.1 s hs hc hd
    have hc₁ : s₁.curStack = d + 1 := f₁.curStack.trans (congrArg (· + 1) hc)
    have hs₁ := f₁.savedStack.trans hs
    obtain ⟨s₂, h₂, f₂⟩ := generateExpr_laid verb hb.1.2 s₁ hs₁ hc₁ hd
    have hc₂ : s₂.curStack = d + 2 := f₂.curStack.trans (congrArg (· + 1) hc₁)
    obtain ⟨s₃, h₃, f₃⟩ := generateArgs_laid .opMakeEmptyList args hb.2 s₂
      (f₂.savedStack.trans hs₁) hc₂ hd
    refine ⟨(s₃.emitCallVerbOp .opCallVerb).popStack 2, ?_, ?_, ?_, ?_⟩
    · simp only [generateExpr, Except.bind_eq_ok]
      exact ⟨s₁, h₁, s₂, h₂, s₃, h₃, rfl⟩
    · exact (f₁.trans (f₂.trans (f₃.trans ((Lays.emitCallVerbOp _).trans (Lays.popStack 2))))).cast
        (by simp [Expr.trace])
    · change s₃.curStack - 2 = _
      rw [f₃.curStack, hc₂, hc]
      rfl
    · exact f₃.openLabels.trans (f₂.openLabels.trans f₁.openLabels)
  | .cond c a b =>
    simp only [Expr.isBuilt, Bool.and_eq_true] at hb
    obtain ⟨s₁, h₁, f₁⟩ := generateExpr_laid c hb.1.1 s hs hc hd
    have hc₁ : ((s₁.emitOp .opIfQues).addLabel.popStack 1).curStack = d := by
      change s₁.curStack - 1 = d
      rw [f₁.curStack, hc, Nat.add_sub_cancel]
    obtain ⟨s₂, h₂, f₂⟩ := generateExpr_laid a hb.1.2
      ((s₁.emitOp .opIfQues).addLabel.popStack 1) (f₁.savedStack.trans hs) hc₁ hd
    obtain ⟨k₂, hc₂, ho₂, hend, hle⟩ := laid_else f₁ f₂
    obtain ⟨s₃, h₃, f₃⟩ := generateExpr_laid b hb.2
      (((s₂.emitOp .opJump).addLabel.popStack 1).defineLabel s₁.labels.length)
      (k₂.savedStack.trans hs) (hc₂.trans hc) hd
    have hopen := State.openLabels_defineLabel (f₃.getElem?_labels hend)
    refine ⟨s₃.defineLabel s₂.labels.length, ?_, ?_, ?_, ?_⟩
    · simp only [generateExpr, Except.bind_eq_ok]
      exact ⟨s₁, h₁, s₂, h₂, s₃, h₃, rfl⟩
    · exact ((k₂.trans f₃.toLays).cast (by simp [Expr.trace])).defineLabel hle
    · rw [State.defineLabel_curStack, f₃.curStack, hc₂]
    · rw [f₃.openLabels, ho₂] at hopen
      exact Nat.succ.inj hopen
  | .catchExpr e codes dflt =>
    simp only [Expr.isBuilt, Bool.and_eq_true] at hb
    obtain ⟨s₁, h₁, f₁⟩ := generateArgs_laid (.optimNum 0) codes hb.1.2 s hs hc hd
    have hc₁ : s₁.curStack = d + 1 := f₁.curStack.trans (congrArg (· + 1) hc)
    have k₂ := f₁.trans ((Lays.emitCatch hc₁).trans Lays.incrTryDepth)
    obtain ⟨s₃, h₃, f₃⟩ := generateExpr_laid e hb.1.1 (d := d + 3) s₁.emitCatch.incrTryDepth
      (k₂.savedStack.trans hs)
      (by rw [State.incrTryDepth_curStack, State.curStack_emitCatch, hc₁]) hd
    obtain ⟨k₄, hc₄, ho₄, hend, hle⟩ := laid_endCatch hc f₁ f₃
    match dflt with
    | .some dv =>
      simp only [Default.isBuilt] at hb
      have k₅ := k₄.trans ((Lays.emitOp .opPop).trans (Lays.popStack 1))
      have hc₅ : (((s₃.decrTryDepth.emitEndCatch s₁.labels.length).emitOp .opPop).popStack
          1).curStack = d := by
        rw [State.popStack_curStack]
        exact Nat.sub_eq_of_eq_add (hc₄.trans (congrArg (· + 1) hc))
      obtain ⟨s₅, h₅, f₅⟩ := generateExpr_laid dv hb.2
        (((s₃.decrTryDepth.emitEndCatch s₁.labels.length).emitOp .opPop).popStack 1)
        (k₅.savedStack.trans hs) hc₅ hd
      have hopen := State.openLabels_defineLabel (f₅.getElem?_labels hend)
      refine ⟨s₅.defineLabel s₃.labels.length, ?_, ?_, ?_, ?_⟩
      · simp only [generateExpr, Except.bind_eq_ok]
        exact ⟨s₁, h₁, s₃, h₃, s₅, h₅, rfl⟩
      · exact ((k₅.trans f₅.toLays).cast (by simp [Expr.trace, Default.trace])).defineLabel hle
      · rw [State.defineLabel_curStack, f₅.curStack, hc₅, hc]
      · rw [f₅.openLabels] at hopen
        exact Nat.succ.inj (hopen.trans ho₄)
    | .none =>
      have hopen := State.openLabels_defineLabel (s := ((s₃.decrTryDepth.emitEndCatch
        s₁.labels.length).emitOp (.optimNum 1)).emitSkewed .opRef 1) hend
      refine ⟨(((s₃.decrTryDepth.emitEndCatch s₁.labels.length).emitOp (.optimNum 1)).emitSkewed
        .opRef 1).defineLabel s₃.labels.length, ?_, ?_, hc₄, Nat.succ.inj (hopen.trans ho₄)⟩
      · simp only [generateExpr, Except.bind_eq_ok]
        exact ⟨s₁, h₁, s₃, h₃, rfl⟩
      · exact ((k₄.trans ((Lays.emitOp _).trans (Lays.emitSkewed _ 1))).cast (by
          simp [Expr.trace, Default.trace])).defineLabel hle
  | .asgn lhs rhs =>
    have hlvalue (hl : lhs.isLvalue = true) (hbl : lhs.isBuilt dollars = true)
        (hbr : rhs.isBuilt dollars = true) :
        ∃ t, generateExpr r (.asgn lhs rhs) s = .ok t ∧
          Laid r ((Expr.asgn lhs rhs).trace saved d) 1 s t := by
      obtain ⟨s₁, h₁, f₁⟩ := pushLvalue_laid lhs false ⟨hl, by rintro ⟨⟩⟩ hbl s hs hc hd
      have hc₁ : s₁.curStack = d + lhs.lvalueDepth := by
        rw [f₁.curStack, hc, Bool.toNat_false, Nat.add_zero]
      obtain ⟨s₂, h₂, f₂⟩ := generateExpr_laid rhs hbr s₁ (f₁.savedStack.trans hs) hc₁ hd
      exact laid_store hl f₁ h₁ f₂ h₂ hc
    match lhs with
    | .scatter ts =>
      simp only [Expr.isBuilt, Bool.and_eq_true] at hb
      obtain ⟨s₁, h₁, f₁⟩ := generateExpr_laid rhs hb.2 s hs hc hd
      have k₂ := f₁.trans (Lays.emitScatter ts s₁)
      have hc₂ : (s₁.emitScatter ts).curStack = s₁.curStack := rfl
      have ho₂ : (s₁.emitScatter ts).openLabels = s₁.openLabels := rfl
      have hfirst : (s₁.emitScatter ts).labels.length = s₁.labels.length := rfl
      generalize hs₂ : s₁.emitScatter ts = s₂ at k₂ hc₂ ho₂ hfirst
      obtain ⟨k₃, hc₃, hl₃⟩ := generateTargets_lays (r := r) ts s₂
      have k₄ := k₂.trans (k₃.trans Lays.addLabel)
      have ho₄ : (generateTargets ts s₂).addLabel.openLabels
          = s.openLabels + (ts.numDefaults + 1) := by
        rw [State.openLabels_addLabel, State.openLabels, hl₃, List.count_append,
          List.count_replicate_self, ← State.openLabels, ho₂, f₁.openLabels, Nat.add_assoc]
      obtain ⟨s₅, h₅, k₅, hc₅, ho₅⟩ := generateDefaults_lays ts hb.1.2 s₂.labels.length (d := d + 1)
        (generateTargets ts s₂).addLabel (k₄.savedStack.trans hs)
        (hc₃.trans (hc₂.trans (f₁.curStack.trans (congrArg (· + 1) hc)))) hd (fun i hi => by
          rw [State.labels_addLabel, hl₃]
          grind)
      have hlen : (generateTargets ts s₂).labels.length = s₂.labels.length + ts.numDefaults := by
        rw [hl₃, List.length_append, List.length_replicate]
      have hend : s₅.labels[(generateTargets ts s₂).labels.length]? = some none := by
        refine k₅.labels _ _ ?_ (State.getElem?_addLabel _)
        rw [hlen]
        simp
      have hopen := State.openLabels_defineLabel hend
      have hle : s.labels.length ≤ s₂.labels.length := k₂.labelCount
      refine ⟨s₅.defineLabel (generateTargets ts s₂).labels.length, ?_, ?_, ?_, ?_⟩
      · simp only [generateExpr, Except.bind_eq_ok]
        exact ⟨s₁, h₁, s₅, hs₂ ▸ hfirst ▸ h₅, hs₂ ▸ rfl⟩
      · refine Lays.defineLabel ?_ (by rw [hlen]; omega)
        have k₆ : Lays r _ _ s s₅ := (k₄.mono (Set.empty_subset _)).trans k₅
        exact (k₆.cast (by simp [Expr.trace])).close fun id hid => Nat.le_trans hle hid.1
      · rw [State.defineLabel_curStack, hc₅, ← f₁.curStack, ← hc₂]
        exact hc₃
      · omega
    | .var _ | .id _ | .prop _ _ | .verb _ _ _ | .index _ _ | .range _ _ _ | .asgn _ _
    | .call _ _ | .binary _ _ _ | .unary _ _ | .logical _ _ _ | .list _ | .cond _ _ _
    | .catchExpr _ _ _ | .length =>
      rcases Expr.isBuilt_asgn hb with ⟨hl, hbl, hbr⟩ | ⟨_, h, _⟩
      · exact hlvalue hl hbl hbr
      · exact Expr.noConfusion h
  | .scatter _ => simp [Expr.isBuilt] at hb

lemma generateArgs_laid (o : Opcode) (args : ArgList) {dollars : Bool}
    (hb : args.isBuilt dollars = true) {saved : Option Nat} {d : Nat} (s : State)
    (hs : s.savedStack = saved) (hc : s.curStack = d)
    (hd : dollars = true → saved.isSome = true) :
    ∃ t, generateArgs r o args s = .ok t ∧ Laid r (args.trace saved d) 1 s t := by
  match args with
  | .nil =>
    refine ⟨_, rfl, ?_, rfl, rfl⟩
    exact ((Lays.emitOp o).trans (Lays.pushStack_of (congrArg (· + 1) hc))).cast
      (Trace.empty_append _)
  | .cons kind e next =>
    simp only [ArgList.isBuilt, Bool.and_eq_true] at hb
    obtain ⟨s₁, h₁, f₁⟩ := generateExpr_laid e hb.1 s hs hc hd
    obtain ⟨s₂, h₂, f₂⟩ := generateMoreArgs_laid next hb.2 (s₁.emitOp kind.firstOp)
      (f₁.savedStack.trans hs) (f₁.curStack.trans (congrArg (· + 1) hc)) hd
    refine ⟨s₂, ?_, ?_, f₂.curStack.trans f₁.curStack, f₂.openLabels.trans f₁.openLabels⟩
    · simp only [generateArgs, Except.bind_eq_ok]
      exact ⟨s₁, h₁, h₂⟩
    · exact (f₁.trans ((Lays.emitOp _).trans f₂.toLays)).cast (by simp [ArgList.trace])

lemma generateMoreArgs_laid (args : ArgList) {dollars : Bool}
    (hb : args.isBuilt dollars = true) {saved : Option Nat} {d : Nat} (s : State)
    (hs : s.savedStack = saved) (hc : s.curStack = d)
    (hd : dollars = true → saved.isSome = true) :
    ∃ t, generateMoreArgs r args s = .ok t ∧ Laid r (args.moreTrace saved d) 0 s t := by
  match args with
  | .nil => exact ⟨s, rfl, Lays.refl _ s, rfl, rfl⟩
  | .cons kind e next =>
    simp only [ArgList.isBuilt, Bool.and_eq_true] at hb
    obtain ⟨s₁, h₁, f₁⟩ := generateExpr_laid e hb.1 s hs hc hd
    have hc₁ : ((s₁.emitOp kind.moreOp).popStack 1).curStack = d := by
      change s₁.curStack - 1 = d
      rw [f₁.curStack, hc, Nat.add_sub_cancel]
    obtain ⟨s₂, h₂, f₂⟩ := generateMoreArgs_laid next hb.2
      ((s₁.emitOp kind.moreOp).popStack 1) (f₁.savedStack.trans hs) hc₁ hd
    refine ⟨s₂, ?_, ?_, ?_, f₂.openLabels.trans f₁.openLabels⟩
    · simp only [generateMoreArgs, Except.bind_eq_ok]
      exact ⟨s₁, h₁, h₂⟩
    · exact (f₁.trans ((Lays.emitOp _).trans ((Lays.popStack 1).trans f₂.toLays))).cast (by
        simp [ArgList.moreTrace])
    · rw [f₂.curStack, hc₁, hc]

lemma pushLvalue_laid (e : Expr) (indexedAbove : Bool)
    (hl : e.isLvalue = true ∧ (indexedAbove = true → e.isIndexTarget = true))
    {dollars : Bool} (hb : e.isBuilt dollars = true) {saved : Option Nat} {d : Nat} (s : State)
    (hs : s.savedStack = saved) (hc : s.curStack = d)
    (hd : dollars = true → saved.isSome = true) :
    ∃ t, pushLvalue r e indexedAbove s = .ok t ∧
      Laid r (e.pushTrace saved d indexedAbove) (e.lvalueDepth + indexedAbove.toNat) s t := by
  match e with
  | .range base lo hi =>
    cases indexedAbove with
    | true => exact absurd (hl.2 rfl) (by simp [Expr.isIndexTarget])
    | false =>
      have ht : base.isIndexTarget = true := hl.1
      simp only [Expr.isBuilt, Bool.and_eq_true] at hb
      obtain ⟨s₁, h₁, f₁⟩ := pushLvalue_laid base true
        ⟨Expr.isLvalue_of_isIndexTarget ht, fun _ => ht⟩ hb.1.1 s hs hc hd
      have hc₁ : s₁.curStack = d + base.lvalueDepth + 1 := by
        rw [f₁.curStack, hc, Bool.toNat_true, Nat.add_assoc]
      have hsaved : s₁.saveStackTop.savedStack = some (d + base.lvalueDepth) := by
        rw [State.saveStackTop_savedStack, hc₁, Nat.add_sub_cancel]
      obtain ⟨s₂, h₂, f₂⟩ := generateExpr_laid lo hb.1.2 s₁.saveStackTop hsaved hc₁ (fun _ => rfl)
      have hc₂ : s₂.curStack = d + base.lvalueDepth + 2 :=
        f₂.curStack.trans (congrArg (· + 1) hc₁)
      obtain ⟨s₃, h₃, f₃⟩ := generateExpr_laid hi hb.2 s₂ (f₂.savedStack.trans hsaved) hc₂
        (fun _ => rfl)
      refine ⟨s₃.restoreStackTop s₁.savedStack, ?_, ?_, ?_, ?_⟩
      · simp only [pushLvalue, Except.bind_eq_ok]
        exact ⟨s₁, h₁, s₂, h₂, s₃, h₃, rfl⟩
      · exact (f₁.trans (f₂.trans f₃.toLays).restoreStackTop).cast (by simp [Expr.pushTrace])
      · rw [State.restoreStackTop_curStack, f₃.curStack, hc₂, hc]
        simp only [Expr.lvalueDepth, Bool.toNat_false]
        omega
      · exact f₃.openLabels.trans (f₂.openLabels.trans f₁.openLabels)
  | .index lhs rhs =>
    have ht : lhs.isIndexTarget = true := hl.1
    simp only [Expr.isBuilt, Bool.and_eq_true] at hb
    obtain ⟨s₁, h₁, f₁⟩ := pushLvalue_laid lhs true
      ⟨Expr.isLvalue_of_isIndexTarget ht, fun _ => ht⟩ hb.1 s hs hc hd
    have hc₁ : s₁.curStack = d + lhs.lvalueDepth + 1 := by
      rw [f₁.curStack, hc, Bool.toNat_true, Nat.add_assoc]
    have hsaved : s₁.saveStackTop.savedStack = some (d + lhs.lvalueDepth) := by
      rw [State.saveStackTop_savedStack, hc₁, Nat.add_sub_cancel]
    obtain ⟨s₂, h₂, f₂⟩ := generateExpr_laid rhs hb.2 s₁.saveStackTop hsaved hc₁ (fun _ => rfl)
    have hc₂ : s₂.curStack = d + lhs.lvalueDepth + 2 := f₂.curStack.trans (congrArg (· + 1) hc₁)
    have k₂ := f₁.trans f₂.toLays.restoreStackTop
    have ho₂ : s₂.openLabels = s.openLabels := f₂.openLabels.trans f₁.openLabels
    simp only [pushLvalue, Except.bind_eq_ok]
    cases indexedAbove with
    | true =>
      refine ⟨_, ⟨s₁, h₁, s₂, h₂, rfl⟩, ?_, ?_, ho₂⟩
      · exact (k₂.trans ((Lays.emitOp _).trans (Lays.pushStack_of (n := 1)
          (congrArg (· + 1) hc₂)))).cast (by simp [Expr.pushTrace])
      · change s₂.curStack + 1 = _
        rw [hc₂, hc]
        simp only [Expr.lvalueDepth, Bool.toNat_true]
        omega
    | false =>
      refine ⟨_, ⟨s₁, h₁, s₂, h₂, rfl⟩, k₂.cast (by simp [Expr.pushTrace]), ?_, ho₂⟩
      change s₂.curStack = _
      rw [hc₂, hc]
      simp only [Expr.lvalueDepth, Bool.toNat_false]
      omega
  | .id slot =>
    cases indexedAbove with
    | true =>
      refine ⟨_, rfl, (Lays.emitPush slot).trans (Lays.pushStack_of ?_), ?_,
        s.openLabels_emitPush slot⟩
      · rw [State.curStack_emitPush, hc]
      · rw [State.pushStack_curStack, State.curStack_emitPush]
        rfl
    | false => exact ⟨s, rfl, Lays.refl _ s, rfl, rfl⟩
  | .prop lhs rhs =>
    simp only [Expr.isBuilt, Bool.and_eq_true] at hb
    obtain ⟨s₁, h₁, f₁⟩ := generateExpr_laid lhs hb.1 s hs hc hd
    have hc₁ : s₁.curStack = d + 1 := f₁.curStack.trans (congrArg (· + 1) hc)
    obtain ⟨s₂, h₂, f₂⟩ := generateExpr_laid rhs hb.2 s₁ (f₁.savedStack.trans hs) hc₁ hd
    have hc₂ : s₂.curStack = d + 2 := f₂.curStack.trans (congrArg (· + 1) hc₁)
    have k₂ := f₁.trans f₂.toLays
    have ho₂ : s₂.openLabels = s.openLabels := f₂.openLabels.trans f₁.openLabels
    simp only [pushLvalue, Except.bind_eq_ok]
    cases indexedAbove with
    | true =>
      refine ⟨_, ⟨s₁, h₁, s₂, h₂, rfl⟩, ?_, ?_, ho₂⟩
      · exact (k₂.trans ((Lays.emitOp _).trans (Lays.pushStack_of (n := 1)
          (congrArg (· + 1) hc₂)))).cast (by simp [Expr.pushTrace])
      · change s₂.curStack + 1 = _
        rw [hc₂, hc]
        rfl
    | false =>
      refine ⟨_, ⟨s₁, h₁, s₂, h₂, rfl⟩, k₂.cast (by simp [Expr.pushTrace]), ?_, ho₂⟩
      rw [hc₂, hc]
      rfl
  | .var _ | .verb _ _ _ | .asgn _ _ | .call _ _ | .binary _ _ _ | .unary _ _ | .logical _ _ _
  | .list _ | .cond _ _ _ | .catchExpr _ _ _ | .length | .scatter _ =>
    exact absurd hl.1 (by simp [Expr.isLvalue, Expr.isIndexTarget])

lemma generateDefaults_lays (sc : Scatter) {dollars : Bool} (hb : sc.isBuilt dollars = true)
    (label : Nat) {saved : Option Nat} {d : Nat} (s : State) (hs : s.savedStack = saved)
    (hc : s.curStack = d) (hd : dollars = true → saved.isSome = true)
    (hlabels : ∀ i < sc.numDefaults, s.labels[label + i]? = some none) :
    ∃ t, generateDefaults r sc label s = .ok t ∧
      Lays r {id | label ≤ id ∧ id < label + sc.numDefaults} (sc.trace saved d) s t ∧
      t.curStack = s.curStack ∧ t.openLabels + sc.numDefaults = s.openLabels := by
  match sc with
  | .nil => exact ⟨s, rfl, Lays.refl _ s, rfl, rfl⟩
  | .required _ next | .rest _ next =>
    simp only [Scatter.isBuilt] at hb
    exact generateDefaults_lays next hb label s hs hc hd hlabels
  | .optional slot .none next =>
    simp only [Scatter.isBuilt, Bool.and_eq_true] at hb
    exact generateDefaults_lays next hb.2 label s hs hc hd hlabels
  | .optional slot (.some e) next =>
    simp only [Scatter.isBuilt, Default.isBuilt, Bool.and_eq_true] at hb
    have hnone : s.labels[label]? = some none := hlabels 0 (Nat.succ_pos _)
    obtain ⟨s₁, h₁, f₁⟩ := generateExpr_laid e hb.1 (s.defineLabel label) hs hc hd
    have k₂ := f₁.trans ((Lays.emitPut slot).trans ((Lays.emitOp .opPop).trans (Lays.popStack 1)))
    have hc₂ : (((s₁.emitPut slot).emitOp .opPop).popStack 1).curStack = d := by
      change (s₁.emitPut slot).curStack - 1 = _
      rw [State.curStack_emitPut, f₁.curStack, State.defineLabel_curStack, hc, Nat.add_sub_cancel]
    have ho₂ : (((s₁.emitPut slot).emitOp .opPop).popStack 1).openLabels + 1 = s.openLabels := by
      change (s₁.emitPut slot).openLabels + 1 = _
      rw [State.openLabels_emitPut, f₁.openLabels, State.openLabels_defineLabel hnone]
    obtain ⟨t, h₃, k₃, hc₃, ho₃⟩ := generateDefaults_lays next hb.2 (label + 1)
      (((s₁.emitPut slot).emitOp .opPop).popStack 1) (k₂.savedStack.trans hs) hc₂ hd
      (fun i hi => by
        apply k₂.getElem?_labels
        rw [State.getElem?_defineLabel_ne (by omega), Nat.add_right_comm]
        exact hlabels (i + 1) (Nat.succ_lt_succ hi))
    refine ⟨t, ?_, ?_, ?_, ?_⟩
    · simp only [generateDefaults, Except.bind_eq_ok]
      exact ⟨s₁, h₁, h₃⟩
    · have hfirst : Lays r {id | label ≤ id ∧ id < label + (next.numDefaults + 1)} _ s _ :=
        Lays.of_defineLabel ⟨Nat.le_refl _, by omega⟩ k₂
      refine (hfirst.trans (k₃.mono ?_)).cast (by simp [Scatter.trace])
      intro id hid
      exact ⟨Nat.le_of_succ_le hid.1, by have := hid.2; omega⟩
    · rw [hc₃, hc₂, hc]
    · rw [Scatter.numDefaults, ← Nat.add_assoc, ho₃, ho₂]
end

end LambdaMOO
