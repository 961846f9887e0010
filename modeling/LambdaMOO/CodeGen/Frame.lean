import LambdaMOO.CodeGen.Growth

/-!
# What a piece of code leaves alone

The code of an expression is generated behind everything emitted before it, leaves the
loops, the saved stack top and the pending labels as they were and ends with one more
value on the static stack; the code of a statement ends where it began.
-/

namespace LambdaMOO

lemma Except.bind_eq_ok {ε α β : Type} {x : Except ε α} {f : α → Except ε β} {b : β} :
    (x >>= f) = .ok b ↔ ∃ a, x = .ok a ∧ f a = .ok b := by
  cases x with
  | error e => simp [bind, Except.bind]
  | ok a => simp [bind, Except.bind]

/-- The bounds under which no operand is truncated. -/
structure Limits.IsByte (lim : Limits) : Prop where
  slots : lim.slots ≤ 256
  arms : lim.arms ≤ 255
  targets : lim.targets ≤ 254

/-- Growth that leaves loops, saved stack, try depth and all labels so far alone. -/
structure Keeps (r : Bool) (s t : State) : Prop where
  grows : Grows r s t
  labels : s.labels <+: t.labels
  savedStack : t.savedStack = s.savedStack
  loops : t.loops = s.loops
  tryDepth : t.tryDepth = s.tryDepth

namespace Keeps

variable {r : Bool} {s t u : State}

lemma refl (s : State) : Keeps r s s := ⟨Grows.refl s, List.prefix_refl _, rfl, rfl, rfl⟩

lemma trans (h : Keeps r s t) (k : Keeps r t u) : Keeps r s u where
  grows := h.grows.trans k.grows
  labels := h.labels.trans k.labels
  savedStack := k.savedStack.trans h.savedStack
  loops := k.loops.trans h.loops
  tryDepth := k.tryDepth.trans h.tryDepth

/-- Growth by operations that do nothing to the fields in question. -/
lemma of_grows (g : Grows r s t) (hl : t.labels = s.labels) (hs : t.savedStack = s.savedStack)
    (hp : t.loops = s.loops) (ht : t.tryDepth = s.tryDepth) : Keeps r s t :=
  ⟨g, hl ▸ List.prefix_refl _, hs, hp, ht⟩

lemma emitOp {o : Opcode} (h : o.IsValid r) : Keeps r s (s.emitOp o) :=
  of_grows (.emitOp h) rfl rfl rfl rfl

lemma emitByte {b : Nat} (h : b < 256) : Keeps r s (s.emitByte b) :=
  of_grows (.emitByte h) rfl rfl rfl rfl

lemma addFixup {f : Fixup} (h : (Content.fixup f).IsSound r s.gstate) :
    Keeps r s (s.addFixup f) :=
  of_grows (.addFixup h) rfl rfl rfl rfl

lemma emitEndingOp {o : Opcode} (h : o.IsValid r) : Keeps r s (s.emitEndingOp o) :=
  of_grows (.emitEndingOp h) rfl rfl rfl rfl

lemma emitCallVerbOp {o : Opcode} (h : o.IsValid r) : Keeps r s (s.emitCallVerbOp o) :=
  of_grows (.emitCallVerbOp h) rfl rfl rfl rfl

lemma emitSkewed {o : Opcode} (k : Int) (h : o.IsValid r) :
    Keeps r s (s.emitSkewed o k) :=
  of_grows (.emitSkewed k h) rfl rfl rfl rfl

lemma emitExtended (o : ExtOpcode) : Keeps r s (s.emitExtended o) :=
  of_grows (.emitExtended o) rfl rfl rfl rfl

lemma emitBinary (op : BinOp) : Keeps r s (s.emitBinary op) := by
  cases op <;> exact of_grows (.emitBinary _) rfl rfl rfl rfl

lemma emitUnary (op : UnOp) : Keeps r s (s.emitUnary op) := by
  cases op <;> exact of_grows (.emitUnary _) rfl rfl rfl rfl

lemma pushStack (n : Nat) : Keeps r s (s.pushStack n) :=
  of_grows (.pushStack n) rfl rfl rfl rfl

lemma popStack (n : Nat) : Keeps r s (s.popStack n) :=
  of_grows (.popStack n) rfl rfl rfl rfl

lemma addLabel : Keeps r s s.addLabel :=
  ⟨.addLabel, List.prefix_append _ _, rfl, rfl, rfl⟩

lemma addLiteral (v : Literal) : Keeps r s (s.addLiteral v) :=
  of_grows (.addLiteral v) rfl rfl rfl rfl

lemma addVarRef {n : Nat} (h : n < 256) : Keeps r s (s.addVarRef n) :=
  of_grows (.addVarRef h) rfl rfl rfl rfl

lemma emitPut {n : Nat} (h : n < 256) : Keeps r s (s.emitPut n) := by
  refine of_grows (.emitPut h) ?_ ?_ ?_ ?_ <;> unfold State.emitPut <;> split_ifs <;> rfl

lemma emitPush {n : Nat} (h : n < 256) : Keeps r s (s.emitPush n) := by
  refine of_grows (.emitPush h) ?_ ?_ ?_ ?_ <;> unfold State.emitPush <;> split_ifs <;> rfl

lemma emitExceptPut {slot : Option Nat} (h : ∀ n ∈ slot, n < 256) :
    Keeps r s (s.emitExceptPut slot) := by
  cases slot with
  | none => exact refl s
  | some n => exact emitPut (h n rfl)

lemma generateExit {exit : Option Nat} (h : ∀ n ∈ exit, n < 256) :
    Keeps r s (generateExit exit s) := by
  cases exit with
  | none => exact emitExtended _
  | some n => exact (emitExtended _).trans (addVarRef (h n rfl))

/-- A label below the ones of `s` is still what it was. -/
lemma getElem?_labels (h : Keeps r s t) {id : Nat} {v : Option LabelValue}
    (hv : s.labels[id]? = some v) : t.labels[id]? = some v := by
  obtain ⟨ls, hls⟩ := h.labels
  have hlt : id < s.labels.length := (List.getElem?_eq_some_iff.mp hv).1
  rw [← hls, List.getElem?_append_left hlt]
  exact hv

/-- Placing a label that `s` does not have yet. -/
lemma defineLabel (h : Keeps r s t) {id : Nat} (hid : s.labels.length ≤ id)
    (hnone : t.labels[id]? = some none) : Keeps r s (t.defineLabel id) where
  grows := h.grows.trans (.defineLabel hnone)
  labels := by
    obtain ⟨ls, hls⟩ := h.labels
    rw [State.defineLabel_labels, ← hls, List.set_append_right _ _ hid]
    exact List.prefix_append _ _
  savedStack := h.savedStack
  loops := h.loops
  tryDepth := h.tryDepth

/-- A region under one more try. -/
lemma decrTryDepth (g : Keeps r s t) (h : Keeps r t.incrTryDepth u) :
    Keeps r s u.decrTryDepth where
  grows := g.grows.trans (Grows.incrTryDepth.trans (h.grows.trans .decrTryDepth))
  labels := g.labels.trans h.labels
  savedStack := h.savedStack.trans g.savedStack
  loops := h.loops.trans g.loops
  tryDepth := by
    rw [State.decrTryDepth_tryDepth, h.tryDepth, State.incrTryDepth_tryDepth, g.tryDepth,
      Nat.add_sub_cancel]

/-- The saved stack top is put back. -/
lemma restoreStackTop (g : Keeps r s t) (h : Keeps r t.saveStackTop u) :
    Keeps r s (u.restoreStackTop t.savedStack) where
  grows := g.grows.trans (Grows.saveStackTop.trans (h.grows.trans (.restoreStackTop _)))
  labels := g.labels.trans h.labels
  savedStack := g.savedStack
  loops := h.loops.trans g.loops
  tryDepth := h.tryDepth.trans g.tryDepth

end Keeps

/-- The label `add_label` hands out is not placed. -/
lemma State.getElem?_addLabel (s : State) : s.addLabel.labels[s.labels.length]? = some none := by
  simp [State.addLabel, State.addFixup]

lemma State.labels_addLabel (s : State) : s.addLabel.labels = s.labels ++ [none] := rfl

/-- Code generated behind a new label has more labels than there were before it. -/
lemma Keeps.lt_length_labels {r : Bool} {s t : State} (h : Keeps r s.addLabel t) :
    s.labels.length < t.labels.length := by
  have hle := h.labels.length_le
  rw [State.labels_addLabel, List.length_append, List.length_singleton] at hle
  exact hle

lemma State.getElem?_defineLabel_ne {s : State} {id id' : Nat} (h : id ≠ id') :
    (s.defineLabel id).labels[id']? = s.labels[id']? := by
  rw [State.defineLabel_labels, List.getElem?_set_ne h]

/-- `Keeps` with the change of the static stack. -/
structure Frame (r : Bool) (d : Nat) (s t : State) : Prop extends Keeps r s t where
  curStack : t.curStack = s.curStack + d

/-! ### Lvalues -/

/-- The values below the assigned one while it is computed: the parts of the lvalue. -/
def Expr.lvalueDepth : Expr → Nat
  | .range base _ _ => base.lvalueDepth + 3
  | .index lhs _ => lhs.lvalueDepth + 2
  | .prop _ _ => 2
  | _ => 0

lemma Expr.isLvalue_of_isIndexTarget {e : Expr} (h : e.isIndexTarget = true) :
    e.isLvalue = true := by
  cases e <;> simp_all [Expr.isLvalue, Expr.isIndexTarget]

lemma State.curStack_emitPut (n : Nat) (s : State) : (s.emitPut n).curStack = s.curStack := by
  unfold State.emitPut
  split_ifs <;> rfl

lemma State.curStack_emitPush (n : Nat) (s : State) :
    (s.emitPush n).curStack = s.curStack := by
  unfold State.emitPush
  split_ifs <;> rfl

/-- Storing takes the parts of the lvalue from below the value. -/
lemma storeLvalue_keeps {r : Bool} {lim : Limits} (hlim : lim.IsByte) {e : Expr} {s : State}
    (hl : e.isLvalue = true) (hw : e.isWithin lim = true)
    (hs : e.lvalueDepth + 1 ≤ s.curStack) :
    ∃ t, storeLvalue e s = .ok t ∧ Keeps r s t ∧ t.curStack + e.lvalueDepth = s.curStack := by
  match e with
  | .range base lo hi =>
    simp only [Expr.isWithin, Bool.and_eq_true, Expr.lvalueDepth] at hw hs
    have hpop : ((s.emitExtended .eopRangeset).popStack 3).curStack = s.curStack - 3 := rfl
    obtain ⟨t, ht, hk, hc⟩ := storeLvalue_keeps (r := r) (e := base)
      (s := (s.emitExtended .eopRangeset).popStack 3) hlim
      (Expr.isLvalue_of_isIndexTarget hl) hw.1.1 (by omega)
    refine ⟨t, ht, (Keeps.emitExtended _).trans ((Keeps.popStack 3).trans hk), ?_⟩
    simp only [Expr.lvalueDepth]
    omega
  | .index lhs rhs =>
    simp only [Expr.isWithin, Bool.and_eq_true, Expr.lvalueDepth] at hw hs
    have hpop : ((s.emitOp .opIndexset).popStack 2).curStack = s.curStack - 2 := rfl
    obtain ⟨t, ht, hk, hc⟩ := storeLvalue_keeps (r := r) (e := lhs)
      (s := (s.emitOp .opIndexset).popStack 2) hlim
      (Expr.isLvalue_of_isIndexTarget hl) hw.1 (by omega)
    refine ⟨t, ht, Keeps.trans (Keeps.emitOp (by trivial)) ((Keeps.popStack 2).trans hk), ?_⟩
    simp only [Expr.lvalueDepth]
    omega
  | .id slot =>
    have hslot : slot < 256 := by
      have := hlim.slots
      simp only [Expr.isWithin, decide_eq_true_eq] at hw
      omega
    exact ⟨_, rfl, Keeps.emitPut hslot, State.curStack_emitPut slot s⟩
  | .prop _ _ =>
    refine ⟨_, rfl, Keeps.trans (Keeps.emitOp (by trivial)) (Keeps.popStack 2), ?_⟩
    simp only [Expr.lvalueDepth] at hs ⊢
    have hpop : ((s.emitOp .opPutProp).popStack 2).curStack = s.curStack - 2 := rfl
    omega

/-- How the generator and the parser treat an assignment that is not a scattering one. -/
lemma generateExpr_asgn {r : Bool} {lhs rhs : Expr} (hl : lhs.isLvalue = true) (s : State) :
    generateExpr r (.asgn lhs rhs) s = (do
      let s ← pushLvalue r lhs false s
      let s ← generateExpr r rhs s
      let s := if lhs.isIndexed then s.emitOp .opPutTemp else s
      let s ← storeLvalue lhs s
      if lhs.isIndexed then return (s.emitOp .opPop).emitSkewed .opPushTemp (-1)
      else return s) := by
  cases lhs <;> first | rfl | simp [Expr.isLvalue, Expr.isIndexTarget] at hl

/-! ### Scattering assignments -/

def Scatter.numDefaults : Scatter → Nat
  | .nil => 0
  | .required _ next | .rest _ next | .optional _ .none next => next.numDefaults
  | .optional _ (.some _) next => next.numDefaults + 1

lemma Scatter.numRequired_le (sc : Scatter) : sc.numRequired ≤ sc.length := by
  match sc with
  | .nil => exact Nat.le_refl _
  | .required _ next | .optional _ _ next | .rest _ next =>
    have := next.numRequired_le
    simp only [numRequired, length]
    omega

lemma Scatter.restPosition_le (sc : Scatter) (n : Nat) :
    ∀ k ∈ sc.restPosition n, k ≤ n + sc.length := by
  match sc with
  | .nil =>
    intro k hk
    simp [restPosition] at hk
  | .required _ next | .optional _ _ next =>
    intro k hk
    have := next.restPosition_le (n + 1) k hk
    simp only [length]
    omega
  | .rest _ next =>
    intro k hk
    simp only [restPosition, length, Option.mem_def] at hk ⊢
    cases hnext : next.restPosition (n + 1) with
    | none =>
      rw [hnext, Option.none_or, Option.some.injEq] at hk
      omega
    | some j =>
      have := next.restPosition_le (n + 1) j hnext
      rw [hnext, Option.some_or, Option.some.injEq] at hk
      omega

lemma generateTargets_keeps {r : Bool} {lim : Limits} (hlim : lim.IsByte) {sc : Scatter}
    (hw : sc.isWithin lim = true) (s : State) :
    Keeps r s (generateTargets sc s) ∧ (generateTargets sc s).curStack = s.curStack ∧
      (generateTargets sc s).labels = s.labels ++ List.replicate sc.numDefaults none := by
  have hslots := hlim.slots
  match sc with
  | .nil => exact ⟨Keeps.refl s, rfl, by simp [generateTargets, Scatter.numDefaults]⟩
  | .required slot next | .rest slot next =>
    simp only [Scatter.isWithin, Bool.and_eq_true, decide_eq_true_eq] at hw
    obtain ⟨hk, hc, hl⟩ := generateTargets_keeps (r := r) hlim hw.2
      ((s.addVarRef slot).addPseudoLabel 0)
    refine ⟨Keeps.trans (Keeps.addVarRef (by omega)) (Keeps.trans (Keeps.addFixup (by trivial)) hk),
      hc, hl⟩
  | .optional slot .none next =>
    simp only [Scatter.isWithin, Bool.and_eq_true, decide_eq_true_eq] at hw
    obtain ⟨hk, hc, hl⟩ := generateTargets_keeps (r := r) hlim hw.2
      ((s.addVarRef slot).addPseudoLabel 1)
    refine ⟨Keeps.trans (Keeps.addVarRef (by omega)) (Keeps.trans (Keeps.addFixup (by trivial)) hk),
      hc, hl⟩
  | .optional slot (.some e) next =>
    simp only [Scatter.isWithin, Bool.and_eq_true, decide_eq_true_eq] at hw
    obtain ⟨hk, hc, hl⟩ := generateTargets_keeps (r := r) hlim hw.2 (s.addVarRef slot).addLabel
    refine ⟨Keeps.trans (Keeps.addVarRef (by omega)) (Keeps.trans Keeps.addLabel hk), hc, ?_⟩
    rw [generateTargets, hl, Scatter.numDefaults, List.replicate_succ]
    simp [State.addLabel, State.addFixup, State.addVarRef]

lemma Keeps.emitScatter {r : Bool} {ts : Scatter} (h : ts.length ≤ 254) (s : State) :
    Keeps r s (s.emitScatter ts) := by
  have hreq := ts.numRequired_le
  have hrest : (ts.restPosition 0).getD (ts.length + 1) < 256 := by
    cases hpos : ts.restPosition 0 with
    | none =>
      rw [Option.getD_none]
      omega
    | some k =>
      have := ts.restPosition_le 0 k hpos
      rw [Option.getD_some]
      omega
  exact (emitExtended _).trans ((emitByte (by omega)).trans
    ((emitByte (by omega)).trans (emitByte hrest)))

/-- What a piece of code keeps that places the labels in `P`. -/
structure Places (r : Bool) (P : Nat → Prop) (s t : State) : Prop where
  grows : Grows r s t
  labels : ∀ (id : Nat) (v : Option LabelValue), ¬ P id →
    s.labels[id]? = some v → t.labels[id]? = some v
  savedStack : t.savedStack = s.savedStack
  loops : t.loops = s.loops
  tryDepth : t.tryDepth = s.tryDepth
  curStack : t.curStack = s.curStack

namespace Places

variable {r : Bool} {P : Nat → Prop} {s t u : State}

lemma refl (P : Nat → Prop) (s : State) : Places r P s s :=
  ⟨Grows.refl s, fun _ _ _ hv => hv, rfl, rfl, rfl, rfl⟩

lemma trans (h : Places r P s t) (k : Places r P t u) : Places r P s u where
  grows := h.grows.trans k.grows
  labels id v hid hv := k.labels id v hid (h.labels id v hid hv)
  savedStack := k.savedStack.trans h.savedStack
  loops := k.loops.trans h.loops
  tryDepth := k.tryDepth.trans h.tryDepth
  curStack := k.curStack.trans h.curStack

lemma mono {Q : Nat → Prop} (h : Places r P s t) (hPQ : ∀ id, P id → Q id) :
    Places r Q s t :=
  ⟨h.grows, fun id v hid hv => h.labels id v (fun hp => hid (hPQ id hp)) hv, h.savedStack,
    h.loops, h.tryDepth, h.curStack⟩

/-- One label and the code behind it. -/
lemma of_defineLabel {id : Nat} (hid : P id) (hnone : s.labels[id]? = some none)
    (h : Keeps r (s.defineLabel id) t) (hc : t.curStack = s.curStack) : Places r P s t where
  grows := (Grows.defineLabel hnone).trans h.grows
  labels id' v hid' hv := by
    apply h.getElem?_labels
    rw [State.getElem?_defineLabel_ne (by rintro rfl; exact hid' hid)]
    exact hv
  savedStack := h.savedStack
  loops := h.loops
  tryDepth := h.tryDepth
  curStack := hc

/-- Placing one more label behind it all. -/
lemma keeps_defineLabel {id : Nat} (h : Places r P t u) (hk : Keeps r s t)
    (hid : s.labels.length ≤ id) (hnone : t.labels[id]? = some none) (hnot : ¬ P id)
    (hP : ∀ id, P id → s.labels.length ≤ id) : Keeps r s (u.defineLabel id) where
  grows := hk.grows.trans (h.grows.trans (.defineLabel (h.labels _ _ hnot hnone)))
  labels := by
    rw [List.prefix_iff_getElem?]
    intro i hi
    rw [State.getElem?_defineLabel_ne (by omega)]
    refine h.labels i _ (fun hp => ?_) (hk.getElem?_labels (List.getElem?_eq_getElem hi))
    have := hP i hp
    omega
  savedStack := h.savedStack.trans hk.savedStack
  loops := h.loops.trans hk.loops
  tryDepth := h.tryDepth.trans hk.tryDepth

end Places

lemma Keeps.emitCatch {r : Bool} {s : State} : Keeps r s s.emitCatch :=
  (Keeps.emitExtended _).trans (Keeps.addLabel.trans ((Keeps.pushStack 1).trans
    ((Keeps.emitExtended _).trans (Keeps.pushStack 1))))

lemma State.getElem?_emitCatch (s : State) :
    s.emitCatch.labels[s.labels.length]? = some none :=
  State.getElem?_addLabel (s.emitExtended .eopPushLabel)

/-- The handler label is still not placed behind the protected expression. -/
lemma State.getElem?_endCatch {s : State} {id : Nat} (hnone : s.labels[id]? = some none) :
    ((s.emitExtended .eopEndCatch).addLabel.popStack 3).labels[id]? = some none :=
  (Keeps.addLabel (r := true) (s := s.emitExtended .eopEndCatch)).getElem?_labels hnone

lemma Grows.emitEndCatch {r : Bool} {s : State} {id : Nat}
    (hnone : s.labels[id]? = some none) : Grows r s (s.emitEndCatch id) :=
  (Grows.emitExtended _).trans (Grows.addLabel.trans ((Grows.popStack 3).trans
    (.defineLabel (State.getElem?_endCatch hnone))))

lemma Keeps.emitEndCatch {r : Bool} {s t : State} (h : Keeps r s t) {id : Nat}
    (hid : s.labels.length ≤ id) (hnone : t.labels[id]? = some none) :
    Keeps r s (t.emitEndCatch id) := by
  refine Keeps.defineLabel ?_ hid (State.getElem?_endCatch hnone)
  exact h.trans ((Keeps.emitExtended _).trans (Keeps.addLabel.trans (Keeps.popStack 3)))

/-- The label behind the handler. -/
lemma State.getElem?_emitEndCatch (s : State) {id : Nat} (h : id < s.labels.length) :
    (s.emitEndCatch id).labels[s.labels.length]? = some none := by
  unfold State.emitEndCatch
  rw [State.getElem?_defineLabel_ne (Nat.ne_of_lt h)]
  exact State.getElem?_addLabel (s.emitExtended .eopEndCatch)

lemma ArgKind.isValid_firstOp {r : Bool} (kind : ArgKind) : kind.firstOp.IsValid r := by
  cases kind <;> trivial

lemma ArgKind.isValid_moreOp {r : Bool} (kind : ArgKind) : kind.moreOp.IsValid r := by
  cases kind <;> trivial

/-! ### Expressions -/

section

set_option linter.unusedSectionVars false

variable {r : Bool} {lim : Limits} (hlim : lim.IsByte)

include hlim

mutual
lemma generateExpr_frame (e : Expr) {dollars : Bool} (hb : e.isBuilt dollars = true)
    (hw : e.isWithin lim = true) (s : State)
    (hd : dollars = true → s.savedStack.isSome = true) :
    ∃ t, generateExpr r e s = .ok t ∧ Frame r 1 s t := by
  match e with
  | .var v =>
    have himm : Frame r 1 s (((s.emitOp .opImm).addLiteral v).pushStack 1) :=
      ⟨Keeps.trans (Keeps.emitOp (by trivial)) ((Keeps.addLiteral v).trans (Keeps.pushStack 1)), rfl⟩
    cases v with
    | int n =>
      simp only [generateExpr]
      split_ifs with hn
      · exact ⟨_, rfl, Keeps.trans (Keeps.emitOp (o := .optimNum n) hn) (Keeps.pushStack 1), rfl⟩
      · exact ⟨_, rfl, himm⟩
    | _ => exact ⟨_, rfl, himm⟩
  | .id slot =>
    have hslots := hlim.slots
    simp only [Expr.isWithin, decide_eq_true_eq] at hw
    refine ⟨_, rfl, (Keeps.emitPush (by omega)).trans (Keeps.pushStack 1), ?_⟩
    rw [State.pushStack_curStack, State.curStack_emitPush]
  | .logical op lhs rhs =>
    simp only [Expr.isBuilt, Expr.isWithin, Bool.and_eq_true] at hb hw
    obtain ⟨s₁, h₁, f₁⟩ := generateExpr_frame lhs hb.1 hw.1 s hd
    have hop : (op.opcode).IsValid r := by cases op <;> trivial
    obtain ⟨s₂, h₂, f₂⟩ := generateExpr_frame rhs hb.2 hw.2
      ((s₁.emitOp op.opcode).addLabel.popStack 1) (f₁.savedStack ▸ hd)
    refine ⟨s₂.defineLabel s₁.labels.length, ?_, ?_, ?_⟩
    · simp only [generateExpr, Except.bind_eq_ok]
      exact ⟨s₁, h₁, s₂, h₂, rfl⟩
    · refine Keeps.defineLabel ?_ f₁.labels.length_le ?_
      · exact f₁.trans (Keeps.trans (Keeps.emitOp hop)
          (Keeps.addLabel.trans ((Keeps.popStack 1).trans f₂.toKeeps)))
      · exact f₂.getElem?_labels (State.getElem?_addLabel (s₁.emitOp op.opcode))
    · have hc : ((s₁.emitOp op.opcode).addLabel.popStack 1).curStack = s₁.curStack - 1 := rfl
      rw [State.defineLabel_curStack, f₂.curStack, hc, f₁.curStack]
      omega
  | .unary op e =>
    simp only [Expr.isBuilt, Expr.isWithin, Bool.and_eq_true] at hb hw
    obtain ⟨s₁, h₁, f₁⟩ := generateExpr_frame e hb.2 hw s hd
    refine ⟨s₁.emitUnary op, ?_, f₁.trans (Keeps.emitUnary op), ?_⟩
    · simp only [generateExpr, Except.bind_eq_ok]
      exact ⟨s₁, h₁, rfl⟩
    · rw [← f₁.curStack]
      cases op <;> rfl
  | .binary op lhs rhs =>
    simp only [Expr.isBuilt, Expr.isWithin, Bool.and_eq_true] at hb hw
    obtain ⟨s₁, h₁, f₁⟩ := generateExpr_frame lhs hb.1 hw.1 s hd
    obtain ⟨s₂, h₂, f₂⟩ := generateExpr_frame rhs hb.2 hw.2 s₁ (f₁.savedStack ▸ hd)
    refine ⟨(s₂.emitBinary op).popStack 1, ?_, ?_, ?_⟩
    · simp only [generateExpr, Except.bind_eq_ok]
      exact ⟨s₁, h₁, s₂, h₂, rfl⟩
    · exact f₁.trans (f₂.trans ((Keeps.emitBinary op).trans (Keeps.popStack 1)))
    · have hc : (s₂.emitBinary op).curStack = s₂.curStack := by cases op <;> rfl
      rw [State.popStack_curStack, hc, f₂.curStack, f₁.curStack]
      omega
  | .prop lhs rhs =>
    simp only [Expr.isBuilt, Expr.isWithin, Bool.and_eq_true] at hb hw
    obtain ⟨s₁, h₁, f₁⟩ := generateExpr_frame lhs hb.1 hw.1 s hd
    obtain ⟨s₂, h₂, f₂⟩ := generateExpr_frame rhs hb.2 hw.2 s₁ (f₁.savedStack ▸ hd)
    refine ⟨(s₂.emitOp .opGetProp).popStack 1, ?_, ?_, ?_⟩
    · simp only [generateExpr, Except.bind_eq_ok]
      exact ⟨s₁, h₁, s₂, h₂, rfl⟩
    · exact f₁.trans (f₂.trans (Keeps.trans (Keeps.emitOp (by trivial)) (Keeps.popStack 1)))
    · change s₂.curStack - 1 = _
      rw [f₂.curStack, f₁.curStack]
      omega
  | .index lhs rhs =>
    simp only [Expr.isBuilt, Expr.isWithin, Bool.and_eq_true] at hb hw
    obtain ⟨s₁, h₁, f₁⟩ := generateExpr_frame lhs hb.1 hw.1 s hd
    obtain ⟨s₂, h₂, f₂⟩ := generateExpr_frame rhs hb.2 hw.2 s₁.saveStackTop (fun _ => rfl)
    refine ⟨((s₂.restoreStackTop s₁.savedStack).emitOp .opRef).popStack 1, ?_, ?_, ?_⟩
    · simp only [generateExpr, Except.bind_eq_ok]
      exact ⟨s₁, h₁, s₂, h₂, rfl⟩
    · exact (f₁.restoreStackTop f₂.toKeeps).trans (Keeps.trans (Keeps.emitOp (by trivial)) (Keeps.popStack 1))
    · change s₂.curStack - 1 = _
      rw [f₂.curStack, State.saveStackTop_curStack, f₁.curStack]
      omega
  | .range base lo hi =>
    simp only [Expr.isBuilt, Expr.isWithin, Bool.and_eq_true] at hb hw
    obtain ⟨s₁, h₁, f₁⟩ := generateExpr_frame base hb.1.1 hw.1.1 s hd
    obtain ⟨s₂, h₂, f₂⟩ := generateExpr_frame lo hb.1.2 hw.1.2 s₁.saveStackTop (fun _ => rfl)
    obtain ⟨s₃, h₃, f₃⟩ := generateExpr_frame hi hb.2 hw.2 s₂
      (fun _ => by rw [f₂.savedStack]; rfl)
    refine ⟨((s₃.restoreStackTop s₁.savedStack).emitOp .opRangeRef).popStack 2, ?_, ?_, ?_⟩
    · simp only [generateExpr, Except.bind_eq_ok]
      exact ⟨s₁, h₁, s₂, h₂, s₃, h₃, rfl⟩
    · exact (f₁.restoreStackTop (f₂.trans f₃.toKeeps)).trans
        (Keeps.trans (Keeps.emitOp (by trivial)) (Keeps.popStack 2))
    · change s₃.curStack - 2 = _
      rw [f₃.curStack, f₂.curStack, State.saveStackTop_curStack, f₁.curStack]
      omega
  | .length =>
    obtain ⟨k, hk⟩ := Option.isSome_iff_exists.mp (hd (by simpa only [Expr.isBuilt] using hb))
    refine ⟨((s.emitExtended .eopLength).addStackRef k).pushStack 1, ?_, ?_, rfl⟩
    · simp only [generateExpr, hk]
    · exact (Keeps.emitExtended _).trans (Keeps.trans (Keeps.addFixup (by trivial)) (Keeps.pushStack 1))
  | .list args =>
    simp only [Expr.isBuilt, Expr.isWithin] at hb hw
    simp only [generateExpr]
    exact generateArgs_frame (o := .opMakeEmptyList) trivial args hb hw s hd
  | .call func args =>
    simp only [Expr.isBuilt, Expr.isWithin, Bool.and_eq_true, decide_eq_true_eq] at hb hw
    obtain ⟨s₁, h₁, f₁⟩ := generateArgs_frame (o := .opMakeEmptyList) trivial args hb.2 hw s hd
    refine ⟨(s₁.emitOp .opBiFuncCall).emitByte func, ?_, ?_, f₁.curStack⟩
    · simp only [generateExpr, Except.bind_eq_ok]
      exact ⟨s₁, h₁, rfl⟩
    · exact f₁.trans (Keeps.trans (Keeps.emitOp (by trivial)) (Keeps.emitByte hb.1))
  | .verb obj verb args =>
    simp only [Expr.isBuilt, Expr.isWithin, Bool.and_eq_true] at hb hw
    obtain ⟨s₁, h₁, f₁⟩ := generateExpr_frame obj hb.1.1 hw.1.1 s hd
    obtain ⟨s₂, h₂, f₂⟩ := generateExpr_frame verb hb.1.2 hw.1.2 s₁ (f₁.savedStack ▸ hd)
    obtain ⟨s₃, h₃, f₃⟩ := generateArgs_frame (o := .opMakeEmptyList) trivial args hb.2 hw.2 s₂
      (f₂.savedStack ▸ f₁.savedStack ▸ hd)
    refine ⟨(s₃.emitCallVerbOp .opCallVerb).popStack 2, ?_, ?_, ?_⟩
    · simp only [generateExpr, Except.bind_eq_ok]
      exact ⟨s₁, h₁, s₂, h₂, s₃, h₃, rfl⟩
    · exact f₁.trans (f₂.trans (f₃.trans (Keeps.trans (Keeps.emitCallVerbOp (by trivial)) (Keeps.popStack 2))))
    · change s₃.curStack - 2 = _
      rw [f₃.curStack, f₂.curStack, f₁.curStack]
      omega
  | .cond c a b =>
    simp only [Expr.isBuilt, Expr.isWithin, Bool.and_eq_true] at hb hw
    obtain ⟨s₁, h₁, f₁⟩ := generateExpr_frame c hb.1.1 hw.1.1 s hd
    obtain ⟨s₂, h₂, f₂⟩ := generateExpr_frame a hb.1.2 hw.1.2
      ((s₁.emitOp .opIfQues).addLabel.popStack 1) (f₁.savedStack ▸ hd)
    have hlt : s₁.labels.length < s₂.labels.length :=
      ((Keeps.popStack 1).trans f₂.toKeeps).lt_length_labels (s := s₁.emitOp .opIfQues)
    have helse : ((s₂.emitOp .opJump).addLabel.popStack 1).labels[s₁.labels.length]? = some none :=
      (Keeps.addLabel (r := r) (s := s₂.emitOp .opJump)).getElem?_labels
        (f₂.getElem?_labels (State.getElem?_addLabel (s₁.emitOp .opIfQues)))
    have k₂ : Keeps r s (((s₂.emitOp .opJump).addLabel.popStack 1).defineLabel s₁.labels.length) :=
      Keeps.defineLabel (f₁.trans (Keeps.trans (Keeps.emitOp (by trivial)) (Keeps.addLabel.trans
        ((Keeps.popStack 1).trans (f₂.trans (Keeps.trans (Keeps.emitOp (by trivial))
          (Keeps.addLabel.trans (Keeps.popStack 1)))))))) f₁.labels.length_le helse
    obtain ⟨s₃, h₃, f₃⟩ := generateExpr_frame b hb.2 hw.2
      (((s₂.emitOp .opJump).addLabel.popStack 1).defineLabel s₁.labels.length)
      (k₂.savedStack ▸ hd)
    refine ⟨s₃.defineLabel s₂.labels.length, ?_, ?_, ?_⟩
    · simp only [generateExpr, Except.bind_eq_ok]
      exact ⟨s₁, h₁, s₂, h₂, s₃, h₃, rfl⟩
    · refine (k₂.trans f₃.toKeeps).defineLabel ?_ ?_
      · exact Nat.le_trans f₁.labels.length_le (Nat.le_of_lt hlt)
      · apply f₃.getElem?_labels
        rw [State.getElem?_defineLabel_ne (Nat.ne_of_lt hlt)]
        exact State.getElem?_addLabel (s₂.emitOp .opJump)
    · have hc₁ : ((s₁.emitOp .opIfQues).addLabel.popStack 1).curStack = s₁.curStack - 1 := rfl
      have hc₂ : (((s₂.emitOp .opJump).addLabel.popStack 1).defineLabel
        s₁.labels.length).curStack = s₂.curStack - 1 := rfl
      rw [State.defineLabel_curStack, f₃.curStack, hc₂, f₂.curStack, hc₁, f₁.curStack]
      omega
  | .asgn lhs rhs =>
    have hlvalue (hl : lhs.isLvalue = true) (hbl : lhs.isBuilt dollars = true)
        (hbr : rhs.isBuilt dollars = true) :
        ∃ t, generateExpr r (.asgn lhs rhs) s = .ok t ∧ Frame r 1 s t := by
      simp only [Expr.isWithin, Bool.and_eq_true] at hw
      obtain ⟨s₁, h₁, k₁, hc₁⟩ := pushLvalue_keeps lhs false ⟨hl, by rintro ⟨⟩⟩ hbl hw.1 s hd
      obtain ⟨s₂, h₂, f₂⟩ := generateExpr_frame rhs hbr hw.2 s₁ (k₁.savedStack ▸ hd)
      have kt : Keeps r s₂ (if lhs.isIndexed then s₂.emitOp .opPutTemp else s₂) := by
        split_ifs
        · exact (Keeps.emitOp (by trivial))
        · exact Keeps.refl s₂
      have hct : (if lhs.isIndexed then s₂.emitOp .opPutTemp else s₂).curStack
          = s.curStack + lhs.lvalueDepth + 1 := by
        rw [Bool.toNat_false, Nat.add_zero] at hc₁
        rw [← hc₁, ← f₂.curStack]
        split_ifs <;> rfl
      obtain ⟨s₃, h₃, k₃, hc₃⟩ := storeLvalue_keeps (r := r) hlim hl hw.1 (Nat.le_trans
        (by omega) (Nat.le_of_eq hct.symm))
      have hkeeps : Keeps r s s₃ := k₁.trans (f₂.trans (kt.trans k₃))
      have hcur : s₃.curStack = s.curStack + 1 := by omega
      rw [generateExpr_asgn hl]
      simp only [Except.bind_eq_ok]
      by_cases hi : lhs.isIndexed = true
      · refine ⟨(s₃.emitOp .opPop).emitSkewed .opPushTemp (-1), ⟨s₁, h₁, s₂, h₂, s₃, h₃, ?_⟩,
          hkeeps.trans (Keeps.trans (Keeps.emitOp (by trivial)) (Keeps.emitSkewed (-1) (by trivial))), hcur⟩
        rw [if_pos hi]
        rfl
      · refine ⟨s₃, ⟨s₁, h₁, s₂, h₂, s₃, h₃, ?_⟩, hkeeps, hcur⟩
        rw [if_neg hi]
        rfl
    match lhs with
    | .scatter ts =>
      have htargets := hlim.targets
      simp only [Expr.isBuilt, Expr.isWithin, Bool.and_eq_true, decide_eq_true_eq] at hb hw
      obtain ⟨s₁, h₁, f₁⟩ := generateExpr_frame rhs hb.2 hw.2 s hd
      have k₂ : Keeps r s (s₁.emitScatter ts) := f₁.trans (Keeps.emitScatter (by omega) s₁)
      have hc₂ : (s₁.emitScatter ts).curStack = s₁.curStack := rfl
      generalize hs₂ : s₁.emitScatter ts = s₂ at k₂ hc₂
      obtain ⟨k₃, hc₃, hl₃⟩ := generateTargets_keeps (r := r) hlim hw.1.2 s₂
      obtain ⟨s₄, h₄, p₄⟩ := generateDefaults_places ts hb.1.2 hw.1.2 s₂.labels.length
        (generateTargets ts s₂).addLabel (k₃.savedStack ▸ k₂.savedStack ▸ hd) (fun i hi => by
          rw [State.labels_addLabel, hl₃]
          grind)
      refine ⟨s₄.defineLabel (generateTargets ts s₂).labels.length, ?_, ?_, ?_⟩
      · simp only [generateExpr, Except.bind_eq_ok]
        exact ⟨s₁, h₁, s₄, hs₂ ▸ h₄, hs₂ ▸ rfl⟩
      · have hlen : (generateTargets ts s₂).labels.length
            = s₂.labels.length + ts.numDefaults := by
          rw [hl₃, List.length_append, List.length_replicate]
        have hle := k₂.labels.length_le
        exact p₄.keeps_defineLabel (k₂.trans (k₃.trans Keeps.addLabel)) (by omega)
          (State.getElem?_addLabel _) (by omega) (by omega)
      · rw [State.defineLabel_curStack, p₄.curStack, ← f₁.curStack, ← hc₂]
        exact hc₃
    | .var _ | .id _ | .prop _ _ | .verb _ _ _ | .index _ _ | .range _ _ _ | .asgn _ _
    | .call _ _ | .binary _ _ _ | .unary _ _ | .logical _ _ _ | .list _ | .cond _ _ _
    | .catchExpr _ _ _ | .length =>
      rcases Expr.isBuilt_asgn hb with ⟨hl, hbl, hbr⟩ | ⟨_, h, _⟩
      · exact hlvalue hl hbl hbr
      · exact Expr.noConfusion h
  | .catchExpr e codes dflt =>
    simp only [Expr.isBuilt, Expr.isWithin, Bool.and_eq_true] at hb hw
    obtain ⟨s₁, h₁, f₁⟩ := generateArgs_frame (o := .optimNum 0) (by cases r <;> decide) codes
      hb.1.2 hw.1.2 s hd
    have k₂ : Keeps r s s₁.emitCatch := f₁.trans Keeps.emitCatch
    obtain ⟨s₃, h₃, f₃⟩ := generateExpr_frame e hb.1.1 hw.1.1 s₁.emitCatch.incrTryDepth
      (k₂.savedStack ▸ hd)
    have hlabel : s₃.labels[s₁.labels.length]? = some none :=
      f₃.getElem?_labels s₁.getElem?_emitCatch
    have hlt := (List.getElem?_eq_some_iff.mp hlabel).1
    have k₄ : Keeps r s (s₃.decrTryDepth.emitEndCatch s₁.labels.length) :=
      (k₂.decrTryDepth f₃.toKeeps).emitEndCatch f₁.labels.length_le hlabel
    have hend : (s₃.decrTryDepth.emitEndCatch s₁.labels.length).labels[s₃.labels.length]?
        = some none :=
      s₃.decrTryDepth.getElem?_emitEndCatch hlt
    have hc₄ : (s₃.decrTryDepth.emitEndCatch s₁.labels.length).curStack = s.curStack + 1 := by
      change s₃.curStack - 3 = _
      have hc₂ : s₁.emitCatch.curStack = s₁.curStack + 2 := rfl
      rw [f₃.curStack, State.incrTryDepth_curStack, hc₂, f₁.curStack]
      omega
    have hle : s.labels.length ≤ s₃.labels.length :=
      Nat.le_trans f₁.labels.length_le (Nat.le_of_lt hlt)
    match dflt with
    | .some d =>
      simp only [Default.isBuilt, Default.isWithin] at hb hw
      obtain ⟨s₅, h₅, f₅⟩ := generateExpr_frame d hb.2 hw.2
        (((s₃.decrTryDepth.emitEndCatch s₁.labels.length).emitOp .opPop).popStack 1)
        (k₄.savedStack ▸ hd)
      refine ⟨s₅.defineLabel s₃.labels.length, ?_, ?_, ?_⟩
      · simp only [generateExpr, Except.bind_eq_ok]
        exact ⟨s₁, h₁, s₃, h₃, s₅, h₅, rfl⟩
      · exact (k₄.trans (Keeps.trans (Keeps.emitOp (by trivial)) ((Keeps.popStack 1).trans
          f₅.toKeeps))).defineLabel hle (f₅.getElem?_labels hend)
      · have hc₅ := f₅.curStack
        change _ = (s₃.decrTryDepth.emitEndCatch s₁.labels.length).curStack - 1 + 1 at hc₅
        rw [State.defineLabel_curStack]
        omega
    | .none =>
      refine ⟨(((s₃.decrTryDepth.emitEndCatch s₁.labels.length).emitOp (.optimNum 1)).emitSkewed
        .opRef 1).defineLabel s₃.labels.length, ?_, ?_, hc₄⟩
      · simp only [generateExpr, Except.bind_eq_ok]
        exact ⟨s₁, h₁, s₃, h₃, rfl⟩
      · exact (k₄.trans (Keeps.trans (Keeps.emitOp (by cases r <;> decide))
          (Keeps.emitSkewed 1 (by trivial)))).defineLabel hle hend
  | .scatter _ => simp [Expr.isBuilt] at hb

lemma generateArgs_frame {o : Opcode} (ho : o.IsValid r) (args : ArgList) {dollars : Bool}
    (hb : args.isBuilt dollars = true) (hw : args.isWithin lim = true) (s : State)
    (hd : dollars = true → s.savedStack.isSome = true) :
    ∃ t, generateArgs r o args s = .ok t ∧ Frame r 1 s t := by
  match args with
  | .nil => exact ⟨_, rfl, Keeps.trans (Keeps.emitOp ho) (Keeps.pushStack 1), rfl⟩
  | .cons kind e next =>
    simp only [ArgList.isBuilt, ArgList.isWithin, Bool.and_eq_true] at hb hw
    obtain ⟨s₁, h₁, f₁⟩ := generateExpr_frame e hb.1 hw.1 s hd
    obtain ⟨s₂, h₂, f₂⟩ := generateMoreArgs_frame next hb.2 hw.2 (s₁.emitOp kind.firstOp)
      (f₁.savedStack ▸ hd)
    refine ⟨s₂, ?_, f₁.trans (Keeps.trans (Keeps.emitOp kind.isValid_firstOp) f₂.toKeeps),
      f₂.curStack.trans f₁.curStack⟩
    simp only [generateArgs, Except.bind_eq_ok]
    exact ⟨s₁, h₁, h₂⟩

lemma generateMoreArgs_frame (args : ArgList) {dollars : Bool}
    (hb : args.isBuilt dollars = true) (hw : args.isWithin lim = true) (s : State)
    (hd : dollars = true → s.savedStack.isSome = true) :
    ∃ t, generateMoreArgs r args s = .ok t ∧ Frame r 0 s t := by
  match args with
  | .nil => exact ⟨s, rfl, Keeps.refl s, rfl⟩
  | .cons kind e next =>
    simp only [ArgList.isBuilt, ArgList.isWithin, Bool.and_eq_true] at hb hw
    obtain ⟨s₁, h₁, f₁⟩ := generateExpr_frame e hb.1 hw.1 s hd
    obtain ⟨s₂, h₂, f₂⟩ := generateMoreArgs_frame next hb.2 hw.2
      ((s₁.emitOp kind.moreOp).popStack 1) (f₁.savedStack ▸ hd)
    refine ⟨s₂, ?_, f₁.trans (Keeps.trans (Keeps.emitOp kind.isValid_moreOp)
      ((Keeps.popStack 1).trans f₂.toKeeps)), ?_⟩
    · simp only [generateMoreArgs, Except.bind_eq_ok]
      exact ⟨s₁, h₁, h₂⟩
    · rw [f₂.curStack]
      change s₁.curStack - 1 + 0 = _
      rw [f₁.curStack]
      omega

lemma pushLvalue_keeps (e : Expr) (indexedAbove : Bool)
    (hl : e.isLvalue = true ∧ (indexedAbove = true → e.isIndexTarget = true))
    {dollars : Bool} (hb : e.isBuilt dollars = true) (hw : e.isWithin lim = true) (s : State)
    (hd : dollars = true → s.savedStack.isSome = true) :
    ∃ t, pushLvalue r e indexedAbove s = .ok t ∧ Keeps r s t ∧
      t.curStack = s.curStack + e.lvalueDepth + indexedAbove.toNat := by
  match e with
  | .range base lo hi =>
    cases indexedAbove with
    | true => exact absurd (hl.2 rfl) (by simp [Expr.isIndexTarget])
    | false =>
      have ht : base.isIndexTarget = true := hl.1
      simp only [Expr.isBuilt, Expr.isWithin, Bool.and_eq_true] at hb hw
      obtain ⟨s₁, h₁, k₁, hc₁⟩ := pushLvalue_keeps base true
        ⟨Expr.isLvalue_of_isIndexTarget ht, fun _ => ht⟩ hb.1.1 hw.1.1 s hd
      obtain ⟨s₂, h₂, f₂⟩ := generateExpr_frame lo hb.1.2 hw.1.2 s₁.saveStackTop (fun _ => rfl)
      obtain ⟨s₃, h₃, f₃⟩ := generateExpr_frame hi hb.2 hw.2 s₂
        (fun _ => by rw [f₂.savedStack]; rfl)
      refine ⟨s₃.restoreStackTop s₁.savedStack, ?_, k₁.restoreStackTop (f₂.trans f₃.toKeeps), ?_⟩
      · simp only [pushLvalue, Except.bind_eq_ok]
        exact ⟨s₁, h₁, s₂, h₂, s₃, h₃, rfl⟩
      · rw [State.restoreStackTop_curStack, f₃.curStack, f₂.curStack,
          State.saveStackTop_curStack, hc₁]
        simp only [Expr.lvalueDepth, Bool.toNat_true, Bool.toNat_false]
        omega
  | .index lhs rhs =>
    have ht : lhs.isIndexTarget = true := hl.1
    simp only [Expr.isBuilt, Expr.isWithin, Bool.and_eq_true] at hb hw
    obtain ⟨s₁, h₁, k₁, hc₁⟩ := pushLvalue_keeps lhs true
      ⟨Expr.isLvalue_of_isIndexTarget ht, fun _ => ht⟩ hb.1 hw.1 s hd
    obtain ⟨s₂, h₂, f₂⟩ := generateExpr_frame rhs hb.2 hw.2 s₁.saveStackTop (fun _ => rfl)
    have k₂ := k₁.restoreStackTop f₂.toKeeps
    have hc₂ : (s₂.restoreStackTop s₁.savedStack).curStack = s.curStack + lhs.lvalueDepth + 2 := by
      rw [State.restoreStackTop_curStack, f₂.curStack, State.saveStackTop_curStack, hc₁,
        Bool.toNat_true]
    simp only [pushLvalue, Except.bind_eq_ok]
    cases indexedAbove with
    | true =>
      refine ⟨_, ⟨s₁, h₁, s₂, h₂, rfl⟩,
        k₂.trans (Keeps.trans (Keeps.emitOp (by trivial)) (Keeps.pushStack 1)), ?_⟩
      change (s₂.restoreStackTop s₁.savedStack).curStack + 1 = _
      rw [hc₂]
      rfl
    | false => exact ⟨_, ⟨s₁, h₁, s₂, h₂, rfl⟩, k₂, hc₂⟩
  | .id slot =>
    have hslots := hlim.slots
    simp only [Expr.isWithin, decide_eq_true_eq] at hw
    cases indexedAbove with
    | true =>
      refine ⟨_, rfl, (Keeps.emitPush (by omega)).trans (Keeps.pushStack 1), ?_⟩
      rw [State.pushStack_curStack, State.curStack_emitPush]
      rfl
    | false => exact ⟨s, rfl, Keeps.refl s, rfl⟩
  | .prop lhs rhs =>
    simp only [Expr.isBuilt, Expr.isWithin, Bool.and_eq_true] at hb hw
    obtain ⟨s₁, h₁, f₁⟩ := generateExpr_frame lhs hb.1 hw.1 s hd
    obtain ⟨s₂, h₂, f₂⟩ := generateExpr_frame rhs hb.2 hw.2 s₁ (f₁.savedStack ▸ hd)
    have hc₂ : s₂.curStack = s.curStack + 2 := by rw [f₂.curStack, f₁.curStack]
    simp only [pushLvalue, Except.bind_eq_ok]
    cases indexedAbove with
    | true =>
      refine ⟨_, ⟨s₁, h₁, s₂, h₂, rfl⟩,
        f₁.trans (f₂.trans (Keeps.trans (Keeps.emitOp (by trivial)) (Keeps.pushStack 1))), ?_⟩
      change s₂.curStack + 1 = _
      rw [hc₂]
      rfl
    | false => exact ⟨_, ⟨s₁, h₁, s₂, h₂, rfl⟩, f₁.trans f₂.toKeeps, hc₂⟩
  | .var _ | .verb _ _ _ | .asgn _ _ | .call _ _ | .binary _ _ _ | .unary _ _ | .logical _ _ _
  | .list _ | .cond _ _ _ | .catchExpr _ _ _ | .length | .scatter _ =>
    exact absurd hl.1 (by simp [Expr.isLvalue, Expr.isIndexTarget])

lemma generateDefaults_places (sc : Scatter) {dollars : Bool} (hb : sc.isBuilt dollars = true)
    (hw : sc.isWithin lim = true) (label : Nat) (s : State)
    (hd : dollars = true → s.savedStack.isSome = true)
    (hlabels : ∀ i < sc.numDefaults, s.labels[label + i]? = some none) :
    ∃ t, generateDefaults r sc label s = .ok t ∧
      Places r (fun id => label ≤ id ∧ id < label + sc.numDefaults) s t := by
  have hslots := hlim.slots
  match sc with
  | .nil => exact ⟨s, rfl, Places.refl _ s⟩
  | .required _ next | .rest _ next =>
    simp only [Scatter.isBuilt, Scatter.isWithin, Bool.and_eq_true] at hb hw
    exact generateDefaults_places next hb hw.2 label s hd hlabels
  | .optional slot .none next =>
    simp only [Scatter.isBuilt, Scatter.isWithin, Bool.and_eq_true] at hb hw
    exact generateDefaults_places next hb.2 hw.2 label s hd hlabels
  | .optional slot (.some e) next =>
    simp only [Scatter.isBuilt, Scatter.isWithin, Default.isBuilt, Default.isWithin,
      Bool.and_eq_true, decide_eq_true_eq] at hb hw
    have hnone : s.labels[label]? = some none := hlabels 0 (Nat.succ_pos _)
    obtain ⟨s₁, h₁, f₁⟩ := generateExpr_frame e hb.1 hw.1.2 (s.defineLabel label) hd
    have k₂ : Keeps r (s.defineLabel label) (((s₁.emitPut slot).emitOp .opPop).popStack 1) :=
      f₁.trans ((Keeps.emitPut (by omega)).trans (Keeps.trans (Keeps.emitOp (by trivial)) (Keeps.popStack 1)))
    have hc₂ : (((s₁.emitPut slot).emitOp .opPop).popStack 1).curStack = s.curStack := by
      change (s₁.emitPut slot).curStack - 1 = _
      rw [State.curStack_emitPut, f₁.curStack]
      rfl
    obtain ⟨t, h₃, p₃⟩ := generateDefaults_places next hb.2 hw.2 (label + 1)
      (((s₁.emitPut slot).emitOp .opPop).popStack 1) (k₂.savedStack ▸ hd) (fun i hi => by
        apply k₂.getElem?_labels
        rw [State.getElem?_defineLabel_ne (by omega), Nat.add_right_comm]
        exact hlabels (i + 1) (Nat.succ_lt_succ hi))
    refine ⟨t, ?_, ?_⟩
    · simp only [generateDefaults, Except.bind_eq_ok]
      exact ⟨s₁, h₁, h₃⟩
    · simp only [Scatter.numDefaults]
      exact (Places.of_defineLabel (by omega) hnone k₂ hc₂).trans (p₃.mono (by omega))
end

/-! The same for code that is known to have been generated. -/

variable {e : Expr} {args : ArgList} {dollars : Bool} {s t : State}

lemma frame_of_generateExpr (hb : e.isBuilt dollars = true) (hw : e.isWithin lim = true)
    (hd : dollars = true → s.savedStack.isSome = true) (h : generateExpr r e s = .ok t) :
    Frame r 1 s t := by
  obtain ⟨t', h', f⟩ := generateExpr_frame hlim (r := r) e hb hw s hd
  obtain rfl := Except.ok.inj (h.symm.trans h')
  exact f

lemma frame_of_generateArgs {o : Opcode} (ho : o.IsValid r) (hb : args.isBuilt dollars = true)
    (hw : args.isWithin lim = true) (hd : dollars = true → s.savedStack.isSome = true)
    (h : generateArgs r o args s = .ok t) : Frame r 1 s t := by
  obtain ⟨t', h', f⟩ := generateArgs_frame hlim ho args hb hw s hd
  obtain rfl := Except.ok.inj (h.symm.trans h')
  exact f

lemma frame_of_generateMoreArgs (hb : args.isBuilt dollars = true)
    (hw : args.isWithin lim = true) (hd : dollars = true → s.savedStack.isSome = true)
    (h : generateMoreArgs r args s = .ok t) : Frame r 0 s t := by
  obtain ⟨t', h', f⟩ := generateMoreArgs_frame hlim (r := r) args hb hw s hd
  obtain rfl := Except.ok.inj (h.symm.trans h')
  exact f

lemma keeps_of_pushLvalue {indexedAbove : Bool}
    (hl : e.isLvalue = true ∧ (indexedAbove = true → e.isIndexTarget = true))
    (hb : e.isBuilt dollars = true) (hw : e.isWithin lim = true)
    (hd : dollars = true → s.savedStack.isSome = true)
    (h : pushLvalue r e indexedAbove s = .ok t) :
    Keeps r s t ∧ t.curStack = s.curStack + e.lvalueDepth + indexedAbove.toNat := by
  obtain ⟨t', h', f⟩ := pushLvalue_keeps hlim (r := r) e indexedAbove hl hb hw s hd
  obtain rfl := Except.ok.inj (h.symm.trans h')
  exact f

lemma keeps_of_storeLvalue (hl : e.isLvalue = true) (hw : e.isWithin lim = true)
    (hs : e.lvalueDepth + 1 ≤ s.curStack) (h : storeLvalue e s = .ok t) :
    Keeps r s t ∧ t.curStack + e.lvalueDepth = s.curStack := by
  obtain ⟨t', h', f⟩ := storeLvalue_keeps (r := r) hlim hl hw hs
  obtain rfl := Except.ok.inj (h.symm.trans h')
  exact f

lemma places_of_generateDefaults {sc : Scatter} {label : Nat}
    (hb : sc.isBuilt dollars = true) (hw : sc.isWithin lim = true)
    (hd : dollars = true → s.savedStack.isSome = true)
    (hlabels : ∀ i < sc.numDefaults, s.labels[label + i]? = some none)
    (h : generateDefaults r sc label s = .ok t) :
    Places r (fun id => label ≤ id ∧ id < label + sc.numDefaults) s t := by
  obtain ⟨t', h', f⟩ := generateDefaults_places hlim sc hb hw label s hd hlabels
  obtain rfl := Except.ok.inj (h.symm.trans h')
  exact f

end

end LambdaMOO
