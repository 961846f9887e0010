import LambdaMOO.CodeGen.Frame

/-!
# What the code of a statement leaves alone

The statement level of `Frame`. A tree the parser can build, within the limits on operands,
always generates, so the panics of the generator are out of reach.
-/

namespace LambdaMOO

open State

lemma Keeps.addFork {r : Bool} {s : State} (b : Bytecodes) : Keeps r s (s.addFork b) :=
  .of_grows (.addFork b) rfl rfl rfl rfl

/-- A loop is entered and left around its body. -/
lemma Keeps.exitLoop {r : Bool} {s t : State} {slot : Option Nat} {v : LabelValue}
    {a b c : Nat} (h : Keeps r (s.enterLoop slot v a b c) t) : Keeps r s t.exitLoop where
  grows := (Grows.enterLoop slot v a b c).trans (h.grows.trans .exitLoop)
  labels := h.labels
  savedStack := h.savedStack
  loops := by
    rw [State.exitLoop_loops, h.loops, State.enterLoop_loops, List.tail_cons]
  tryDepth := h.tryDepth

/-- The jump back at the end of a loop and the label behind it. -/
lemma Keeps.closeLoop {r : Bool} {s t u v : State} {slot : Option Nat} {top : LabelValue}
    {a b c : Nat} (h : Keeps r s t) (k : Keeps r t.addLabel u)
    (hbody : Keeps r (u.enterLoop slot top a b c) v) :
    Keeps r s (((v.exitLoop.emitOp .opJump).addKnownLabel top).defineLabel t.labels.length) := by
  refine Keeps.defineLabel ?_ h.labels.length_le ?_
  · exact h.trans (Keeps.addLabel.trans (k.trans (hbody.exitLoop.trans
      (Keeps.trans (Keeps.emitOp (by trivial)) (Keeps.addFixup (by trivial))))))
  · exact hbody.getElem?_labels (k.getElem?_labels (State.getElem?_addLabel t))

lemma Frame.emitWhile {r : Bool} {s : State} {slot : Option Nat} (h : ∀ n ∈ slot, n < 256) :
    Frame r 0 s (s.emitWhile slot) := by
  cases slot with
  | none => exact ⟨(Keeps.emitOp (by trivial)), rfl⟩
  | some n => exact ⟨(Keeps.emitExtended _).trans (Keeps.addVarRef (h n rfl)), rfl⟩

lemma Frame.emitForkOp {r : Bool} {s : State} (slot : Option Nat) :
    Frame r 0 s (s.emitForkOp slot) := by
  cases slot <;> exact ⟨(Keeps.emitOp (by trivial)), rfl⟩

lemma Frame.addForkId {r : Bool} {s : State} {slot : Option Nat} (h : ∀ n ∈ slot, n < 256) :
    Frame r 0 s (s.addForkId slot) := by
  cases slot with
  | none => exact ⟨Keeps.refl s, rfl⟩
  | some n => exact ⟨Keeps.addVarRef (h n rfl), rfl⟩

lemma Frame.emitExceptJump {r : Bool} {s : State} (next : ExceptArms) (endLabel : Nat) :
    Frame r 0 s (s.emitExceptJump next endLabel) := by
  cases next with
  | nil => exact ⟨Keeps.refl s, rfl⟩
  | cons _ _ _ _ => exact ⟨Keeps.trans (Keeps.emitOp (by trivial)) (Keeps.addFixup (by trivial)), rfl⟩

/-- A handler pops the exception tuple it finds on the stack. -/
lemma State.curStack_exceptStart (s : State) (label : Nat) (slot : Option Nat) :
    (((((s.defineLabel label).pushStack 1).emitExceptPut slot).emitOp
      .opPop).popStack 1).curStack = s.curStack := by
  change (((s.defineLabel label).pushStack 1).emitExceptPut slot).curStack - 1 = _
  cases slot with
  | none => rfl
  | some n =>
    change (((s.defineLabel label).pushStack 1).emitPut n).curStack - 1 = _
    rw [State.curStack_emitPut]
    rfl

/-- `check_loop_name` is what the generator relies on. -/
lemma findLoop_of_checkLoopName {loops : List Loop} {exit : Option Nat}
    (h : checkLoopName (loops.map (·.slot)) exit = true) :
    ∃ loop ∈ loops, findLoop exit loops = some loop := by
  cases exit with
  | none =>
    cases loops with
    | nil => simp [checkLoopName] at h
    | cons loop rest => exact ⟨loop, List.mem_cons_self, rfl⟩
  | some slot =>
    simp only [checkLoopName, List.contains_eq_mem, List.mem_map, decide_eq_true_eq] at h
    obtain ⟨loop, hmem, hslot⟩ := h
    cases hfind : findLoop (some slot) loops with
    | none =>
      simp only [findLoop, List.find?_eq_none, decide_eq_true_eq] at hfind
      exact absurd hslot (hfind loop hmem)
    | some loop' => exact ⟨loop', List.mem_of_find?_eq_some hfind, rfl⟩

lemma addLinkedLabel_keeps {r : Bool} (next : Option Nat) {s : State}
    (h : ∀ id ∈ next, s.labels[id]? = some none) :
    Keeps r s (s.addLinkedLabel next).2 ∧ (s.addLinkedLabel next).2.curStack = s.curStack ∧
      (s.addLinkedLabel next).2.labels[(s.addLinkedLabel next).1]? = some none ∧
      ((s.addLinkedLabel next).1 ∈ next ∨ s.labels.length = (s.addLinkedLabel next).1) := by
  cases next with
  | none => exact ⟨Keeps.addLabel, rfl, State.getElem?_addLabel s, .inr rfl⟩
  | some id => exact ⟨(Keeps.addFixup (by trivial)), rfl, h id rfl, .inl rfl⟩

/-- The code vector of a fork can be linked. -/
lemma finishCode_of_frame {r : Bool} {g : GState} {t : State} (h : Frame r 0 (State.init g) t) :
    ∃ bc, finishCode r t = .ok bc := by
  have hc : (t.emitEndingOp .opDone).curStack = 0 := h.curStack
  have hs : (t.emitEndingOp .opDone).savedStack = none := h.savedStack
  unfold finishCode link
  rw [if_neg (by simp [hc]), if_neg (by simp [hs])]
  exact ⟨_, rfl⟩

section

set_option linter.unusedSectionVars false

variable {r : Bool} {lim : Limits} (hlim : lim.IsByte)

include hlim

lemma generateHandlers_keeps (arms : ExceptArms) {loops : List (Option Nat)}
    (hb : arms.isBuilt loops = true) (hw : arms.isWithin lim = true) (s : State) :
    ∃ labels t, generateHandlers r arms s = .ok (labels, t) ∧ Keeps r s t ∧
      t.curStack = s.curStack + 2 * arms.length ∧ labels.length = arms.length ∧
      labels.Nodup ∧ ∀ id ∈ labels, s.labels.length ≤ id ∧ t.labels[id]? = some none := by
  match arms with
  | .nil => exact ⟨[], s, rfl, Keeps.refl s, rfl, rfl, List.nodup_nil, by simp⟩
  | .cons slot codes ss next =>
    simp only [ExceptArms.isBuilt, ExceptArms.isWithin, Bool.and_eq_true] at hb hw
    obtain ⟨s₁, h₁, f₁⟩ := generateArgs_frame hlim (r := r) (o := .optimNum 0)
      (by cases r <;> decide) codes hb.1.1.2 hw.1.1.2 s (by rintro ⟨⟩)
    have k₂ : Keeps r s ((s₁.emitExtended .eopPushLabel).addLabel.pushStack 1) :=
      f₁.trans ((Keeps.emitExtended _).trans (Keeps.addLabel.trans (Keeps.pushStack 1)))
    obtain ⟨labels, t, h₃, k₃, hc₃, hlen, hnodup, hlabels⟩ := generateHandlers_keeps next hb.2
      hw.2 ((s₁.emitExtended .eopPushLabel).addLabel.pushStack 1)
    have hlabel : t.labels[s₁.labels.length]? = some none :=
      k₃.getElem?_labels (State.getElem?_addLabel (s₁.emitExtended .eopPushLabel))
    have hlt : ((s₁.emitExtended .eopPushLabel).addLabel.pushStack 1).labels.length
        = s₁.labels.length + 1 := by
      simp [State.addLabel, State.addFixup, State.emitExtended, State.emitOp]
    have hle := f₁.labels.length_le
    refine ⟨s₁.labels.length :: labels, t, ?_, k₂.trans k₃, ?_, ?_, ?_, ?_⟩
    · simp only [generateHandlers, Except.bind_eq_ok]
      exact ⟨s₁, h₁, (labels, t), h₃, rfl⟩
    · have hc₂ : ((s₁.emitExtended .eopPushLabel).addLabel.pushStack 1).curStack
          = s₁.curStack + 1 := rfl
      rw [hc₃, hc₂, f₁.curStack, ExceptArms.length]
      omega
    · rw [List.length_cons, hlen, ExceptArms.length]
    · rw [List.nodup_cons]
      refine ⟨fun hmem => ?_, hnodup⟩
      have := (hlabels _ hmem).1
      omega
    · intro id hid
      rcases List.mem_cons.mp hid with rfl | hid
      · exact ⟨hle, hlabel⟩
      · exact ⟨by have := (hlabels id hid).1; omega, (hlabels id hid).2⟩

mutual
lemma generateStmts_frame (ss : StmtList) {loops : List (Option Nat)}
    (hb : ss.isBuilt loops = true) (hw : ss.isWithin lim = true) (s : State)
    (hl : s.loops.map (·.slot) = loops) :
    ∃ t, generateStmts r ss s = .ok t ∧ Frame r 0 s t := by
  match ss with
  | .nil => exact ⟨s, rfl, Keeps.refl s, rfl⟩
  | .cons stmt next =>
    simp only [StmtList.isBuilt, StmtList.isWithin, Bool.and_eq_true] at hb hw
    obtain ⟨s₁, h₁, f₁⟩ := generateStmt_frame stmt hb.1 hw.1 s hl
    obtain ⟨s₂, h₂, f₂⟩ := generateStmts_frame next hb.2 hw.2 s₁ (f₁.loops ▸ hl)
    refine ⟨s₂, ?_, f₁.trans f₂.toKeeps, f₂.curStack.trans f₁.curStack⟩
    simp only [generateStmts, Except.bind_eq_ok]
    exact ⟨s₁, h₁, h₂⟩

lemma generateStmt_frame (stmt : Stmt) {loops : List (Option Nat)}
    (hb : stmt.isBuilt loops = true) (hw : stmt.isWithin lim = true) (s : State)
    (hl : s.loops.map (·.slot) = loops) :
    ∃ t, generateStmt r stmt s = .ok t ∧ Frame r 0 s t := by
  have hslots := hlim.slots
  match stmt with
  | .expr e =>
    simp only [Stmt.isBuilt, Stmt.isWithin] at hb hw
    obtain ⟨s₁, h₁, f₁⟩ := generateExpr_frame hlim (r := r) e hb hw s (by rintro ⟨⟩)
    refine ⟨(s₁.emitOp .opPop).popStack 1, ?_, f₁.trans (Keeps.trans (Keeps.emitOp (by trivial))
      (Keeps.popStack 1)), ?_⟩
    · simp only [generateStmt, Except.bind_eq_ok]
      exact ⟨s₁, h₁, rfl⟩
    · change s₁.curStack - 1 = _
      rw [f₁.curStack]
      rfl
  | .ret none => exact ⟨_, rfl, (Keeps.emitEndingOp (by trivial)), rfl⟩
  | .ret (some e) =>
    simp only [Stmt.isBuilt, Stmt.isWithin, Option.all_some] at hb hw
    obtain ⟨s₁, h₁, f₁⟩ := generateExpr_frame hlim (r := r) e hb hw s (by rintro ⟨⟩)
    refine ⟨(s₁.emitEndingOp .opReturn).popStack 1, ?_, f₁.trans (Keeps.trans
      (Keeps.emitEndingOp (by trivial)) (Keeps.popStack 1)), ?_⟩
    · simp only [generateStmt, Except.bind_eq_ok]
      exact ⟨s₁, h₁, rfl⟩
    · change s₁.curStack - 1 = _
      rw [f₁.curStack]
      rfl
  | .brk exit =>
    simp only [Stmt.isBuilt, Stmt.isWithin, Option.all_eq_true, decide_eq_true_eq] at hb hw
    subst hl
    obtain ⟨loop, -, hfind⟩ := findLoop_of_checkLoopName hb
    simp only [generateStmt, hfind]
    refine ⟨_, rfl, (Keeps.generateExit fun n hn => by have := hw n hn; omega).trans
      (Keeps.trans (Keeps.addFixup (by trivial)) (Keeps.addFixup (by trivial))), ?_⟩
    cases exit <;> rfl
  | .cont exit =>
    simp only [Stmt.isBuilt, Stmt.isWithin, Option.all_eq_true, decide_eq_true_eq] at hb hw
    subst hl
    obtain ⟨loop, -, hfind⟩ := findLoop_of_checkLoopName hb
    simp only [generateStmt, hfind]
    refine ⟨_, rfl, (Keeps.generateExit fun n hn => by have := hw n hn; omega).trans
      (Keeps.trans (Keeps.addFixup (by trivial)) (Keeps.addFixup (by trivial))), ?_⟩
    cases exit <;> rfl
  | .list slot e body =>
    simp only [Stmt.isBuilt, Stmt.isWithin, Bool.and_eq_true, decide_eq_true_eq] at hb hw
    obtain ⟨s₁, h₁, f₁⟩ := generateExpr_frame hlim (r := r) e hb.1 hw.1.2 s (by rintro ⟨⟩)
    have k₂ : Keeps r s ((((s₁.emitOp (.optimNum 1)).pushStack 1).emitOp .opForList).addVarRef
        slot) :=
      f₁.trans (Keeps.trans (Keeps.emitOp (by cases r <;> decide)) ((Keeps.pushStack 1).trans
        (Keeps.trans (Keeps.emitOp (by trivial)) (Keeps.addVarRef (by omega)))))
    generalize hs₂ : (s₁.emitOp (.optimNum 1)).pushStack 1 = s₂ at k₂
    have hc₂ : s₂.curStack = s.curStack + 2 := by
      rw [← hs₂]
      exact congrArg (· + 1) f₁.curStack
    obtain ⟨s₃, h₃, f₃⟩ := generateStmts_frame body hb.2 hw.2
      (((s₂.emitOp .opForList).addVarRef slot).addLabel.enterLoop (some slot) s₂.captureLabel
        s₂.curStack s₂.labels.length (s₂.curStack - 2))
      (congrArg (some slot :: ·) ((congrArg _ k₂.loops).trans hl))
    refine ⟨_, ?_, (k₂.closeLoop (Keeps.refl _) f₃.toKeeps).trans (Keeps.popStack 2), ?_⟩
    · simp only [generateStmt, Except.bind_eq_ok]
      exact ⟨s₁, h₁, s₃, hs₂ ▸ h₃, hs₂ ▸ rfl⟩
    · change s₃.curStack - 2 = _
      have hc₃ : s₃.curStack = s₂.curStack := f₃.curStack
      omega
  | .range slot lo hi body =>
    simp only [Stmt.isBuilt, Stmt.isWithin, Bool.and_eq_true, decide_eq_true_eq] at hb hw
    obtain ⟨s₁, h₁, f₁⟩ := generateExpr_frame hlim (r := r) lo hb.1.1 hw.1.1.2 s (by rintro ⟨⟩)
    obtain ⟨s₂, h₂, f₂⟩ := generateExpr_frame hlim (r := r) hi hb.1.2 hw.1.2 s₁ (by rintro ⟨⟩)
    have k₂ : Keeps r s ((s₂.emitOp .opForRange).addVarRef slot) :=
      f₁.trans (f₂.trans (Keeps.trans (Keeps.emitOp (by trivial)) (Keeps.addVarRef (by omega))))
    have hc₂ : s₂.curStack = s.curStack + 2 := by rw [f₂.curStack, f₁.curStack]
    obtain ⟨s₃, h₃, f₃⟩ := generateStmts_frame body hb.2 hw.2
      (((s₂.emitOp .opForRange).addVarRef slot).addLabel.enterLoop (some slot) s₂.captureLabel
        s₂.curStack s₂.labels.length (s₂.curStack - 2))
      (congrArg (some slot :: ·) ((congrArg _ k₂.loops).trans hl))
    refine ⟨_, ?_, (k₂.closeLoop (Keeps.refl _) f₃.toKeeps).trans (Keeps.popStack 2), ?_⟩
    · simp only [generateStmt, Except.bind_eq_ok]
      exact ⟨s₁, h₁, s₂, h₂, s₃, h₃, rfl⟩
    · change s₃.curStack - 2 = _
      have hc₃ : s₃.curStack = s₂.curStack := f₃.curStack
      omega
  | .loop slot c body =>
    simp only [Stmt.isBuilt, Stmt.isWithin, Bool.and_eq_true, Option.all_eq_true,
      decide_eq_true_eq] at hb hw
    obtain ⟨s₁, h₁, f₁⟩ := generateExpr_frame hlim (r := r) c hb.1 hw.1.2 s (by rintro ⟨⟩)
    have f₂ : Frame r 0 s₁ (s₁.emitWhile slot) := Frame.emitWhile fun n hn => by
      have := hw.1.1 n hn
      omega
    generalize hs₂ : s₁.emitWhile slot = s₂ at f₂
    obtain ⟨s₃, h₃, f₃⟩ := generateStmts_frame body hb.2 hw.2
      ((s₂.addLabel.popStack 1).enterLoop slot s.captureLabel (s₂.curStack - 1)
        s₂.labels.length (s₂.curStack - 1))
      (congrArg (slot :: ·) ((congrArg _ (f₂.loops.trans f₁.loops)).trans hl))
    refine ⟨_, ?_, (f₁.trans f₂.toKeeps).closeLoop (Keeps.popStack 1) f₃.toKeeps, ?_⟩
    · simp only [generateStmt, Except.bind_eq_ok]
      exact ⟨s₁, h₁, s₃, hs₂ ▸ h₃, hs₂ ▸ rfl⟩
    · change s₃.curStack = _
      have hc₃ : s₃.curStack = s₂.curStack - 1 := f₃.curStack
      rw [hc₃, f₂.curStack, f₁.curStack]
      rfl
  | .fork slot time body =>
    simp only [Stmt.isBuilt, Stmt.isWithin, Bool.and_eq_true, Option.all_eq_true,
      decide_eq_true_eq] at hb hw
    obtain ⟨s₁, h₁, f₁⟩ := generateExpr_frame hlim (r := r) time hb.1 hw.1.2 s (by rintro ⟨⟩)
    have f₂ : Frame r 0 s₁ (s₁.emitForkOp slot) := Frame.emitForkOp slot
    generalize hs₂ : s₁.emitForkOp slot = s₂ at f₂
    obtain ⟨t, h₃, f₃⟩ := generateStmts_frame body hb.2 hw.2 (State.init s₂.gstate) rfl
    obtain ⟨bc, hbc⟩ := finishCode_of_frame f₃
    have f₄ : Frame r 0 s₂ ({ s₂ with gstate := t.gstate }.addFork bc) :=
      ⟨(Keeps.of_grows (.setGState (s := s₂) f₃.grows.literals f₃.grows.forkVectors) rfl rfl rfl
        rfl).trans (Keeps.addFork bc), rfl⟩
    generalize hs₄ : { s₂ with gstate := t.gstate }.addFork bc = s₄ at f₄
    have f₅ : Frame r 0 s₄ (s₄.addForkId slot) := Frame.addForkId fun n hn => by
      have := hw.1.1 n hn
      omega
    refine ⟨_, ?_, f₁.trans (f₂.trans (f₄.trans (f₅.trans (Keeps.popStack 1)))), ?_⟩
    · simp only [generateStmt, Except.bind_eq_ok]
      exact ⟨s₁, h₁, t, hs₂ ▸ h₃, bc, hbc, hs₄ ▸ hs₂ ▸ rfl⟩
    · rw [State.popStack_curStack, f₅.curStack, f₄.curStack, f₂.curStack, f₁.curStack]
      rfl
  | .cond arms otherwise =>
    simp only [Stmt.isBuilt, Stmt.isWithin, Bool.and_eq_true, decide_eq_true_eq] at hb hw
    obtain ⟨out, s₁, h₁, k₁, hc₁, hout⟩ := generateArms_keeps arms .opIf trivial hb.1.2 hw.1
      none s hl (by rintro _ ⟨⟩)
    obtain ⟨s₂, h₂, f₂⟩ := generateStmts_frame otherwise hb.2 hw.2 s₁ (k₁.loops ▸ hl)
    have hc₂ : s₂.curStack = s.curStack := f₂.curStack.trans hc₁
    simp only [generateStmt, Except.bind_eq_ok]
    cases out with
    | none => exact ⟨s₂, ⟨(none, s₁), h₁, s₂, h₂, rfl⟩, k₁.trans f₂.toKeeps, hc₂⟩
    | some id =>
      obtain ⟨hnone, hid⟩ := hout id rfl
      refine ⟨s₂.defineLabel id, ⟨(some id, s₁), h₁, s₂, h₂, rfl⟩, ?_, hc₂⟩
      exact (k₁.trans f₂.toKeeps).defineLabel (hid.resolve_left (by rintro ⟨⟩))
        (f₂.getElem?_labels hnone)
  | .tryExcept body excepts =>
    simp only [Stmt.isBuilt, Stmt.isWithin, Bool.and_eq_true, decide_eq_true_eq] at hb hw
    have harms := hlim.arms
    obtain ⟨labels, s₁, h₁, k₁, hc₁, hlen, hnodup, hlabels⟩ :=
      generateHandlers_keeps hlim (r := r) excepts hb.2 hw.2 s
    have k₂ : Keeps r s (((s₁.emitExtended .eopTryExcept).emitByte excepts.length).pushStack 1) :=
      k₁.trans ((Keeps.emitExtended _).trans ((Keeps.emitByte (by omega)).trans
        (Keeps.pushStack 1)))
    have hc₂ : (((s₁.emitExtended .eopTryExcept).emitByte excepts.length).pushStack 1).curStack
        = s₁.curStack + 1 := rfl
    obtain ⟨s₃, h₃, f₃⟩ := generateStmts_frame body hb.1.2 hw.1.2
      (((s₁.emitExtended .eopTryExcept).emitByte excepts.length).pushStack 1).incrTryDepth
      ((congrArg _ k₂.loops).trans hl)
    have hlt (id : Nat) (hid : id ∈ labels) : s₃.labels[id]? = some none :=
      f₃.getElem?_labels (hlabels id hid).2
    have k₄ : Keeps r s ((s₃.decrTryDepth.emitExtended .eopEndExcept).addLabel.popStack
        (2 * excepts.length + 1)) :=
      (k₂.decrTryDepth f₃.toKeeps).trans ((Keeps.emitExtended _).trans
        (Keeps.addLabel.trans (Keeps.popStack _)))
    obtain ⟨s₅, h₅, p₅⟩ := generateExcepts_places excepts hb.2 hw.2 labels hlen.symm hnodup
      s₃.labels.length ((s₃.decrTryDepth.emitExtended .eopEndExcept).addLabel.popStack
        (2 * excepts.length + 1)) (k₄.loops ▸ hl) (fun id hid => (Keeps.addLabel (r := r)
          (s := s₃.decrTryDepth.emitExtended .eopEndExcept)).getElem?_labels (hlt id hid))
    refine ⟨s₅.defineLabel s₃.labels.length, ?_, ?_, ?_⟩
    · simp only [generateStmt, Except.bind_eq_ok]
      exact ⟨(labels, s₁), h₁, s₃, h₃, s₅, h₅, rfl⟩
    · refine p₅.keeps_defineLabel k₄ ?_ ?_ ?_ fun id hid => (hlabels id hid).1
      · exact Nat.le_trans k₂.labels.length_le f₃.labels.length_le
      · exact State.getElem?_addLabel (s₃.decrTryDepth.emitExtended .eopEndExcept)
      · intro hid
        exact absurd (List.getElem?_eq_some_iff.mp (hlt _ hid)).1 (Nat.lt_irrefl _)
    · rw [State.defineLabel_curStack, p₅.curStack]
      change s₃.curStack - (2 * excepts.length + 1) = _
      have hc₃ : s₃.curStack = s₁.curStack + 1 := f₃.curStack
      omega
  | .tryFinally body handler =>
    simp only [Stmt.isBuilt, Stmt.isWithin, Bool.and_eq_true] at hb hw
    have k₁ : Keeps r s ((s.emitExtended .eopTryFinally).addLabel.pushStack 1) :=
      (Keeps.emitExtended _).trans (Keeps.addLabel.trans (Keeps.pushStack 1))
    obtain ⟨s₂, h₂, f₂⟩ := generateStmts_frame body hb.1 hw.1
      ((s.emitExtended .eopTryFinally).addLabel.pushStack 1).incrTryDepth hl
    have hlabel : s₂.labels[s.labels.length]? = some none :=
      f₂.getElem?_labels (State.getElem?_addLabel (s.emitExtended .eopTryFinally))
    have k₃ : Keeps r s ((((s₂.decrTryDepth.emitExtended .eopEndFinally).popStack 1).defineLabel
        s.labels.length).pushStack 2) := by
      refine Keeps.trans (Keeps.defineLabel ?_ (Nat.le_refl _) ?_) (Keeps.pushStack 2)
      on_goal 2 => exact hlabel
      exact (k₁.decrTryDepth f₂.toKeeps).trans ((Keeps.emitExtended _).trans (Keeps.popStack 1))
    obtain ⟨s₄, h₄, f₄⟩ := generateStmts_frame handler hb.2 hw.2
      ((((s₂.decrTryDepth.emitExtended .eopEndFinally).popStack 1).defineLabel
        s.labels.length).pushStack 2) ((congrArg _ k₃.loops).trans hl)
    refine ⟨(s₄.emitExtended .eopContinue).popStack 2, ?_,
      k₃.trans (f₄.trans ((Keeps.emitExtended _).trans (Keeps.popStack 2))), ?_⟩
    · simp only [generateStmt, Except.bind_eq_ok]
      exact ⟨s₂, h₂, s₄, h₄, rfl⟩
    · change s₄.curStack - 2 = _
      have hc₂ : s₂.curStack = s.curStack + 1 := f₂.curStack
      have hc₄ : s₄.curStack = s₂.curStack - 1 + 2 := f₄.curStack
      omega

lemma generateArms_keeps (arms : CondArms) (ifOp : Opcode) (ho : ifOp.IsValid r)
    {loops : List (Option Nat)} (hb : arms.isBuilt loops = true) (hw : arms.isWithin lim = true)
    (endLabel : Option Nat) (s : State) (hl : s.loops.map (·.slot) = loops)
    (hend : ∀ id ∈ endLabel, s.labels[id]? = some none) :
    ∃ out t, generateArms r arms ifOp endLabel s = .ok (out, t) ∧ Keeps r s t ∧
      t.curStack = s.curStack ∧ ∀ id ∈ out, t.labels[id]? = some none ∧
        (id ∈ endLabel ∨ s.labels.length ≤ id) := by
  match arms with
  | .nil => exact ⟨endLabel, s, rfl, Keeps.refl s, rfl, fun id hid => ⟨hend id hid, .inl hid⟩⟩
  | .cons c ss next =>
    simp only [CondArms.isBuilt, CondArms.isWithin, Bool.and_eq_true] at hb hw
    obtain ⟨s₁, h₁, f₁⟩ := generateExpr_frame hlim (r := r) c hb.1.1 hw.1.1 s (by rintro ⟨⟩)
    have k₂ : Keeps r s ((s₁.emitOp ifOp).addLabel.popStack 1) :=
      f₁.trans (Keeps.trans (Keeps.emitOp ho) (Keeps.addLabel.trans (Keeps.popStack 1)))
    have hc₂ : ((s₁.emitOp ifOp).addLabel.popStack 1).curStack = s.curStack := by
      change s₁.curStack - 1 = _
      rw [f₁.curStack]
      rfl
    obtain ⟨s₃, h₃, f₃⟩ := generateStmts_frame ss hb.1.2 hw.1.2
      ((s₁.emitOp ifOp).addLabel.popStack 1) (k₂.loops ▸ hl)
    have helse : s₃.labels[s₁.labels.length]? = some none :=
      f₃.getElem?_labels (State.getElem?_addLabel (s₁.emitOp ifOp))
    obtain ⟨k₄, hc₄, hnone, hmem⟩ := addLinkedLabel_keeps (r := r) endLabel
      (s := s₃.emitOp .opJump) (fun id hid => (k₂.trans f₃.toKeeps).getElem?_labels (hend id hid))
    have hstep : generateArms r (.cons c ss next) ifOp endLabel s
        = generateArms r next .opEif (some ((s₃.emitOp .opJump).addLinkedLabel endLabel).1)
          (((s₃.emitOp .opJump).addLinkedLabel endLabel).2.defineLabel s₁.labels.length) := by
      simp only [generateArms, h₁, h₃, bind, Except.bind]
      rfl
    generalize ((s₃.emitOp .opJump).addLinkedLabel endLabel).1 = id at hstep hnone hmem
    generalize ((s₃.emitOp .opJump).addLinkedLabel endLabel).2 = s₄ at hstep hnone hc₄ k₄
    have hle := f₁.labels.length_le
    have hlt : s₁.labels.length < s₃.labels.length := (List.getElem?_eq_some_iff.mp helse).1
    have hid : id ∈ endLabel ∨ s.labels.length ≤ id :=
      hmem.imp_right fun (h : s₃.labels.length = id) => by omega
    have hne : s₁.labels.length ≠ id := by
      rcases hmem with hmem | hmem
      · have := (List.getElem?_eq_some_iff.mp (hend id hmem)).1
        omega
      · have hmem : s₃.labels.length = id := hmem
        omega
    have k₅ : Keeps r s (s₄.defineLabel s₁.labels.length) :=
      Keeps.defineLabel (k₂.trans (f₃.trans (Keeps.trans (Keeps.emitOp (by trivial)) k₄))) hle
        (k₄.getElem?_labels helse)
    have hnone' : (s₄.defineLabel s₁.labels.length).labels[id]? = some none := by
      rw [State.getElem?_defineLabel_ne hne]
      exact hnone
    obtain ⟨out, t, h₆, k₆, hc₆, hout⟩ := generateArms_keeps next .opEif trivial hb.2 hw.2
      (some id) (s₄.defineLabel s₁.labels.length) (k₅.loops ▸ hl)
      (fun id' hid' => by obtain rfl := Option.some.inj hid'; exact hnone')
    refine ⟨out, t, hstep.trans h₆, k₅.trans k₆, ?_, fun id' hid' => ⟨(hout id' hid').1, ?_⟩⟩
    · rw [hc₆, State.defineLabel_curStack, hc₄]
      change s₃.curStack = _
      rw [f₃.curStack, hc₂]
      rfl
    · rcases (hout id' hid').2 with hid' | hid'
      · obtain rfl := Option.some.inj hid'
        exact hid
      · exact .inr (Nat.le_trans k₅.labels.length_le hid')

lemma generateExcepts_places (arms : ExceptArms) {loops : List (Option Nat)}
    (hb : arms.isBuilt loops = true) (hw : arms.isWithin lim = true) (labels : List Nat)
    (hlen : arms.length = labels.length) (hnodup : labels.Nodup) (endLabel : Nat) (s : State)
    (hl : s.loops.map (·.slot) = loops) (hnone : ∀ id ∈ labels, s.labels[id]? = some none) :
    ∃ t, generateExcepts r arms labels endLabel s = .ok t ∧ Places r (· ∈ labels) s t := by
  have hslots := hlim.slots
  match arms, labels with
  | .nil, _ => exact ⟨s, rfl, Places.refl _ s⟩
  | .cons slot codes ss next, label :: labels =>
    simp only [ExceptArms.isBuilt, ExceptArms.isWithin, Bool.and_eq_true, Option.all_eq_true,
      decide_eq_true_eq] at hb hw
    obtain ⟨hnotin, hnodup⟩ := List.nodup_cons.mp hnodup
    have k₁ : Keeps r (s.defineLabel label) (((((s.defineLabel label).pushStack
        1).emitExceptPut slot).emitOp .opPop).popStack 1) :=
      (Keeps.pushStack 1).trans ((Keeps.emitExceptPut fun n hn => by
        have := hw.1.1.1 n hn; omega).trans (Keeps.trans (Keeps.emitOp (by trivial)) (Keeps.popStack 1)))
    have hc₁ : (((((s.defineLabel label).pushStack 1).emitExceptPut slot).emitOp
        .opPop).popStack 1).curStack = s.curStack := State.curStack_exceptStart s label slot
    obtain ⟨s₂, h₂, f₂⟩ := generateStmts_frame ss hb.1.2 hw.1.2
      (((((s.defineLabel label).pushStack 1).emitExceptPut slot).emitOp .opPop).popStack 1)
      (k₁.loops ▸ hl)
    have f₃ : Frame r 0 s₂ (s₂.emitExceptJump next endLabel) := Frame.emitExceptJump next endLabel
    have p₃ : Places r (· ∈ label :: labels) s (s₂.emitExceptJump next endLabel) :=
      .of_defineLabel List.mem_cons_self (hnone label List.mem_cons_self)
        (k₁.trans (f₂.trans f₃.toKeeps)) (f₃.curStack.trans (f₂.curStack.trans hc₁))
    obtain ⟨t, h₄, p₄⟩ := generateExcepts_places next hb.2 hw.2 labels
      (Nat.succ.inj hlen) hnodup endLabel (s₂.emitExceptJump next endLabel)
      (f₃.loops ▸ f₂.loops ▸ k₁.loops ▸ hl) (fun id hid => by
        apply (k₁.trans (f₂.trans f₃.toKeeps)).getElem?_labels
        rw [State.getElem?_defineLabel_ne (by rintro rfl; exact hnotin hid)]
        exact hnone id (List.mem_cons_of_mem _ hid))
    refine ⟨t, ?_, p₃.trans (p₄.mono fun id hid => List.mem_cons_of_mem _ hid)⟩
    simp only [generateExcepts, Except.bind_eq_ok]
    exact ⟨s₂, h₂, h₄⟩
end

/-! The same for code that is known to have been generated. -/

variable {loops : List (Option Nat)} {s t : State}

lemma frame_of_generateStmts {ss : StmtList} (hb : ss.isBuilt loops = true)
    (hw : ss.isWithin lim = true) (hl : s.loops.map (·.slot) = loops)
    (h : generateStmts r ss s = .ok t) : Frame r 0 s t := by
  obtain ⟨t', h', f⟩ := generateStmts_frame hlim (r := r) ss hb hw s hl
  obtain rfl := Except.ok.inj (h.symm.trans h')
  exact f

lemma frame_of_generateStmt {stmt : Stmt} (hb : stmt.isBuilt loops = true)
    (hw : stmt.isWithin lim = true) (hl : s.loops.map (·.slot) = loops)
    (h : generateStmt r stmt s = .ok t) : Frame r 0 s t := by
  obtain ⟨t', h', f⟩ := generateStmt_frame hlim (r := r) stmt hb hw s hl
  obtain rfl := Except.ok.inj (h.symm.trans h')
  exact f

lemma keeps_of_generateHandlers {arms : ExceptArms} {labels : List Nat}
    (hb : arms.isBuilt loops = true) (hw : arms.isWithin lim = true)
    (h : generateHandlers r arms s = .ok (labels, t)) :
    Keeps r s t ∧ t.curStack = s.curStack + 2 * arms.length ∧ labels.length = arms.length ∧
      labels.Nodup ∧ ∀ id ∈ labels, s.labels.length ≤ id ∧ t.labels[id]? = some none := by
  obtain ⟨labels', t', h', f⟩ := generateHandlers_keeps hlim (r := r) arms hb hw s
  obtain ⟨rfl, rfl⟩ := Prod.mk.inj (Except.ok.inj (h.symm.trans h'))
  exact f

lemma keeps_of_generateArms {arms : CondArms} {ifOp : Opcode} (ho : ifOp.IsValid r)
    (hb : arms.isBuilt loops = true) (hw : arms.isWithin lim = true) {endLabel out : Option Nat}
    (hl : s.loops.map (·.slot) = loops) (hend : ∀ id ∈ endLabel, s.labels[id]? = some none)
    (h : generateArms r arms ifOp endLabel s = .ok (out, t)) :
    Keeps r s t ∧ t.curStack = s.curStack ∧ ∀ id ∈ out, t.labels[id]? = some none ∧
      (id ∈ endLabel ∨ s.labels.length ≤ id) := by
  obtain ⟨out', t', h', f⟩ := generateArms_keeps hlim arms ifOp ho hb hw endLabel s hl hend
  obtain ⟨rfl, rfl⟩ := Prod.mk.inj (Except.ok.inj (h.symm.trans h'))
  exact f

lemma places_of_generateExcepts {arms : ExceptArms} (hb : arms.isBuilt loops = true)
    (hw : arms.isWithin lim = true) {labels : List Nat} (hlen : arms.length = labels.length)
    (hnodup : labels.Nodup) {endLabel : Nat} (hl : s.loops.map (·.slot) = loops)
    (hnone : ∀ id ∈ labels, s.labels[id]? = some none)
    (h : generateExcepts r arms labels endLabel s = .ok t) : Places r (· ∈ labels) s t := by
  obtain ⟨t', h', f⟩ := generateExcepts_places hlim (r := r) arms hb hw labels hlen hnodup
    endLabel s hl hnone
  obtain rfl := Except.ok.inj (h.symm.trans h')
  exact f

end

end LambdaMOO
