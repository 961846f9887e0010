import LambdaMOO.CodeGen.TraceExpr
import LambdaMOO.CodeGen.FrameStmt

/-!
# The traces of statements

Every program that the parser can build generates code with its trace. The vectors of a
program are those of the fork bodies, in the order in which they end, and the main one.
-/

namespace LambdaMOO

open State

attribute [local simp] Trace.append_assoc

variable {r : Bool}

def Loop.level (l : Loop) : LoopLevel := ⟨l.slot, l.topStack, l.bottomStack⟩

/-- In front of a statement that is inside of loops with the levels `L`. -/
structure State.IsAt (L : List LoopLevel) (d : Nat) (s : State) : Prop where
  savedStack : s.savedStack = none
  curStack : s.curStack = d
  loops : s.loops.map Loop.level = L

lemma State.IsAt.of_lays {P : Set Nat} {tr : Trace} {L : List LoopLevel} {d e : Nat} {s t : State}
    (h : s.IsAt L d) (k : Lays r P tr s t) (hc : t.curStack = e) : t.IsAt L e :=
  ⟨k.savedStack.trans h.savedStack, hc, (congrArg _ k.loops).trans h.loops⟩

lemma findLevel_map (exit : Option Nat) (loops : List Loop) :
    findLevel exit (loops.map Loop.level) = (findLoop exit loops).map Loop.level := by
  cases exit with
  | none => cases loops <;> rfl
  | some slot =>
    simp only [findLevel, findLoop, List.find?_map]
    rfl

lemma mem_of_findLoop {exit : Option Nat} {loops : List Loop} {l : Loop}
    (h : findLoop exit loops = some l) : l ∈ loops := by
  cases exit with
  | none => exact List.mem_of_mem_head? h
  | some slot => exact List.mem_of_find?_eq_some h

lemma generateHandlers_lays (arms : ExceptArms) {loops : List (Option Nat)}
    (hb : arms.isBuilt loops = true) {d : Nat} (s : State) (hs : s.savedStack = none)
    (hc : s.curStack = d) :
    ∃ labels t, generateHandlers r arms s = .ok (labels, t) ∧ Lays r ∅ (arms.codesTrace d) s t ∧
      t.curStack = s.curStack + 2 * arms.length ∧
      t.openLabels = s.openLabels + arms.length ∧ labels.length = arms.length ∧
      labels.Nodup ∧ ∀ id ∈ labels, s.labels.length ≤ id ∧ t.labels[id]? = some none := by
  match arms with
  | .nil => exact ⟨[], s, rfl, Lays.refl _ s, rfl, rfl, rfl, List.nodup_nil, by simp⟩
  | .cons slot codes ss next =>
    simp only [ExceptArms.isBuilt, Bool.and_eq_true] at hb
    obtain ⟨s₁, h₁, f₁⟩ := generateArgs_laid (r := r) (.optimNum 0) codes hb.1.1.2 s hs hc (by rintro ⟨⟩)
    have hc₁ : s₁.curStack = d + 1 := f₁.curStack.trans (congrArg (· + 1) hc)
    have k₂ : Lays r ∅ (codes.trace none d ++ .push (d + 2)) s
        ((s₁.emitExtended .eopPushLabel).addLabel.pushStack 1) :=
      (f₁.trans ((Lays.emitExtended _).trans (Lays.addLabel.trans (Lays.pushStack_of (n := 1)
        (congrArg (· + 1) hc₁))))).cast (by simp)
    have hc₂ : ((s₁.emitExtended .eopPushLabel).addLabel.pushStack 1).curStack = d + 2 := by
      rw [State.pushStack_curStack]
      exact congrArg (· + 1) hc₁
    obtain ⟨labels, t, h₃, k₃, hc₃, ho₃, hlen, hnodup, hlabels⟩ := generateHandlers_lays next hb.2
      ((s₁.emitExtended .eopPushLabel).addLabel.pushStack 1) (k₂.savedStack.trans hs) hc₂
    have hlabel : t.labels[s₁.labels.length]? = some none :=
      k₃.getElem?_labels (State.getElem?_addLabel (s₁.emitExtended .eopPushLabel))
    have hlt : ((s₁.emitExtended .eopPushLabel).addLabel.pushStack 1).labels.length
        = s₁.labels.length + 1 := by
      simp [State.addLabel, State.addFixup, State.emitExtended, State.emitOp]
    have hle := f₁.labelCount
    refine ⟨s₁.labels.length :: labels, t, ?_, ?_, ?_, ?_, ?_, ?_, ?_⟩
    · simp only [generateHandlers, Except.bind_eq_ok]
      exact ⟨s₁, h₁, (labels, t), h₃, rfl⟩
    · exact (k₂.trans k₃).cast (by simp [ExceptArms.codesTrace])
    · rw [hc₃, hc₂, ExceptArms.length, hc]
      omega
    · have ho₂ : ((s₁.emitExtended .eopPushLabel).addLabel.pushStack 1).openLabels
          = (s₁.emitExtended .eopPushLabel).openLabels + 1 := State.openLabels_addLabel _
      have ho₁ : (s₁.emitExtended .eopPushLabel).openLabels = s.openLabels := f₁.openLabels
      rw [ho₃, ho₂, ho₁, ExceptArms.length]
      omega
    · rw [List.length_cons, hlen, ExceptArms.length]
    · rw [List.nodup_cons]
      refine ⟨fun hmem => ?_, hnodup⟩
      have := (hlabels _ hmem).1
      omega
    · intro id hid
      rcases List.mem_cons.mp hid with rfl | hid
      · exact ⟨hle, hlabel⟩
      · exact ⟨by have := (hlabels id hid).1; omega, (hlabels id hid).2⟩

lemma State.IsConsistent.isCaptured_captureLabel {s : State} (h : s.IsConsistent) :
    s.captureLabel.IsCaptured s.cells where
  le := Nat.le_refl _
  prev := by
    rw [State.captureLabel, List.take_length]
    exact h.counted

/-- The code of a loop: `t` is the state in which the label of its end is added, `u` the one
in which the body begins. -/
lemma lays_loop {a b c tr : Trace} {top : LabelValue} {slot : Option Nat} {i j : Nat}
    {s t u v : State} (h : Lays r ∅ a s t) (k : Lays r ∅ b t.addLabel u)
    (hbody : Lays r ∅ c (u.enterLoop slot top i t.labels.length j) v)
    (htop : s.IsConsistent → top.IsCaptured t.cells) (hi : s.IsConsistent → i ≤ u.maxStack)
    (hj : s.IsConsistent → j ≤ u.maxStack) (htr : a ++ (b ++ c) = tr) :
    Lays r ∅ tr s
      (((v.exitLoop.emitOp .opJump).addKnownLabel top).defineLabel t.labels.length) := by
  have hlt : t.labels.length < u.labels.length :=
    (List.getElem?_eq_some_iff.mp (k.getElem?_labels (State.getElem?_addLabel t))).1
  have hu : Lays r ∅ (a ++ b) s u := (h.trans (Lays.addLabel.trans k)).cast (by simp)
  have hcells : t.cells <+: u.cells := (Lays.addLabel (r := r) (P := ∅)).cells.trans k.cells
  have hexit : Lays r ∅ (a ++ b ++ c) s v.exitLoop := hu.exitLoop hbody fun hs =>
    ⟨(htop hs).mono hcells, hlt, hi hs, hj hs⟩
  have hjump := hexit.trans (Lays.emitOp .opJump)
  have hcap : s.IsConsistent → top.IsCaptured (v.exitLoop.emitOp .opJump).cells := fun hs =>
    (htop hs).mono (hcells.trans (hbody.cells.trans (Lays.emitOp (r := r) (P := ∅)
      .opJump).cells))
  exact ((hjump.addKnownLabel hcap).cast (by simpa using htr)).defineLabel h.labelCount

/-- A loop places the label of its end. -/
lemma openLabels_loop {b c : Trace} {top : LabelValue} {slot : Option Nat} {i j : Nat}
    {t u v : State} (k : Lays r ∅ b t.addLabel u) (ho : u.openLabels = t.addLabel.openLabels)
    (hbody : Laid r c 0 (u.enterLoop slot top i t.labels.length j) v) :
    (((v.exitLoop.emitOp .opJump).addKnownLabel top).defineLabel t.labels.length).openLabels
      = t.openLabels := by
  have hnone : ((v.exitLoop.emitOp .opJump).addKnownLabel top).labels[t.labels.length]?
      = some none :=
    hbody.getElem?_labels (k.getElem?_labels (State.getElem?_addLabel t))
  have hopen := State.openLabels_defineLabel hnone
  have hv : ((v.exitLoop.emitOp .opJump).addKnownLabel top).openLabels = u.openLabels :=
    hbody.openLabels
  rw [hv, ho, State.openLabels_addLabel] at hopen
  exact Nat.succ.inj hopen

lemma addLinkedLabel_lays (next : Option Nat) {s : State}
    (h : ∀ id ∈ next, s.labels[id]? = some none) :
    Lays r ∅ .empty s (s.addLinkedLabel next).2 ∧
      (s.addLinkedLabel next).2.openLabels + next.toList.length = s.openLabels + 1 ∧
      (s.addLinkedLabel next).2.labels[(s.addLinkedLabel next).1]? = some none ∧
      ((s.addLinkedLabel next).1 ∈ next ∨ s.labels.length = (s.addLinkedLabel next).1) := by
  cases next with
  | none => exact ⟨Lays.addLabel, s.openLabels_addLabel, State.getElem?_addLabel s, .inr rfl⟩
  | some id =>
    have hlt := (List.getElem?_eq_some_iff.mp (h id rfl)).1
    exact ⟨Lays.addFixup_label hlt, rfl, h id rfl, .inl rfl⟩

/-- The vector of a fork can be linked. -/
lemma finishCode_of_laid {tr : Trace} {g : GState} {t : State}
    (h : Laid r tr 0 (State.init g) t) : ∃ bc, finishCode r t = .ok bc := by
  have hc : (t.emitEndingOp .opDone).curStack = 0 := h.curStack
  have hs : (t.emitEndingOp .opDone).savedStack = none := h.savedStack
  unfold finishCode link
  rw [if_neg (by simp [hc]), if_neg (by simp [hs])]
  exact ⟨_, rfl⟩

lemma Lays.emitExceptJump (next : ExceptArms) {endLabel : Nat} {s : State}
    (h : endLabel < s.labels.length) : Lays r ∅ .empty s (s.emitExceptJump next endLabel) := by
  cases next with
  | nil => exact Lays.refl _ s
  | cons => exact (Lays.emitOp .opJump).trans (Lays.addFixup_label h)

lemma State.curStack_emitExceptJump (next : ExceptArms) (endLabel : Nat) (s : State) :
    (s.emitExceptJump next endLabel).curStack = s.curStack := by
  cases next <;> rfl

lemma State.openLabels_emitExceptJump (next : ExceptArms) (endLabel : Nat) (s : State) :
    (s.emitExceptJump next endLabel).openLabels = s.openLabels := by
  cases next <;> rfl

/-- The first state of a handler. -/
def State.startHandler (label : Nat) (slot : Option Nat) (s : State) : State :=
  ((((s.defineLabel label).pushStack 1).emitExceptPut slot).emitOp .opPop).popStack 1

lemma laid_handler {s : State} {label d : Nat} (slot : Option Nat)
    (hlabel : s.labels[label]? = some none) (hc : s.curStack = d) :
    Lays r ∅ (.push (d + 1) ++ (slot.map slotTrace).getD .empty) (s.defineLabel label)
        (s.startHandler label slot) ∧
      (s.startHandler label slot).curStack = s.curStack ∧
      (s.startHandler label slot).openLabels + 1 = s.openLabels := by
  refine ⟨?_, State.curStack_exceptStart s label slot, ?_⟩
  · have hpush : Lays r ∅ (.push (d + 1)) (s.defineLabel label)
        ((s.defineLabel label).pushStack 1) := Lays.pushStack_of (congrArg (· + 1) hc)
    exact (hpush.trans ((Lays.emitExceptPut slot).trans
      ((Lays.emitOp .opPop).trans (Lays.popStack 1)))).cast (by simp)
  · rw [← State.openLabels_defineLabel hlabel]
    cases slot with
    | none => rfl
    | some n => exact congrArg (· + 1) (((s.defineLabel label).pushStack 1).openLabels_emitPut n)

/-- A handler and the jump behind it. -/
lemma lays_nextHandler {a b : Trace} {s u v : State} {label endLabel : Nat} (next : ExceptArms)
    (hend : endLabel < s.labels.length) (h : Lays r ∅ a (s.defineLabel label) u)
    (f : Laid r b 0 u v) :
    Lays r ∅ (a ++ b) (s.defineLabel label) (v.emitExceptJump next endLabel) ∧
      (v.emitExceptJump next endLabel).curStack = u.curStack ∧
      (v.emitExceptJump next endLabel).openLabels = u.openLabels ∧
      endLabel < (v.emitExceptJump next endLabel).labels.length := by
  have hle : s.labels.length ≤ v.labels.length := by
    have hle := (h.trans f.toLays).labelCount
    rw [State.defineLabel_labels, List.length_set] at hle
    exact hle
  have hlt := Nat.lt_of_lt_of_le hend hle
  have hjump := Lays.emitExceptJump (r := r) next hlt
  refine ⟨(h.trans (f.trans hjump)).cast (by simp), ?_, ?_,
    Nat.lt_of_lt_of_le hlt hjump.labelCount⟩
  · rw [State.curStack_emitExceptJump, f.curStack]
    rfl
  · rw [State.openLabels_emitExceptJump, f.openLabels]

lemma generateBreak_laid (exit : Option Nat) {L : List LoopLevel}
    (hb : checkLoopName (L.map LoopLevel.slot) exit = true) {d : Nat} (s : State)
    (hl : s.loops.map Loop.level = L) :
    ∃ t, generateStmt r (.brk exit) s = .ok t ∧ Laid r ((Stmt.brk exit).trace L d) 0 s t := by
  subst hl
  rw [List.map_map] at hb
  obtain ⟨loop, -, hfind⟩ := findLoop_of_checkLoopName hb
  have hmem := mem_of_findLoop hfind
  refine ⟨((generateExit exit s).addStackRef loop.bottomStack).addFixup (.label loop.bottomLabel),
    ?_, ?_, ?_, ?_⟩
  · simp only [generateStmt, hfind]
  · have htr : (Stmt.brk exit).trace (s.loops.map Loop.level) d
        = optionTrace exit ++ .op (.stack loop.bottomStack) ++ .empty := by
      simp [Stmt.trace, exitTrace, findLevel_map, hfind, Loop.level]
    rw [htr]
    have hloops : (generateExit exit s).loops = s.loops := by cases exit <;> rfl
    refine (Lays.trans (Lays.generateExit exit) (Lays.addStackRef fun ht =>
      (ht.loops loop (hloops ▸ hmem)).bottomStack)).trans_of (Traces.emitCell _ _ rfl)
      fun hs ht => ?_
    · have hloop : loop ∈ ((generateExit exit s).addStackRef loop.bottomStack).loops :=
        hloops ▸ hmem
      exact ht.emitCell rfl (ht.loops loop hloop).bottomLabel (by rintro ⟨⟩)
  · cases exit <;> rfl
  · cases exit <;> rfl

lemma generateContinue_laid (exit : Option Nat) {L : List LoopLevel}
    (hb : checkLoopName (L.map LoopLevel.slot) exit = true) {d : Nat} (s : State)
    (hl : s.loops.map Loop.level = L) :
    ∃ t, generateStmt r (.cont exit) s = .ok t ∧ Laid r ((Stmt.cont exit).trace L d) 0 s t := by
  subst hl
  rw [List.map_map] at hb
  obtain ⟨loop, -, hfind⟩ := findLoop_of_checkLoopName hb
  have hmem := mem_of_findLoop hfind
  refine ⟨((generateExit exit s).addStackRef loop.topStack).addKnownLabel loop.topLabel,
    ?_, ?_, ?_, ?_⟩
  · simp only [generateStmt, hfind]
  · have htr : (Stmt.cont exit).trace (s.loops.map Loop.level) d
        = optionTrace exit ++ .op (.stack loop.topStack) := by
      simp [Stmt.trace, exitTrace, findLevel_map, hfind, Loop.level]
    rw [htr]
    have hloops : (generateExit exit s).loops = s.loops := by cases exit <;> rfl
    have hcells : s.cells <+: ((generateExit exit s).addStackRef loop.topStack).cells :=
      (Lays.generateExit (r := r) (P := ∅) exit).cells.trans (List.prefix_append _ _)
    refine (Lays.trans (Lays.generateExit exit) (Lays.addStackRef fun ht =>
      (ht.loops loop (hloops ▸ hmem)).topStack)).addKnownLabel fun hs => ?_
    exact (hs.loops loop hmem).topLabel.mono hcells
  · cases exit <;> rfl
  · cases exit <;> rfl

/-- The start of a `for`, with the list or the bounds on the stack. -/
def State.enterFor (o : Opcode) (slot : Nat) (s : State) : State :=
  ((s.emitOp o).addVarRef slot).addLabel.enterLoop (some slot) s.captureLabel s.curStack
    s.labels.length (s.curStack - 2)

/-- The end of a `for` that began in `s`. -/
def State.leaveFor (s v : State) : State :=
  (((v.exitLoop.emitOp .opJump).addKnownLabel s.captureLabel).defineLabel
    s.labels.length).popStack 2

lemma State.IsAt.enterFor {o : Opcode} {slot d : Nat} {s : State} {L : List LoopLevel}
    (h : s.IsAt L (d + 2)) : (s.enterFor o slot).IsAt (⟨some slot, d + 2, d⟩ :: L) (d + 2) where
  savedStack := by simp [State.enterFor, State.addLabel, State.addFixup, State.emitOp, h.savedStack]
  curStack := by simp [State.enterFor, State.addLabel, State.addFixup, State.emitOp, h.curStack]
  loops := by
    have hlevel : Loop.level
        ⟨some slot, s.captureLabel, s.curStack, s.labels.length, s.curStack - 2⟩
        = ⟨some slot, d + 2, d⟩ := by
      rw [h.curStack]
      rfl
    exact congrArg₂ _ hlevel h.loops

lemma laid_for {a b : Trace} {o : Opcode} {slot d : Nat} {s t v : State} (h : Lays r ∅ a s t)
    (hc : s.curStack = d) (hct : t.curStack = d + 2) (ho : t.openLabels = s.openLabels)
    (f : Laid r b 0 (t.enterFor o slot) v) :
    Laid r (a ++ .op (.var slot) ++ b) 0 s (t.leaveFor v) := by
  have hvar : Lays r ∅ (a ++ .op (.var slot)) s ((t.emitOp o).addVarRef slot) :=
    (h.trans ((Lays.emitOp o).trans (Lays.addVarRef slot))).cast (by simp)
  have hle (hs : s.IsConsistent) : t.curStack ≤ t.maxStack := (h.consistent hs).stack
  have hbody : Lays r ∅ b (((t.emitOp o).addVarRef slot).addLabel.enterLoop (some slot)
      t.captureLabel t.curStack ((t.emitOp o).addVarRef slot).labels.length (t.curStack - 2)) v :=
    f.toLays
  have hcells : t.cells <+: ((t.emitOp o).addVarRef slot).cells :=
    ((Lays.emitOp (r := r) (P := ∅) o).trans (Lays.addVarRef slot)).cells
  have hloop : Lays r ∅ (a ++ .op (.var slot) ++ b) s
      (((v.exitLoop.emitOp .opJump).addKnownLabel t.captureLabel).defineLabel
        ((t.emitOp o).addVarRef slot).labels.length) :=
    lays_loop hvar (Lays.refl ∅ _) hbody
      (fun hs => (h.consistent hs).isCaptured_captureLabel.mono hcells) hle
      (fun hs => Nat.le_trans (Nat.sub_le _ _) (hle hs)) (by rw [Trace.empty_append])
  refine ⟨(hloop.trans (Lays.popStack 2)).cast (Trace.append_empty _), ?_, ?_⟩
  · have hcv : v.curStack = t.curStack := f.curStack
    change v.curStack - 2 = _
    omega
  · have hopen := openLabels_loop (t := (t.emitOp o).addVarRef slot) (Lays.refl ∅ _) rfl f
    exact hopen.trans ho

lemma State.curStack_emitWhile (slot : Option Nat) (s : State) :
    (s.emitWhile slot).curStack = s.curStack := by
  cases slot <;> rfl

lemma State.openLabels_emitWhile (slot : Option Nat) (s : State) :
    (s.emitWhile slot).openLabels = s.openLabels := by
  cases slot <;> rfl

/-- The start of the body of a `while`. -/
def State.enterWhile (slot : Option Nat) (top : LabelValue) (s : State) : State :=
  (s.addLabel.popStack 1).enterLoop slot top (s.curStack - 1) s.labels.length (s.curStack - 1)

lemma State.IsAt.enterWhile {slot : Option Nat} {top : LabelValue} {d : Nat} {s : State}
    {L : List LoopLevel} (h : s.IsAt L (d + 1)) :
    (s.enterWhile slot top).IsAt (⟨slot, d, d⟩ :: L) d where
  savedStack := by simp [State.enterWhile, State.addLabel, State.addFixup, h.savedStack]
  curStack := by simp [State.enterWhile, State.addLabel, State.addFixup, h.curStack]
  loops := by
    have hlevel : Loop.level ⟨slot, top, s.curStack - 1, s.labels.length, s.curStack - 1⟩
        = ⟨slot, d, d⟩ := by
      rw [h.curStack]
      rfl
    exact congrArg₂ _ hlevel h.loops

lemma laid_while {a b : Trace} {slot : Option Nat} {s s₁ v : State}
    (f₁ : Laid r a 1 s s₁)
    (f : Laid r b 0 ((s₁.emitWhile slot).enterWhile slot s.captureLabel) v) :
    Laid r (a ++ optionTrace slot ++ b) 0 s
      (((v.exitLoop.emitOp .opJump).addKnownLabel s.captureLabel).defineLabel
        (s₁.emitWhile slot).labels.length) := by
  have h₂ : Lays r ∅ (a ++ optionTrace slot) s (s₁.emitWhile slot) :=
    f₁.trans (Lays.emitWhile slot)
  have hle (hs : s.IsConsistent) : (s₁.emitWhile slot).curStack - 1
      ≤ ((s₁.emitWhile slot).addLabel.popStack 1).maxStack :=
    Nat.le_trans (Nat.sub_le _ _) (h₂.consistent hs).stack
  refine ⟨lays_loop h₂ (Lays.popStack 1) f.toLays
    (fun hs => hs.isCaptured_captureLabel.mono h₂.cells) hle hle (by rw [Trace.empty_append]), ?_,
    ?_⟩
  · have hcv : v.curStack = (s₁.emitWhile slot).curStack - 1 := f.curStack
    change v.curStack = _
    rw [hcv, State.curStack_emitWhile, f₁.curStack]
    rfl
  · have hopen := openLabels_loop (t := s₁.emitWhile slot) (Lays.popStack 1) rfl f
    rw [hopen, State.openLabels_emitWhile, f₁.openLabels]

lemma laid_fork {a inner : Trace} {slot : Option Nat} {body : StmtList} {s s₁ F : State}
    {bc : Bytecodes} (hb : body.isBuilt [] = true) (f₁ : Laid r a 1 s s₁)
    (hF : generateStmts r body (State.init (s₁.emitForkOp slot).gstate) = .ok F)
    (hbc : finishCode r F = .ok bc)
    (f : Laid r inner 0 (State.init (s₁.emitForkOp slot).gstate) F) :
    Laid r (a ++ ⟨[], 0, inner.refs, inner.bodies ++ [⟨body, inner.refs⟩]⟩ ++ optionTrace slot) 0 s
      ((({ s₁.emitForkOp slot with gstate := F.gstate }.addFork bc).addForkId slot).popStack 1) := by
  have hop : Lays r ∅ .empty s₁ (s₁.emitForkOp slot) := by
    cases slot <;> exact Lays.emitOp _
  have hfork : Lays r ∅ (a ++ ⟨[], 0, inner.refs, inner.bodies ++ [⟨body, inner.refs⟩]⟩) s
      ({ s₁.emitForkOp slot with gstate := F.gstate }.addFork bc) :=
    (f₁.trans (hop.trans (Lays.addFork hb hF hbc f.toLays))).cast (by rw [Trace.empty_append])
  refine ⟨(hfork.trans ((Lays.addForkId slot).trans (Lays.popStack 1))).cast (by simp), ?_, ?_⟩
  · have hc : ((({ s₁.emitForkOp slot with gstate := F.gstate }.addFork bc).addForkId slot).popStack
        1).curStack = s₁.curStack - 1 := by
      cases slot <;> rfl
    rw [hc, f₁.curStack]
    rfl
  · rw [← f₁.openLabels]
    cases slot <;> rfl

/-- The start of the body of a try-finally. -/
def State.startFinally (s : State) : State :=
  ((s.emitExtended .eopTryFinally).addLabel.pushStack 1).incrTryDepth

lemma State.curStack_startFinally (s : State) : s.startFinally.curStack = s.curStack + 1 := by
  simp [State.startFinally, State.addLabel, State.addFixup, State.emitExtended, State.emitOp]

lemma State.IsAt.startFinally {d : Nat} {s : State} {L : List LoopLevel} (h : s.IsAt L d) :
    s.startFinally.IsAt L (d + 1) := by
  constructor <;>
    simp [State.startFinally, State.addLabel, State.addFixup, State.emitExtended, State.emitOp,
      h.savedStack, h.curStack, h.loops]

/-- The handler of a try-finally begins where the label pushed for it is placed. -/
def State.enterFinally (label : Nat) (s : State) : State :=
  (((s.decrTryDepth.emitExtended .eopEndFinally).popStack 1).defineLabel label).pushStack 2

lemma lays_finally {a : Trace} {d : Nat} {s s₂ : State} (hc : s.curStack = d)
    (f : Laid r a 0 s.startFinally s₂) :
    Lays r ∅ (.push (d + 1) ++ a ++ .push (d + 2)) s (s₂.enterFinally s.labels.length) ∧
      (s₂.enterFinally s.labels.length).curStack = d + 2 ∧
      (s₂.enterFinally s.labels.length).openLabels = s.openLabels := by
  have hc₂ : s₂.curStack = d + 1 := by rw [f.curStack, State.curStack_startFinally, hc]
  have hpop : s₂.curStack - 1 = d := by rw [hc₂, Nat.add_sub_cancel]
  have hnone : s₂.labels[s.labels.length]? = some none :=
    f.getElem?_labels (State.getElem?_addLabel (s.emitExtended .eopTryFinally))
  have hpush : Lays r ∅ (.push (d + 1)) s ((s.emitExtended .eopTryFinally).addLabel.pushStack 1) :=
    ((Lays.emitExtended _).trans (Lays.addLabel.trans (Lays.pushStack_of (n := 1)
      (congrArg (· + 1) hc)))).cast (by simp)
  refine ⟨?_, ?_, ?_⟩
  · have hend : Lays r ∅ (.push (d + 1) ++ a) s
        ((s₂.decrTryDepth.emitExtended .eopEndFinally).popStack 1) :=
      (hpush.trans (Lays.incrTryDepth.trans (f.trans (Lays.decrTryDepth.trans
        ((Lays.emitExtended _).trans (Lays.popStack 1)))))).cast (by simp)
    exact (hend.defineLabel (Nat.le_refl _)).trans (Lays.pushStack_of (congrArg (· + 2) hpop))
  · rw [State.enterFinally, State.pushStack_curStack, State.defineLabel_curStack]
    exact congrArg (· + 2) hpop
  · have hopen := State.openLabels_defineLabel (s := (s₂.decrTryDepth.emitExtended
      .eopEndFinally).popStack 1) hnone
    have ho : ((s₂.decrTryDepth.emitExtended .eopEndFinally).popStack 1).openLabels
        = (s.emitExtended .eopTryFinally).addLabel.openLabels := f.openLabels
    rw [ho, State.openLabels_addLabel] at hopen
    exact Nat.succ.inj hopen

/-- The start of the body of a try-except with `n` arms. -/
def State.enterExcept (n : Nat) (s : State) : State :=
  (((s.emitExtended .eopTryExcept).emitByte n).pushStack 1).incrTryDepth

lemma State.IsAt.enterExcept {n d : Nat} {s : State} {L : List LoopLevel} (h : s.IsAt L d) :
    (s.enterExcept n).IsAt L (d + 1) := by
  constructor <;>
    simp [State.enterExcept, State.emitByte, State.emitExtended, State.emitOp, h.savedStack,
      h.curStack, h.loops]

/-- The end of that body. -/
def State.leaveExcept (n : Nat) (s : State) : State :=
  (s.decrTryDepth.emitExtended .eopEndExcept).addLabel.popStack (2 * n + 1)

lemma lays_except {a b : Trace} {n d : Nat} {s s₁ s₃ : State} (h₁ : Lays r ∅ a s s₁)
    (hc₁ : s₁.curStack = d + 2 * n) (f : Laid r b 0 (s₁.enterExcept n) s₃) :
    Lays r ∅ (a ++ .op (.byte n) ++ .push (d + 2 * n + 1) ++ b) s (s₃.leaveExcept n) ∧
      (s₃.leaveExcept n).curStack = d ∧ (s₃.leaveExcept n).openLabels = s₁.openLabels + 1 ∧
      (s₃.leaveExcept n).labels[s₃.labels.length]? = some none := by
  have hpush : Lays r ∅ (.op (.byte n) ++ .push (d + 2 * n + 1)) s₁
      (((s₁.emitExtended .eopTryExcept).emitByte n).pushStack 1) :=
    ((Lays.emitExtended _).trans ((Lays.emitByte n).trans (Lays.pushStack_of (n := 1)
      (congrArg (· + 1) hc₁)))).cast (by simp)
  have hc₃ : s₃.curStack = s₁.curStack + 1 := f.curStack
  have hlabels : (s₃.decrTryDepth.emitExtended .eopEndExcept).labels = s₃.labels := rfl
  refine ⟨?_, ?_, ?_, ?_⟩
  · exact (h₁.trans (hpush.trans (Lays.incrTryDepth.trans (f.trans (Lays.decrTryDepth.trans
      ((Lays.emitExtended _).trans (Lays.addLabel.trans (Lays.popStack _)))))))).cast (by simp)
  · change s₃.curStack - (2 * n + 1) = d
    omega
  · have hopen := (s₃.decrTryDepth.emitExtended .eopEndExcept).openLabels_addLabel
    have ho : (s₃.decrTryDepth.emitExtended .eopEndExcept).openLabels = s₁.openLabels :=
      f.openLabels
    rw [ho] at hopen
    exact hopen
  · rw [State.leaveExcept, State.popStack_labels, ← hlabels]
    exact State.getElem?_addLabel _

/-- One arm of an `if`, up to the code behind it. -/
lemma lays_arm {a b : Trace} {ifOp : Opcode} {endLabel : Option Nat} {s s₁ s₃ : State}
    (hend : ∀ id ∈ endLabel, s.labels[id]? = some none) (f₁ : Laid r a 1 s s₁)
    (f₃ : Laid r b 0 ((s₁.emitOp ifOp).addLabel.popStack 1) s₃) :
    ∃ id s₄, (s₃.emitOp .opJump).addLinkedLabel endLabel = (id, s₄) ∧
      Lays r ∅ (a ++ b) s (s₄.defineLabel s₁.labels.length) ∧
      (s₄.defineLabel s₁.labels.length).curStack = s.curStack ∧
      (s₄.defineLabel s₁.labels.length).openLabels + endLabel.toList.length = s.openLabels + 1 ∧
      (s₄.defineLabel s₁.labels.length).labels[id]? = some none ∧
      (id ∈ endLabel ∨ s.labels.length ≤ id) := by
  have helse : s₃.labels[s₁.labels.length]? = some none :=
    f₃.getElem?_labels (State.getElem?_addLabel (s₁.emitOp ifOp))
  have hlt : s₁.labels.length < s₃.labels.length := (List.getElem?_eq_some_iff.mp helse).1
  have hle := f₁.labelCount
  have h₃ : Lays r ∅ (a ++ b) s (s₃.emitOp .opJump) :=
    (f₁.trans ((Lays.emitOp _).trans (Lays.addLabel.trans ((Lays.popStack 1).trans
      (f₃.trans (Lays.emitOp _)))))).cast (by simp)
  obtain ⟨h₄, ho₄, hnone, hmem⟩ := addLinkedLabel_lays (r := r) endLabel (s := s₃.emitOp .opJump)
    fun id hid => h₃.getElem?_labels (hend id hid)
  have hc₄ : ((s₃.emitOp .opJump).addLinkedLabel endLabel).2.curStack = s₃.curStack := by
    cases endLabel <;> rfl
  generalize (s₃.emitOp .opJump).addLinkedLabel endLabel = p at h₄ ho₄ hnone hmem hc₄ ⊢
  obtain ⟨id, s₄⟩ := p
  have hmem : id ∈ endLabel ∨ s₃.labels.length = id := hmem
  have hne : s₁.labels.length ≠ id := by
    rcases hmem with hmem | hmem
    · have := (List.getElem?_eq_some_iff.mp (hend id hmem)).1
      omega
    · omega
  refine ⟨id, s₄, rfl, ?_, ?_, ?_, ?_, hmem.imp_right fun h => by omega⟩
  · exact ((h₃.trans h₄).cast (Trace.append_empty _)).defineLabel hle
  · have hc₃ : s₃.curStack = s₁.curStack - 1 := f₃.curStack
    rw [State.defineLabel_curStack, hc₄, hc₃, f₁.curStack]
    rfl
  · have hopen : (s₄.defineLabel s₁.labels.length).openLabels + 1 = s₄.openLabels :=
      State.openLabels_defineLabel (h₄.getElem?_labels helse)
    have ho₃ : (s₃.emitOp .opJump).openLabels = (s₁.emitOp ifOp).addLabel.openLabels :=
      f₃.openLabels
    have ho₁ : (s₁.emitOp ifOp).openLabels = s.openLabels := f₁.openLabels
    rw [ho₃, State.openLabels_addLabel, ho₁] at ho₄
    have ho₄ : s₄.openLabels + endLabel.toList.length = s.openLabels + 1 + 1 := ho₄
    omega
  · rw [State.getElem?_defineLabel_ne hne]
    exact hnone

/-- A label that has been waiting for `t` is placed. -/
lemma Lays.place {a : Trace} {id : Nat} {s t : State} (h : Lays r ∅ a s t)
    (hid : s.labels.length ≤ id) (hnone : t.labels[id]? = some none) :
    Lays r ∅ a s (t.defineLabel id) ∧ (t.defineLabel id).openLabels + 1 = t.openLabels :=
  ⟨h.defineLabel hid, State.openLabels_defineLabel hnone⟩

/-! ### The statements, given the code of their parts -/

section

variable {d : Nat} {L : List LoopLevel} {s s₁ s₂ s₃ : State}

lemma generateExprStmt_laid {e : Expr} (h₁ : generateExpr r e s = .ok s₁)
    (f₁ : Laid r (e.trace none d) 1 s s₁) :
    ∃ t, generateStmt r (.expr e) s = .ok t ∧ Laid r ((Stmt.expr e).trace L d) 0 s t := by
  refine ⟨(s₁.emitOp .opPop).popStack 1, ?_, ?_, ?_, f₁.openLabels⟩
  · simp only [generateStmt, Except.bind_eq_ok]
    exact ⟨s₁, h₁, rfl⟩
  · exact (f₁.trans ((Lays.emitOp .opPop).trans (Lays.popStack 1))).cast (by simp [Stmt.trace])
  · change s₁.curStack - 1 = _
    rw [f₁.curStack]
    rfl

lemma generateReturn_laid {e : Expr} (h₁ : generateExpr r e s = .ok s₁)
    (f₁ : Laid r (e.trace none d) 1 s s₁) :
    ∃ t, generateStmt r (.ret (some e)) s = .ok t ∧
      Laid r ((Stmt.ret (some e)).trace L d) 0 s t := by
  refine ⟨(s₁.emitEndingOp .opReturn).popStack 1, ?_, ?_, ?_, f₁.openLabels⟩
  · simp only [generateStmt, Except.bind_eq_ok]
    exact ⟨s₁, h₁, rfl⟩
  · exact (f₁.trans ((Lays.emitEndingOp .opReturn).trans (Lays.popStack 1))).cast (by
      simp [Stmt.trace])
  · change s₁.curStack - 1 = _
    rw [f₁.curStack]
    rfl

/-- The loop over a list begins with the list and the index on the stack. -/
def State.startList (s : State) : State := (s.emitOp (.optimNum 1)).pushStack 1

lemma State.IsAt.startList (h : s.IsAt L d) : s.startList.IsAt L (d + 1) := by
  constructor <;> simp [State.startList, State.emitOp, h.savedStack, h.curStack, h.loops]

lemma generateList_laid {slot : Nat} {e : Expr} {body : StmtList}
    (h₁ : generateExpr r e s = .ok s₁) (f₁ : Laid r (e.trace none d) 1 s s₁) (hc : s.curStack = d)
    (h₃ : generateStmts r body (s₁.startList.enterFor .opForList slot) = .ok s₃)
    (f₃ : Laid r (body.trace (⟨some slot, d + 2, d⟩ :: L) (d + 2)) 0
      (s₁.startList.enterFor .opForList slot) s₃) :
    ∃ t, generateStmt r (.list slot e body) s = .ok t ∧
      Laid r ((Stmt.list slot e body).trace L d) 0 s t := by
  have hc₂ : s₁.startList.curStack = d + 2 :=
    congrArg (· + 1) (f₁.curStack.trans (congrArg (· + 1) hc))
  have k₂ : Lays r ∅ (e.trace none d ++ .push (d + 2)) s s₁.startList :=
    (f₁.trans ((Lays.emitOp _).trans (Lays.pushStack_of (n := 1) hc₂))).cast (by simp)
  have ho₂ : s₁.startList.openLabels = s.openLabels := f₁.openLabels
  refine ⟨s₁.startList.leaveFor s₃, ?_, laid_for k₂ hc hc₂ ho₂ f₃⟩
  simp only [generateStmt, Except.bind_eq_ok]
  exact ⟨s₁, h₁, s₃, h₃, rfl⟩

lemma generateRange_laid {slot : Nat} {lo hi : Expr} {body : StmtList}
    (h₁ : generateExpr r lo s = .ok s₁) (f₁ : Laid r (lo.trace none d) 1 s s₁)
    (h₂ : generateExpr r hi s₁ = .ok s₂) (f₂ : Laid r (hi.trace none (d + 1)) 1 s₁ s₂)
    (hc : s.curStack = d) (h₃ : generateStmts r body (s₂.enterFor .opForRange slot) = .ok s₃)
    (f₃ : Laid r (body.trace (⟨some slot, d + 2, d⟩ :: L) (d + 2)) 0
      (s₂.enterFor .opForRange slot) s₃) :
    ∃ t, generateStmt r (.range slot lo hi body) s = .ok t ∧
      Laid r ((Stmt.range slot lo hi body).trace L d) 0 s t := by
  have hc₂ : s₂.curStack = d + 2 := by rw [f₂.curStack, f₁.curStack, hc]
  refine ⟨s₂.leaveFor s₃, ?_, laid_for (f₁.trans f₂.toLays) hc hc₂
    (f₂.openLabels.trans f₁.openLabels) f₃⟩
  simp only [generateStmt, Except.bind_eq_ok]
  exact ⟨s₁, h₁, s₂, h₂, s₃, h₃, rfl⟩

lemma generateWhile_laid {slot : Option Nat} {c : Expr} {body : StmtList}
    (h₁ : generateExpr r c s = .ok s₁) (f₁ : Laid r (c.trace none d) 1 s s₁)
    (h₃ : generateStmts r body ((s₁.emitWhile slot).enterWhile slot s.captureLabel) = .ok s₃)
    (f₃ : Laid r (body.trace (⟨slot, d, d⟩ :: L) d) 0
      ((s₁.emitWhile slot).enterWhile slot s.captureLabel) s₃) :
    ∃ t, generateStmt r (.loop slot c body) s = .ok t ∧
      Laid r ((Stmt.loop slot c body).trace L d) 0 s t := by
  refine ⟨_, ?_, laid_while f₁ f₃⟩
  simp only [generateStmt, Except.bind_eq_ok]
  exact ⟨s₁, h₁, s₃, h₃, rfl⟩

lemma generateFork_laid {slot : Option Nat} {time : Expr} {body : StmtList} {F : State}
    (hb : body.isBuilt [] = true) (h₁ : generateExpr r time s = .ok s₁) (f₁ : Laid r (time.trace none d) 1 s s₁)
    (h₃ : generateStmts r body (State.init (s₁.emitForkOp slot).gstate) = .ok F)
    (f₃ : Laid r (body.trace [] 0) 0 (State.init (s₁.emitForkOp slot).gstate) F) :
    ∃ t, generateStmt r (.fork slot time body) s = .ok t ∧
      Laid r ((Stmt.fork slot time body).trace L d) 0 s t := by
  obtain ⟨bc, hbc⟩ := finishCode_of_laid f₃
  refine ⟨_, ?_, laid_fork hb f₁ h₃ hbc f₃⟩
  simp only [generateStmt, Except.bind_eq_ok]
  exact ⟨s₁, h₁, F, h₃, bc, hbc, rfl⟩

lemma generateFinally_laid {body handler : StmtList} {s₄ : State} (hc : s.curStack = d)
    (h₂ : generateStmts r body s.startFinally = .ok s₂)
    (f₂ : Laid r (body.trace L (d + 1)) 0 s.startFinally s₂)
    (h₄ : generateStmts r handler (s₂.enterFinally s.labels.length) = .ok s₄)
    (f₄ : Laid r (handler.trace L (d + 2)) 0 (s₂.enterFinally s.labels.length) s₄) :
    ∃ t, generateStmt r (.tryFinally body handler) s = .ok t ∧
      Laid r ((Stmt.tryFinally body handler).trace L d) 0 s t := by
  obtain ⟨k₃, hc₃, ho₃⟩ := lays_finally hc f₂
  refine ⟨(s₄.emitExtended .eopContinue).popStack 2, ?_, ?_, ?_, f₄.openLabels.trans ho₃⟩
  · simp only [generateStmt, Except.bind_eq_ok]
    exact ⟨s₂, h₂, s₄, h₄, rfl⟩
  · exact (k₃.trans (f₄.trans ((Lays.emitExtended _).trans (Lays.popStack 2)))).cast (by
      simp [Stmt.trace])
  · change s₄.curStack - 2 = _
    rw [f₄.curStack, hc₃, hc]
    rfl

lemma generateCond_laid {arms : CondArms} {otherwise : StmtList} {out : Option Nat}
    (h₁ : generateArms r arms .opIf none s = .ok (out, s₁)) (k₁ : Lays r ∅ (arms.trace L d) s s₁)
    (hc₁ : s₁.curStack = s.curStack) (ho₁ : s₁.openLabels = s.openLabels + out.toList.length)
    (hout : ∀ id ∈ out, s₁.labels[id]? = some none ∧ s.labels.length ≤ id)
    (h₂ : generateStmts r otherwise s₁ = .ok s₂)
    (f₂ : Laid r (otherwise.trace L d) 0 s₁ s₂) :
    ∃ t, generateStmt r (.cond arms otherwise) s = .ok t ∧
      Laid r ((Stmt.cond arms otherwise).trace L d) 0 s t := by
  have hc₂ : s₂.curStack = s.curStack := f₂.curStack.trans hc₁
  have k₂ : Lays r ∅ ((Stmt.cond arms otherwise).trace L d) s s₂ := k₁.trans f₂.toLays
  simp only [generateStmt, Except.bind_eq_ok]
  cases out with
  | none => exact ⟨s₂, ⟨(none, s₁), h₁, s₂, h₂, rfl⟩, k₂, hc₂, f₂.openLabels.trans ho₁⟩
  | some id =>
    obtain ⟨hnone, hid⟩ := hout id rfl
    obtain ⟨k₃, ho₃⟩ := k₂.place hid (f₂.getElem?_labels hnone)
    refine ⟨s₂.defineLabel id, ⟨(some id, s₁), h₁, s₂, h₂, rfl⟩, k₃, hc₂, ?_⟩
    have ho₂ := f₂.openLabels
    have ho₁ : s₁.openLabels = s.openLabels + 1 := ho₁
    omega

/-- The labels of the handlers are still to be placed behind the body. -/
lemma getElem?_leaveExcept {labels : List Nat} {n : Nat} {tr : Trace}
    (f : Laid r tr 0 (s₁.enterExcept n) s₃)
    (hlabels : ∀ id ∈ labels, s₁.labels[id]? = some none) :
    (∀ id ∈ labels, (s₃.leaveExcept n).labels[id]? = some none) ∧
      s₃.labels.length ∉ labels := by
  have hlt (id : Nat) (hid : id ∈ labels) : s₃.labels[id]? = some none :=
    f.getElem?_labels (hlabels id hid)
  refine ⟨fun id hid => ?_, fun hid =>
    Nat.lt_irrefl _ (List.getElem?_eq_some_iff.mp (hlt _ hid)).1⟩
  exact (Lays.addLabel (r := r) (s := s₃.decrTryDepth.emitExtended .eopEndExcept)).getElem?_labels
    (hlt id hid)

lemma generateExcept_laid {body : StmtList} {excepts : ExceptArms} {labels : List Nat} {s₅ : State}
    (hc : s.curStack = d) (h₁ : generateHandlers r excepts s = .ok (labels, s₁))
    (k₁ : Lays r ∅ (excepts.codesTrace d) s s₁) (hc₁ : s₁.curStack = d + 2 * excepts.length)
    (ho₁ : s₁.openLabels = s.openLabels + excepts.length)
    (hlabels : ∀ id ∈ labels, s.labels.length ≤ id ∧ s₁.labels[id]? = some none)
    (h₃ : generateStmts r body (s₁.enterExcept excepts.length) = .ok s₃)
    (f₃ : Laid r (body.trace L (d + 2 * excepts.length + 1)) 0 (s₁.enterExcept excepts.length) s₃)
    (h₅ : generateExcepts r excepts labels s₃.labels.length (s₃.leaveExcept excepts.length)
      = .ok s₅)
    (k₅ : Lays r {id | id ∈ labels} (excepts.trace L d) (s₃.leaveExcept excepts.length) s₅)
    (hc₅ : s₅.curStack = (s₃.leaveExcept excepts.length).curStack)
    (ho₅ : s₅.openLabels + excepts.length = (s₃.leaveExcept excepts.length).openLabels) :
    ∃ t, generateStmt r (.tryExcept body excepts) s = .ok t ∧
      Laid r ((Stmt.tryExcept body excepts).trace L d) 0 s t := by
  obtain ⟨k₄, hc₄, ho₄, hend⟩ := lays_except k₁ hc₁ f₃
  have hnotin := (getElem?_leaveExcept f₃ fun id hid => (hlabels id hid).2).2
  have hle : s.labels.length ≤ s₃.labels.length := Nat.le_trans k₁.labelCount f₃.labelCount
  have k₆ : Lays r ∅ ((Stmt.tryExcept body excepts).trace L d) s s₅ :=
    ((k₄.mono (Set.empty_subset _)).trans k₅).close fun id hid => (hlabels id hid).1
  obtain ⟨k₇, ho₇⟩ := k₆.place hle (k₅.labels _ _ hnotin hend)
  refine ⟨s₅.defineLabel s₃.labels.length, ?_, k₇, ?_, ?_⟩
  · simp only [generateStmt, Except.bind_eq_ok]
    exact ⟨(labels, s₁), h₁, s₃, h₃, s₅, h₅, rfl⟩
  · rw [State.defineLabel_curStack, hc₅, hc₄, hc]
    rfl
  · omega

end

/-- The start of the code of an arm, behind its test. -/
lemma State.IsAt.test {ifOp : Opcode} {L : List LoopLevel} {d : Nat} {s : State}
    (h : s.IsAt L (d + 1)) : ((s.emitOp ifOp).addLabel.popStack 1).IsAt L d :=
  ⟨h.savedStack, congrArg (· - 1) h.curStack, h.loops⟩

mutual
lemma generateStmts_laid (ss : StmtList) {L : List LoopLevel}
    (hb : ss.isBuilt (L.map LoopLevel.slot) = true) {d : Nat} (s : State) (hs : s.IsAt L d) :
    ∃ t, generateStmts r ss s = .ok t ∧ Laid r (ss.trace L d) 0 s t := by
  match ss with
  | .nil => exact ⟨s, rfl, Lays.refl _ s, rfl, rfl⟩
  | .cons stmt next =>
    simp only [StmtList.isBuilt, Bool.and_eq_true] at hb
    obtain ⟨s₁, h₁, f₁⟩ := generateStmt_laid stmt hb.1 s hs
    obtain ⟨s₂, h₂, f₂⟩ := generateStmts_laid next hb.2 s₁
      (hs.of_lays f₁.toLays (f₁.curStack.trans hs.curStack))
    refine ⟨s₂, ?_, f₁.trans f₂.toLays, f₂.curStack.trans f₁.curStack,
      f₂.openLabels.trans f₁.openLabels⟩
    simp only [generateStmts, Except.bind_eq_ok]
    exact ⟨s₁, h₁, h₂⟩

lemma generateStmt_laid (stmt : Stmt) {L : List LoopLevel}
    (hb : stmt.isBuilt (L.map LoopLevel.slot) = true) {d : Nat} (s : State) (hs : s.IsAt L d) :
    ∃ t, generateStmt r stmt s = .ok t ∧ Laid r (stmt.trace L d) 0 s t := by
  have hc := hs.curStack
  match stmt with
  | .expr e =>
    simp only [Stmt.isBuilt] at hb
    obtain ⟨s₁, h₁, f₁⟩ := generateExpr_laid (r := r) e hb s hs.savedStack hc (by rintro ⟨⟩)
    exact generateExprStmt_laid h₁ f₁
  | .ret none => exact ⟨_, rfl, Lays.emitEndingOp _, rfl, rfl⟩
  | .ret (some e) =>
    simp only [Stmt.isBuilt, Option.all_some] at hb
    obtain ⟨s₁, h₁, f₁⟩ := generateExpr_laid (r := r) e hb s hs.savedStack hc (by rintro ⟨⟩)
    exact generateReturn_laid h₁ f₁
  | .brk exit =>
    simp only [Stmt.isBuilt] at hb
    exact generateBreak_laid exit hb s hs.loops
  | .cont exit =>
    simp only [Stmt.isBuilt] at hb
    exact generateContinue_laid exit hb s hs.loops
  | .list slot e body =>
    simp only [Stmt.isBuilt, Bool.and_eq_true] at hb
    obtain ⟨s₁, h₁, f₁⟩ := generateExpr_laid (r := r) e hb.1 s hs.savedStack hc (by rintro ⟨⟩)
    have hs₁ : s₁.IsAt L (d + 1) := hs.of_lays f₁.toLays (f₁.curStack.trans (congrArg (· + 1) hc))
    obtain ⟨s₃, h₃, f₃⟩ := generateStmts_laid body (L := ⟨some slot, d + 2, d⟩ :: L) hb.2
      (s₁.startList.enterFor .opForList slot) hs₁.startList.enterFor
    exact generateList_laid h₁ f₁ hc h₃ f₃
  | .range slot lo hi body =>
    simp only [Stmt.isBuilt, Bool.and_eq_true] at hb
    obtain ⟨s₁, h₁, f₁⟩ := generateExpr_laid (r := r) lo hb.1.1 s hs.savedStack hc (by rintro ⟨⟩)
    have hs₁ : s₁.IsAt L (d + 1) := hs.of_lays f₁.toLays (f₁.curStack.trans (congrArg (· + 1) hc))
    obtain ⟨s₂, h₂, f₂⟩ := generateExpr_laid (r := r) hi hb.1.2 s₁ hs₁.savedStack hs₁.curStack
      (by rintro ⟨⟩)
    have hs₂ : s₂.IsAt L (d + 2) :=
      hs₁.of_lays f₂.toLays (f₂.curStack.trans (congrArg (· + 1) hs₁.curStack))
    obtain ⟨s₃, h₃, f₃⟩ := generateStmts_laid body (L := ⟨some slot, d + 2, d⟩ :: L) hb.2
      (s₂.enterFor .opForRange slot) hs₂.enterFor
    exact generateRange_laid h₁ f₁ h₂ f₂ hc h₃ f₃
  | .loop slot c body =>
    simp only [Stmt.isBuilt, Bool.and_eq_true] at hb
    obtain ⟨s₁, h₁, f₁⟩ := generateExpr_laid (r := r) c hb.1 s hs.savedStack hc (by rintro ⟨⟩)
    have hs₂ : (s₁.emitWhile slot).IsAt L (d + 1) := by
      refine hs.of_lays (f₁.trans (Lays.emitWhile slot)) ?_
      rw [State.curStack_emitWhile, f₁.curStack, hc]
    obtain ⟨s₃, h₃, f₃⟩ := generateStmts_laid body (L := ⟨slot, d, d⟩ :: L) hb.2
      ((s₁.emitWhile slot).enterWhile slot s.captureLabel) hs₂.enterWhile
    exact generateWhile_laid h₁ f₁ h₃ f₃
  | .fork slot time body =>
    simp only [Stmt.isBuilt, Bool.and_eq_true] at hb
    obtain ⟨s₁, h₁, f₁⟩ := generateExpr_laid (r := r) time hb.1 s hs.savedStack hc (by rintro ⟨⟩)
    obtain ⟨F, h₃, f₃⟩ := generateStmts_laid body (L := []) hb.2 (d := 0)
      (State.init (s₁.emitForkOp slot).gstate) ⟨rfl, rfl, rfl⟩
    exact generateFork_laid hb.2 h₁ f₁ h₃ f₃
  | .cond arms otherwise =>
    simp only [Stmt.isBuilt, Bool.and_eq_true] at hb
    obtain ⟨out, s₁, h₁, k₁, hc₁, ho₁, hout⟩ := generateArms_lays arms .opIf hb.1.2 none s hs (by rintro _ ⟨⟩)
    obtain ⟨s₂, h₂, f₂⟩ := generateStmts_laid otherwise hb.2 s₁ (hs.of_lays k₁ (hc₁.trans hc))
    exact generateCond_laid h₁ k₁ hc₁ ho₁
      (fun id hid => ⟨(hout id hid).1, (hout id hid).2.resolve_left (by rintro ⟨⟩)⟩) h₂ f₂
  | .tryExcept body excepts =>
    simp only [Stmt.isBuilt, Bool.and_eq_true] at hb
    obtain ⟨labels, s₁, h₁, k₁, hc₁, ho₁, hlen, hnodup, hlabels⟩ :=
      generateHandlers_lays (r := r) excepts hb.2 s hs.savedStack hc
    have hc₁ : s₁.curStack = d + 2 * excepts.length := by rw [hc₁, hc]
    obtain ⟨s₃, h₃, f₃⟩ := generateStmts_laid body hb.1.2 (s₁.enterExcept excepts.length)
      (hs.of_lays k₁ hc₁).enterExcept
    obtain ⟨k₄, hc₄, -, hend⟩ := lays_except k₁ hc₁ f₃
    obtain ⟨s₅, h₅, k₅, hc₅, ho₅⟩ := generateExcepts_lays excepts hb.2 labels hlen.symm hnodup
      s₃.labels.length (s₃.leaveExcept excepts.length) (hs.of_lays k₄ hc₄)
      (getElem?_leaveExcept f₃ fun id hid => (hlabels id hid).2).1
      (List.getElem?_eq_some_iff.mp hend).1
    exact generateExcept_laid hc h₁ k₁ hc₁ ho₁ hlabels h₃ f₃ h₅ k₅ hc₅ ho₅
  | .tryFinally body handler =>
    simp only [Stmt.isBuilt, Bool.and_eq_true] at hb
    obtain ⟨s₂, h₂, f₂⟩ := generateStmts_laid body hb.1 s.startFinally hs.startFinally
    obtain ⟨k₃, hc₃, -⟩ := lays_finally hc f₂
    obtain ⟨s₄, h₄, f₄⟩ := generateStmts_laid handler hb.2 (s₂.enterFinally s.labels.length)
      (hs.of_lays k₃ hc₃)
    exact generateFinally_laid hc h₂ f₂ h₄ f₄

lemma generateArms_lays (arms : CondArms) (ifOp : Opcode) {L : List LoopLevel}
    (hb : arms.isBuilt (L.map LoopLevel.slot) = true) {d : Nat} (endLabel : Option Nat) (s : State)
    (hs : s.IsAt L d) (hend : ∀ id ∈ endLabel, s.labels[id]? = some none) :
    ∃ out t, generateArms r arms ifOp endLabel s = .ok (out, t) ∧ Lays r ∅ (arms.trace L d) s t ∧
      t.curStack = s.curStack ∧
      t.openLabels + endLabel.toList.length = s.openLabels + out.toList.length ∧
      ∀ id ∈ out, t.labels[id]? = some none ∧ (id ∈ endLabel ∨ s.labels.length ≤ id) := by
  match arms with
  | .nil =>
    exact ⟨endLabel, s, rfl, Lays.refl _ s, rfl, rfl, fun id hid => ⟨hend id hid, .inl hid⟩⟩
  | .cons c ss next =>
    simp only [CondArms.isBuilt, Bool.and_eq_true] at hb
    obtain ⟨s₁, h₁, f₁⟩ := generateExpr_laid (r := r) c hb.1.1 s hs.savedStack hs.curStack (by rintro ⟨⟩)
    have hs₁ : s₁.IsAt L (d + 1) :=
      hs.of_lays f₁.toLays (f₁.curStack.trans (congrArg (· + 1) hs.curStack))
    obtain ⟨s₃, h₃, f₃⟩ := generateStmts_laid ss hb.1.2 ((s₁.emitOp ifOp).addLabel.popStack 1)
      hs₁.test
    obtain ⟨id, s₄, h₄, k₄, hc₄, ho₄, hnone, hmem⟩ := lays_arm hend f₁ f₃
    have hstep : generateArms r (.cons c ss next) ifOp endLabel s
        = generateArms r next .opEif (some id) (s₄.defineLabel s₁.labels.length) := by
      simp only [generateArms, h₁, h₃, h₄, bind, Except.bind]
      rfl
    obtain ⟨out, t, h₆, k₆, hc₆, ho₆, hout⟩ := generateArms_lays next .opEif hb.2 (some id)
      (s₄.defineLabel s₁.labels.length) (hs.of_lays k₄ (hc₄.trans hs.curStack)) (fun id' hid' => by
        obtain rfl := Option.some.inj hid'
        exact hnone)
    refine ⟨out, t, hstep.trans h₆, k₄.trans k₆, hc₆.trans hc₄, ?_,
      fun id' hid' => ⟨(hout id' hid').1, ?_⟩⟩
    · have ho₆ : t.openLabels + 1 = (s₄.defineLabel s₁.labels.length).openLabels
          + out.toList.length := ho₆
      omega
    · rcases (hout id' hid').2 with hid' | hid'
      · obtain rfl := Option.some.inj hid'
        exact hmem
      · exact .inr (Nat.le_trans k₄.labelCount hid')

lemma generateExcepts_lays (arms : ExceptArms) {L : List LoopLevel}
    (hb : arms.isBuilt (L.map LoopLevel.slot) = true) {d : Nat} (labels : List Nat)
    (hlen : arms.length = labels.length) (hnodup : labels.Nodup) (endLabel : Nat) (s : State)
    (hs : s.IsAt L d) (hnone : ∀ id ∈ labels, s.labels[id]? = some none)
    (hend : endLabel < s.labels.length) :
    ∃ t, generateExcepts r arms labels endLabel s = .ok t ∧
      Lays r {id | id ∈ labels} (arms.trace L d) s t ∧ t.curStack = s.curStack ∧
      t.openLabels + arms.length = s.openLabels := by
  match arms, labels with
  | .nil, _ => exact ⟨s, rfl, Lays.refl _ s, rfl, rfl⟩
  | .cons slot codes ss next, label :: labels =>
    simp only [ExceptArms.isBuilt, Bool.and_eq_true] at hb
    obtain ⟨hnotin, hnodup⟩ := List.nodup_cons.mp hnodup
    obtain ⟨k₁, hc₁, ho₁⟩ :=
      laid_handler (r := r) slot (hnone label List.mem_cons_self) hs.curStack
    have hs' : (s.defineLabel label).IsAt L d := ⟨hs.savedStack, hs.curStack, hs.loops⟩
    obtain ⟨s₂, h₂, f₂⟩ := generateStmts_laid ss hb.1.2 (s.startHandler label slot)
      (hs'.of_lays k₁ (hc₁.trans hs.curStack))
    obtain ⟨k₃, hc₃, ho₃, hlt⟩ := lays_nextHandler next hend k₁ f₂
    obtain ⟨t, h₄, k₄, hc₄, ho₄⟩ := generateExcepts_lays next hb.2 labels (Nat.succ.inj hlen)
      hnodup endLabel (s₂.emitExceptJump next endLabel)
      (hs'.of_lays k₃ (hc₃.trans (hc₁.trans hs.curStack))) (fun id hid => by
        apply k₃.getElem?_labels
        rw [State.getElem?_defineLabel_ne (by rintro rfl; exact hnotin hid)]
        exact hnone id (List.mem_cons_of_mem _ hid)) hlt
    refine ⟨t, ?_, ?_, hc₄.trans (hc₃.trans hc₁), ?_⟩
    · simp only [generateExcepts, Except.bind_eq_ok]
      exact ⟨s₂, h₂, h₄⟩
    · have h₅ : Lays r {id | id ∈ label :: labels}
          (.push (d + 1) ++ (slot.map slotTrace).getD .empty ++ ss.trace L d) s
          (s₂.emitExceptJump next endLabel) := Lays.of_defineLabel List.mem_cons_self k₃
      exact h₅.trans (k₄.mono fun id hid => List.mem_cons_of_mem _ hid)
    · rw [ExceptArms.length]
      omega
end

/-! ### Programs -/

/-- What `stmt_to_code` is called for, in the order in which the vectors are finished: the
bodies of the forks, and the program itself last. -/
def StmtList.bodies (ss : StmtList) : List Body :=
  (ss.trace [] 0).bodies ++ [⟨ss, (ss.trace [] 0).refs⟩]

/-- The vectors of a program, the main one last. -/
def Program.vectors (p : Program) : List Bytecodes := p.forkVectors ++ [p.mainVector]

/-- `bc` is one of the vectors of the program for `ss`, and `F` the state behind it. -/
def Program.HasVector (p : Program) (r : Bool) (ss : StmtList) (F : State) (bc : Bytecodes) :
    Prop :=
  ∃ b, (b, bc) ∈ ss.bodies.zip p.vectors ∧ b.IsVector r F bc

lemma Body.shift_zero : (Body.shift 0) = id := by
  funext b
  simp [Body.shift]

/-- Every program that the parser can build is compiled. -/
lemma generateCode_compiled (ss : StmtList) (hb : ss.isBuilt [] = true) :
    ∃ p, generateCode r ss = .ok p ∧ List.Forall₂ (Body.Compiled r) ss.bodies p.vectors := by
  obtain ⟨F, hF, f⟩ := generateStmts_laid (r := r) ss (L := []) hb (d := 0)
    (State.init initGState) ⟨rfl, rfl, rfl⟩
  obtain ⟨bc, hbc⟩ := finishCode_of_laid f
  obtain ⟨bcs, hbcs, hall⟩ := f.forks
  have hrefs : F.gstate.totalVarRefs = (ss.trace [] 0).refs := f.refs.trans (Nat.zero_add _)
  refine ⟨⟨bc, F.gstate.literals, F.gstate.forkVectors⟩, ?_, ?_⟩
  · simp only [generateCode, stmtToCode, hF, hbc, bind, Except.bind, pure, Except.pure]
  · have hzero : (State.init initGState).gstate.totalVarRefs = 0 := rfl
    rw [hzero, Body.shift_zero, List.map_id] at hall
    have hbcs : F.gstate.forkVectors = bcs := hbcs
    rw [StmtList.bodies, Program.vectors, hbcs]
    exact List.rel_append hall (.cons ⟨hb, F, ⟨_, hF⟩, hbc, hrefs⟩ .nil)

/-- A property of all vectors of a program, for a condition on the trees they come from. -/
lemma forall_vectors_iff {ss : StmtList} (hb : ss.isBuilt [] = true)
    {P : State → Bytecodes → Prop} {Q : Body → Prop}
    (h : ∀ b F bc, b.code.isBuilt [] = true → b.IsVector r F bc → (P F bc ↔ Q b)) :
    ∃ p, generateCode r ss = .ok p ∧
      ((∀ F bc, p.HasVector r ss F bc → P F bc) ↔ ∀ b ∈ ss.bodies, Q b) := by
  obtain ⟨p, hp, hall⟩ := generateCode_compiled ss hb
  have hzip {b : Body} {bc : Bytecodes} (hmem : (b, bc) ∈ ss.bodies.zip p.vectors) :
      b.Compiled r bc := (List.forall₂_iff_zip.mp hall).2 hmem
  refine ⟨p, hp, fun hP b hmem => ?_, fun hQ F bc ⟨b, hmem, hvec⟩ => ?_⟩
  · obtain ⟨i, hi, rfl⟩ := List.mem_iff_getElem.mp hmem
    have hi' : i < p.vectors.length := hall.length_eq ▸ hi
    have hmem : (ss.bodies[i], p.vectors[i]) ∈ ss.bodies.zip p.vectors := by
      rw [List.mem_iff_getElem]
      exact ⟨i, by simp [hi, hi'], by simp⟩
    obtain ⟨hbody, F, hvec⟩ := hzip hmem
    exact (h _ F _ hbody hvec).mp (hP F _ ⟨_, hmem, hvec⟩)
  · exact (h b F bc (hzip hmem).1 hvec).mpr (hQ b (List.of_mem_zip hmem).1)

end LambdaMOO
