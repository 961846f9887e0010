import LambdaMOO.Decompile.Assign

/-!
# Decompiling scattering assignments

The operands of `EOP_SCATTER` name the targets and where their defaults begin; the
decompiler reads them all and then runs over the defaults. The last section puts the cases
of all expressions together.
-/

namespace LambdaMOO

/-! ### The position of the rest target -/

/-- The number `rest` is the number of the rest target and of no other one. -/
def RestAt (rest : Nat) : Nat → Scatter → Prop
  | _, .nil => True
  | i, .required _ next | i, .optional _ _ next => i ≠ rest ∧ RestAt rest (i + 1) next
  | i, .rest _ next => i = rest ∧ RestAt rest (i + 1) next

lemma Scatter.restPosition_eq_none (sc : Scatter) (n : Nat) (h : sc.numRest = 0) :
    sc.restPosition n = none := by
  match sc with
  | .nil => rfl
  | .required _ next | .optional _ _ next => exact next.restPosition_eq_none (n + 1) h
  | .rest _ _ => simp [numRest] at h

lemma Scatter.lt_restPosition (sc : Scatter) (n : Nat) : ∀ k ∈ sc.restPosition n, n < k := by
  match sc with
  | .nil =>
    intro k hk
    simp [restPosition] at hk
  | .required _ next | .optional _ _ next =>
    intro k hk
    exact Nat.lt_of_succ_lt (next.lt_restPosition (n + 1) k hk)
  | .rest _ next =>
    intro k hk
    simp only [restPosition, Option.mem_def] at hk
    cases hnext : next.restPosition (n + 1) with
    | none =>
      rw [hnext, Option.none_or, Option.some.injEq] at hk
      omega
    | some j =>
      have := next.lt_restPosition (n + 1) j hnext
      rw [hnext, Option.some_or, Option.some.injEq] at hk
      omega

lemma restAt_of_lt (sc : Scatter) {rest i : Nat} (h : sc.numRest = 0) (hlt : rest < i) :
    RestAt rest i sc := by
  match sc with
  | .nil => trivial
  | .required _ next | .optional _ _ next =>
    exact ⟨by omega, restAt_of_lt next h (by omega)⟩
  | .rest _ _ => simp [Scatter.numRest] at h

lemma restAt_restPosition (sc : Scatter) (n : Nat) (h : sc.numRest ≤ 1) :
    RestAt ((sc.restPosition n).getD (n + sc.length + 1)) (n + 1) sc := by
  match sc with
  | .nil => trivial
  | .required _ next | .optional _ _ next =>
    have ih := restAt_restPosition next (n + 1) h
    simp only [RestAt, Scatter.restPosition, Scatter.length]
    rw [Nat.add_right_comm n 1] at ih
    refine ⟨?_, ih⟩
    cases hnext : next.restPosition (n + 1) with
    | none =>
      rw [Option.getD_none]
      omega
    | some k =>
      have := next.lt_restPosition (n + 1) k hnext
      rw [Option.getD_some]
      omega
  | .rest _ next =>
    simp only [Scatter.numRest] at h
    simp only [RestAt, Scatter.restPosition, next.restPosition_eq_none (n + 1) (by omega),
      Option.none_or, Option.getD_some, true_and]
    exact restAt_of_lt next (by omega) (by omega)

/-! ### The operands -/

/-- Where a label ends up. -/
def State.labelPos (w : Widths) (F : State) (id : Nat) : Nat :=
  (labelValue F.labels id).resolve w

/-- The targets as they are read back, numbered from `i` on; `label` is the label of the
next default. -/
def Scatter.targets (w : Widths) (F : State) (rest : Nat) : Nat → Nat → Scatter → List Target
  | _, _, .nil => []
  | i, label, .required slot next | i, label, .rest slot next =>
    ⟨i = rest, slot, 0⟩ :: next.targets w F rest (i + 1) label
  | i, label, .optional slot .none next =>
    ⟨i = rest, slot, 1⟩ :: next.targets w F rest (i + 1) label
  | i, label, .optional slot (.some _) next =>
    ⟨i = rest, slot, F.labelPos w label⟩ :: next.targets w F rest (i + 1) (label + 1)

variable {r : Bool} {prog : Program} {cap slack : Nat} {F : State} {bc : Bytecodes}
  {lim : Limits} {dollars : Bool}

lemma State.labelPos_of_defineLabel {s : State} {id : Nat} (hl : Linked r F bc)
    (hs : s.IsSound r) (hid : id < s.labels.length) (hg : Grows r (s.defineLabel id) F) :
    F.labelPos bc.widths id = s.pos bc.widths := by
  have hlabel : F.labels[id]? = some (some s.captureLabel) := by
    apply hg.labels
    rw [State.defineLabel_labels, List.getElem?_set_self hid]
  simp only [State.labelPos, labelValue, hlabel, Option.join_some, Option.getD_some]
  exact State.resolve_captureLabel hl.isProper hs

lemma Linked.read_addLabel {s : State} (hl : Linked r F bc) (h : Grows r s.addLabel F)
    (hle : F.labelPos bc.widths s.labels.length ≤ F.pos bc.widths) :
    readBytes bc.vector bc.numbytesLabel (s.pos bc.widths)
      = .ok (F.labelPos bc.widths s.labels.length) := by
  have hcells : (s.addFixup (.label s.labels.length)).cells <+: F.cells := h.cells
  obtain ⟨tail, hdrop⟩ := hl.drop_pos_of_ne (by decide) hcells
  exact readBytes_of_drop hl.isProper.label (hl.fits_label hle) hdrop

lemma pos_generateTargets (w : Widths) (sc : Scatter) (s : State) :
    (generateTargets sc s).pos w = s.pos w + sc.length * (w.varName + w.label) := by
  match sc with
  | .nil => simp [generateTargets, Scatter.length]
  | .required slot next | .rest slot next | .optional slot .none next
  | .optional slot (.some e) next =>
    simp only [generateTargets, pos_generateTargets w next, State.pos_addPseudoLabel,
      State.pos_addVarRef, State.pos_addLabel, Scatter.length, Nat.add_mul, Nat.one_mul]
    omega

/-- One operand pair and the pairs behind it. -/
lemma readTargets_succ {rest n i ptr slot label : Nat} {ts : List Target}
    (hslot : readBytes bc.vector bc.numbytesVarName ptr = .ok slot)
    (hlabel : readBytes bc.vector bc.numbytesLabel (ptr + bc.numbytesVarName) = .ok label)
    (hts : readTargets bc rest n (i + 1) (ptr + bc.numbytesVarName + bc.numbytesLabel) = .ok ts) :
    readTargets bc rest (n + 1) i ptr = .ok (⟨i = rest, slot, label⟩ :: ts) := by
  simp only [readTargets, hslot, hlabel, hts, bind, Except.bind, pure, Except.pure]

lemma readTargets_generateTargets (hlim : lim.IsReady) (hl : Linked r F bc) (rest : Nat)
    (sc : Scatter) (hw : sc.isWithin lim = true) (i : Nat) {s : State}
    (hg : Grows r (generateTargets sc s) F)
    (hle : ∀ j < sc.numDefaults, F.labelPos bc.widths (s.labels.length + j) ≤ F.pos bc.widths) :
    readTargets bc rest sc.length i (s.pos bc.widths)
      = .ok (sc.targets bc.widths F rest i s.labels.length) := by
  match sc with
  | .nil => rfl
  | .required slot next | .rest slot next =>
    simp only [Scatter.isWithin, Bool.and_eq_true] at hw
    have kt := (generateTargets_keeps (r := r) hlim.toIsByte hw.2
      ((s.addVarRef slot).addPseudoLabel 0)).1
    have g₂ : Grows r ((s.addVarRef slot).addPseudoLabel 0) F := kt.grows.trans hg
    have ih := readTargets_generateTargets hlim hl rest next hw.2 (i + 1) hg hle
    have hlabel := hl.read_addPseudoLabel (by decide) g₂
    simp only [State.pos_addPseudoLabel, State.pos_addVarRef] at ih hlabel
    exact readTargets_succ (hl.read_addVarRef (Grows.trans (Grows.addFixup (by trivial)) g₂)) hlabel ih
  | .optional slot .none next =>
    simp only [Scatter.isWithin, Bool.and_eq_true] at hw
    have kt := (generateTargets_keeps (r := r) hlim.toIsByte hw.2
      ((s.addVarRef slot).addPseudoLabel 1)).1
    have g₂ : Grows r ((s.addVarRef slot).addPseudoLabel 1) F := kt.grows.trans hg
    have ih := readTargets_generateTargets hlim hl rest next hw.2 (i + 1) hg hle
    have hlabel := hl.read_addPseudoLabel (by decide) g₂
    simp only [State.pos_addPseudoLabel, State.pos_addVarRef] at ih hlabel
    exact readTargets_succ (hl.read_addVarRef (Grows.trans (Grows.addFixup (by trivial)) g₂)) hlabel ih
  | .optional slot (.some e) next =>
    simp only [Scatter.isWithin, Bool.and_eq_true] at hw
    have kt := (generateTargets_keeps (r := r) hlim.toIsByte hw.2
      (s.addVarRef slot).addLabel).1
    have g₂ : Grows r (s.addVarRef slot).addLabel F := kt.grows.trans hg
    have hlen : (s.addVarRef slot).addLabel.labels.length = s.labels.length + 1 := by
      rw [State.labels_addLabel, List.length_append]
      rfl
    have ih := readTargets_generateTargets hlim hl rest next hw.2 (i + 1) hg (fun j hj => by
      rw [hlen, Nat.add_right_comm]
      exact hle (j + 1) (Nat.succ_lt_succ hj))
    have hlabel := hl.read_addLabel g₂ (hle 0 (Nat.succ_pos _))
    simp only [State.pos_addLabel, State.pos_addVarRef, hlen] at ih hlabel
    exact readTargets_succ (hl.read_addVarRef (Grows.addLabel.trans g₂)) hlabel ih

/-! ### The defaults -/

/-- Running over the defaults attaches them to their targets and leaves the expression
stack as it was. -/
def YieldsDefaults (r : Bool) (prog : Program) (cap slack : Nat) (F : State) (bc : Bytecodes)
    (dollars : Bool) (sc : Scatter) : Prop :=
  ∀ ⦃s t : State⦄ (rest i label : Nat), generateDefaults r sc label s = .ok t →
    (dollars = true → s.savedStack.isSome = true) →
    (∀ j < sc.numDefaults, s.labels[label + j]? = some none) → s.IsSound r → Grows r t F →
    RestAt rest i sc → 1 < s.pos bc.widths → ∀ ⦃es : List Expr⦄,
      es.length ≤ slack + s.curStack →
        (∀ j < sc.numDefaults, F.labelPos bc.widths (label + j) ≤ t.pos bc.widths) ∧
        nextLabel (t.pos bc.widths) (sc.targets bc.widths F rest i label) = s.pos bc.widths ∧
        ∃ n, ∀ fuel ≥ n, readDefaults r (decompile r prog cap fuel) bc (t.pos bc.widths)
          (sc.targets bc.widths F rest i label) (s.pos bc.widths) es
            = .ok (sc.mapLiterals (canonLiteral prog.literals), t.pos bc.widths, es)

lemma yields_defaults_nil : YieldsDefaults r prog cap slack F bc dollars .nil := by
  intro s t rest i label h hd hlabels hs hg hrest hpos es hlen
  obtain rfl := Except.ok.inj h
  exact ⟨fun j hj => absurd hj (Nat.not_lt_zero j), rfl, 0, fun _ _ => rfl⟩

lemma yields_defaults_required {slot : Nat} {next : Scatter}
    (inext : YieldsDefaults r prog cap slack F bc dollars next) :
    YieldsDefaults r prog cap slack F bc dollars (.required slot next) := by
  intro s t rest i label h hd hlabels hs hg hrest hpos es hlen
  obtain ⟨hle, hnext, n, hn⟩ := inext rest (i + 1) label h hd hlabels hs hg hrest.2 hpos hlen
  refine ⟨hle, by simpa [Scatter.targets, nextLabel] using hnext, n, fun fuel hfuel => ?_⟩
  simp [Scatter.targets, readDefaults, hn fuel hfuel, hrest.1, bind, Except.bind, pure,
    Except.pure, Scatter.mapLiterals]

lemma yields_defaults_rest {slot : Nat} {next : Scatter}
    (inext : YieldsDefaults r prog cap slack F bc dollars next) :
    YieldsDefaults r prog cap slack F bc dollars (.rest slot next) := by
  intro s t rest i label h hd hlabels hs hg hrest hpos es hlen
  obtain ⟨rfl, hrest⟩ := hrest
  obtain ⟨hle, hnext, n, hn⟩ := inext i (i + 1) label h hd hlabels hs hg hrest hpos hlen
  refine ⟨hle, by simpa [Scatter.targets, nextLabel] using hnext, n, fun fuel hfuel => ?_⟩
  simp [Scatter.targets, readDefaults, hn fuel hfuel, bind, Except.bind, pure, Except.pure,
    Scatter.mapLiterals]

lemma yields_defaults_none {slot : Nat} {next : Scatter}
    (inext : YieldsDefaults r prog cap slack F bc dollars next) :
    YieldsDefaults r prog cap slack F bc dollars (.optional slot .none next) := by
  intro s t rest i label h hd hlabels hs hg hrest hpos es hlen
  obtain ⟨hle, hnext, n, hn⟩ := inext rest (i + 1) label h hd hlabels hs hg hrest.2 hpos hlen
  refine ⟨hle, by simpa [Scatter.targets, nextLabel] using hnext, n, fun fuel hfuel => ?_⟩
  simp [Scatter.targets, readDefaults, hn fuel hfuel, hrest.1, bind, Except.bind, pure,
    Except.pure, Scatter.mapLiterals, Default.mapLiterals]

lemma yields_defaults_some (hlim : lim.IsReady) (c : Ctx r prog cap slack F bc) {slot : Nat}
    {e : Expr} {next : Scatter}
    (hb : (Scatter.optional slot (.some e) next).isBuilt dollars = true)
    (hw : (Scatter.optional slot (.some e) next).isWithin lim = true)
    (ie : YieldsExpr r prog cap slack F bc dollars e)
    (inext : YieldsDefaults r prog cap slack F bc dollars next) :
    YieldsDefaults r prog cap slack F bc dollars (.optional slot (.some e) next) := by
  intro s t rest i label h hd hlabels hs hg hrest hpos es hlen
  simp only [Scatter.isBuilt, Scatter.isWithin, Default.isBuilt, Default.isWithin,
    Bool.and_eq_true, decide_eq_true_eq] at hb hw
  simp only [generateDefaults, Except.bind_eq_ok] at h
  obtain ⟨s₁, h₁, h₂⟩ := h
  have hready : slot < numReadyVars := by have := hlim.ready; omega
  have hslot : slot < 256 := by have := hlim.slots; omega
  have hnone : s.labels[label]? = some none := hlabels 0 (Nat.succ_pos _)
  have hs' : (s.defineLabel label).IsSound r := (Grows.defineLabel hnone).sound hs
  have f₁ := frame_of_generateExpr hlim.toIsByte hb.1 hw.1.2 (s := s.defineLabel label) hd h₁
  have k₂ : Keeps r (s.defineLabel label) (((s₁.emitPut slot).emitOp .opPop).popStack 1) :=
    f₁.trans ((Keeps.emitPut hslot).trans (Keeps.trans (Keeps.emitOp (by trivial)) (Keeps.popStack 1)))
  have hlabels₂ (j : Nat) (hj : j < next.numDefaults) :
      (((s₁.emitPut slot).emitOp .opPop).popStack 1).labels[label + 1 + j]? = some none := by
    apply k₂.getElem?_labels
    rw [State.getElem?_defineLabel_ne (by omega), Nat.add_right_comm]
    exact hlabels (j + 1) (Nat.succ_lt_succ hj)
  have hd₂ : dollars = true →
      (((s₁.emitPut slot).emitOp .opPop).popStack 1).savedStack.isSome = true :=
    k₂.savedStack ▸ hd
  have p₂ := places_of_generateDefaults hlim.toIsByte hb.2 hw.2 hd₂ hlabels₂ h₂
  have g₃ : Grows r ((s₁.emitPut slot).emitOp .opPop) F :=
    (Grows.popStack 1).trans (p₂.grows.trans hg)
  have g₂ : Grows r (s₁.emitPut slot) F := Grows.trans (Grows.emitOp (by trivial)) g₃
  have g₁ : Grows r s₁ F := (Grows.emitPut hslot).trans g₂
  have hc₂ : (((s₁.emitPut slot).emitOp .opPop).popStack 1).curStack = s.curStack := by
    change (s₁.emitPut slot).curStack - 1 = _
    rw [State.curStack_emitPut, f₁.curStack]
    rfl
  have hp₁ : s.pos bc.widths ≤ s₁.pos bc.widths := f₁.grows.pos_le bc.widths
  have hp₂ : (((s₁.emitPut slot).emitOp .opPop).popStack 1).pos bc.widths
      = s₁.pos bc.widths + 2 := by
    rw [State.pos_popStack, State.pos_emitOp, State.pos_emitPut hready]
  have hp₃ := p₂.grows.pos_le bc.widths
  obtain ⟨hle, hnext, m, hm⟩ := inext rest (i + 1) (label + 1) h₂ hd₂ hlabels₂
    (k₂.grows.sound hs') hg hrest.2 (by omega) (hc₂ ▸ hlen)
  have hlabel : F.labelPos bc.widths label = s.pos bc.widths :=
    State.labelPos_of_defineLabel c.linked hs (List.getElem?_eq_some_iff.mp hnone).1
      (f₁.grows.trans g₁)
  have hcap := c.lt_cap_of_frame f₁ hs' g₁ hlen
  have hbody : Evals r prog cap bc (s₁.pos bc.widths + 1) (s.pos bc.widths)
      (s₁.pos bc.widths + 1) es (.asgn (.id slot) (e.canon prog) :: es) := by
    have hput := c.evals_emitPut hready g₂ (Nat.le_of_eq (State.pos_emitPut hready _ _)) hcap
      (x := e.canon prog)
    rw [State.pos_emitPut hready] at hput
    exact (ie h₁ hd hs' g₁ (Nat.le_succ _) hlen).trans hput
  obtain ⟨n, hn⟩ := hbody.decompile false false
  have hpop := c.linked.read_emitOp g₃
  rw [State.pos_emitPut hready] at hpop
  rw [hp₂] at hnext hm hp₃
  refine ⟨?_, ?_, max n m, fun fuel hfuel => ?_⟩
  · intro j hj
    cases j with
    | zero =>
      rw [Nat.add_zero, hlabel]
      omega
    | succ j =>
      rw [← Nat.add_assoc, Nat.add_right_comm]
      exact hle j (Nat.lt_of_succ_lt_succ hj)
  · simp only [Scatter.targets, nextLabel, hlabel, if_pos hpos]
  · have hrec := hn fuel (by omega)
    have hnot : (decide (i = rest)) = false := decide_eq_false hrest.1
    simp [Scatter.targets, readDefaults, hlabel, hpos, hnext, hrec, popExpr, hpop,
      hm fuel (by omega), hnot, bind, Except.bind, pure, Except.pure, Scatter.mapLiterals,
      Default.mapLiterals]

/-- The code in front of the operand pairs. -/
lemma Linked.read_emitScatter (hl : Linked r F bc) {ts : Scatter} {s : State}
    (hlen : ts.length ≤ 254) (hg : Grows r (s.emitScatter ts) F) :
    Grows r (s.emitExtended .eopScatter) F ∧
      (s.emitScatter ts).pos bc.widths = s.pos bc.widths + 5 ∧
      readByte bc.vector (s.pos bc.widths + 2) = .ok ts.length ∧
      readByte bc.vector (s.pos bc.widths + 4)
        = .ok ((ts.restPosition 0).getD (ts.length + 1)) := by
  have hreq := ts.numRequired_le
  have g₃ : Grows r (((s.emitExtended .eopScatter).emitByte ts.length).emitByte
      ts.numRequired) F := by
    have hcells : Content.IsSound r F.gstate (.byte ((ts.restPosition 0).getD (ts.length + 1))) :=
      hl.content_isSound hg.cells
    exact (Grows.emitByte hcells).trans hg
  have g₂ : Grows r ((s.emitExtended .eopScatter).emitByte ts.length) F :=
    (Grows.emitByte (by omega)).trans g₃
  have hbyte₁ := hl.read_emitByte g₂
  have hbyte₃ := hl.read_emitByte hg
  simp only [State.pos_emitByte, State.pos_emitExtended] at hbyte₁ hbyte₃
  refine ⟨(Grows.emitByte (by omega)).trans g₂, ?_, hbyte₁, hbyte₃⟩
  simp only [State.emitScatter, State.pos_emitByte, State.pos_emitExtended]

lemma yields_scatter (hlim : lim.IsReady) (c : Ctx r prog cap slack F bc) {ts : Scatter}
    {rhs : Expr} (hb : (Expr.asgn (.scatter ts) rhs).isBuilt dollars = true)
    (hw : (Expr.asgn (.scatter ts) rhs).isWithin lim = true)
    (irhs : YieldsExpr r prog cap slack F bc dollars rhs)
    (its : YieldsDefaults r prog cap slack F bc dollars ts) :
    YieldsExpr r prog cap slack F bc dollars (.asgn (.scatter ts) rhs) := by
  intro s t h hd hs hg stop hstop es hlen
  simp only [Expr.isBuilt, Expr.isWithin, Bool.and_eq_true, decide_eq_true_eq] at hb hw
  simp only [generateExpr, Except.bind_eq_ok] at h
  obtain ⟨s₁, h₁, s₄, h₄, h⟩ := h
  obtain rfl := Except.ok.inj h
  have htargets := hlim.targets
  have hlen' : ts.length ≤ 254 := by omega
  have f₁ := frame_of_generateExpr hlim.toIsByte hb.2 hw.2 hd h₁
  have k₂ : Keeps r s₁ (s₁.emitScatter ts) := Keeps.emitScatter hlen' s₁
  have hc₂ : (s₁.emitScatter ts).curStack = s₁.curStack := rfl
  have hread := c.linked.read_emitScatter (s := s₁) hlen'
  generalize s₁.emitScatter ts = s₂ at *
  obtain ⟨k₃, hc₃, hl₃⟩ := generateTargets_keeps (r := r) hlim.toIsByte hw.1.2 s₂
  have hd₃ : dollars = true → (generateTargets ts s₂).addLabel.savedStack.isSome = true :=
    (k₃.trans Keeps.addLabel).savedStack ▸ k₂.savedStack ▸ f₁.savedStack ▸ hd
  have hlabels (i : Nat) (hi : i < ts.numDefaults) :
      (generateTargets ts s₂).addLabel.labels[s₂.labels.length + i]? = some none := by
    rw [State.labels_addLabel, hl₃]
    grind
  have p₄ := places_of_generateDefaults hlim.toIsByte hb.1.2 hw.1.2 hd₃ hlabels h₄
  have hdoneLabel : s₄.labels[(generateTargets ts s₂).labels.length]? = some none := by
    refine p₄.labels _ _ (fun hid => ?_) (State.getElem?_addLabel _)
    rw [hl₃, List.length_append, List.length_replicate] at hid
    omega
  have g₄ : Grows r s₄ F := (Grows.defineLabel hdoneLabel).trans hg
  have g₃ : Grows r (generateTargets ts s₂).addLabel F := p₄.grows.trans g₄
  have g₂ : Grows r (generateTargets ts s₂) F := Grows.addLabel.trans g₃
  obtain ⟨ge, hp₂, hnargs, hrest⟩ := hread (k₃.grows.trans g₂)
  have hs₁ := f₁.grows.sound hs
  have hs₃ : (generateTargets ts s₂).addLabel.IsSound r :=
    (k₂.grows.trans (k₃.grows.trans Grows.addLabel)).sound hs₁
  have hp₃ := pos_generateTargets bc.widths ts s₂
  have hp₄ := p₄.grows.pos_le bc.widths
  have hlen₃ : (rhs.canon prog :: es).length
      ≤ slack + (generateTargets ts s₂).addLabel.curStack := by
    change _ ≤ slack + (generateTargets ts s₂).curStack
    rw [hc₃, hc₂, f₁.curStack, List.length_cons]
    omega
  have hrestAt := restAt_restPosition ts 0 hb.1.1.1.2
  rw [Nat.zero_add, Nat.zero_add] at hrestAt
  rw [State.pos_addLabel] at hp₄
  obtain ⟨hle, -, n, hn⟩ := its _ 1 s₂.labels.length h₄ hd₃ hlabels hs₃ g₄ hrestAt
    (by rw [State.pos_addLabel]; omega) hlen₃
  have hts := readTargets_generateTargets hlim c.linked ((ts.restPosition 0).getD (ts.length + 1))
    ts hw.1.2 1 g₂ fun j hj => Nat.le_trans (hle j hj) (g₄.pos_le _)
  have hdone := c.linked.read_label (p₄.grows.sound hs₃)
    (List.getElem?_eq_some_iff.mp hdoneLabel).1 hg g₃.cells
  have hcap := c.lt_cap_of_frame f₁ hs (k₂.grows.trans (k₃.grows.trans g₂)) hlen
  simp only [State.pos_defineLabel, State.pos_addLabel, Bytecodes.widths_label,
    Bytecodes.widths_varName] at hstop hn hp₃ hp₄ ⊢
  rw [hp₃, hp₂] at hn hdone
  rw [hp₂] at hts
  refine (irhs h₁ hd hs (k₂.grows.trans (k₃.grows.trans g₂)) (by omega) hlen).trans
    (c.evals_ext ge (by omega) hcap ⟨n, fun fuel hfuel a b st hst => ?_⟩)
  have hptr : s₁.pos bc.widths + 2 + 3 = s₁.pos bc.widths + 5 := rfl
  simp [decompileExt, hnargs, hrest, hptr, hts, hdone, hst, hn fuel hfuel, popExpr, bind,
    Except.bind, Expr.mapLiterals]

/-! ### All expressions -/

section

variable (hlim : lim.IsReady) (c : Ctx r prog cap slack F bc)

include hlim c

mutual
/-- The decompiler, started at the code of an expression, pushes the expression. -/
lemma generateExpr_yields (e : Expr) {dollars : Bool} (hb : e.isBuilt dollars = true)
    (hw : e.isWithin lim = true) : YieldsExpr r prog cap slack F bc dollars e := by
  have hb' := hb
  have hw' := hw
  match e with
  | .var v => exact yields_var hlim c hb hw
  | .id slot => exact yields_id hlim c hb hw
  | .length => exact yields_length hlim c hb hw
  | .unary op x =>
    simp only [Expr.isBuilt, Expr.isWithin, Bool.and_eq_true] at hb' hw'
    exact yields_unary hlim c hb hw (generateExpr_yields x hb'.2 hw')
  | .binary op x y =>
    simp only [Expr.isBuilt, Expr.isWithin, Bool.and_eq_true] at hb' hw'
    exact yields_binary hlim c hb hw (generateExpr_yields x hb'.1 hw'.1)
      (generateExpr_yields y hb'.2 hw'.2)
  | .logical op x y =>
    simp only [Expr.isBuilt, Expr.isWithin, Bool.and_eq_true] at hb' hw'
    exact yields_logical hlim c hb hw (generateExpr_yields x hb'.1 hw'.1)
      (generateExpr_yields y hb'.2 hw'.2)
  | .prop x y =>
    simp only [Expr.isBuilt, Expr.isWithin, Bool.and_eq_true] at hb' hw'
    exact yields_prop hlim c hb hw (generateExpr_yields x hb'.1 hw'.1)
      (generateExpr_yields y hb'.2 hw'.2)
  | .index x y =>
    simp only [Expr.isBuilt, Expr.isWithin, Bool.and_eq_true] at hb' hw'
    exact yields_index hlim c hb hw (generateExpr_yields x hb'.1 hw'.1)
      (generateExpr_yields y hb'.2 hw'.2)
  | .range x y z =>
    simp only [Expr.isBuilt, Expr.isWithin, Bool.and_eq_true] at hb' hw'
    exact yields_range hlim c hb hw (generateExpr_yields x hb'.1.1 hw'.1.1)
      (generateExpr_yields y hb'.1.2 hw'.1.2) (generateExpr_yields z hb'.2 hw'.2)
  | .cond x y z =>
    simp only [Expr.isBuilt, Expr.isWithin, Bool.and_eq_true] at hb' hw'
    exact yields_cond hlim c hb hw (generateExpr_yields x hb'.1.1 hw'.1.1)
      (generateExpr_yields y hb'.1.2 hw'.1.2) (generateExpr_yields z hb'.2 hw'.2)
  | .list args =>
    simp only [Expr.isBuilt, Expr.isWithin] at hb' hw'
    exact yields_list hlim c hb hw (generateArgs_yields (.inl rfl) args hb' hw')
  | .call func args =>
    simp only [Expr.isBuilt, Expr.isWithin, Bool.and_eq_true] at hb' hw'
    exact yields_call hlim c hb hw (generateArgs_yields (.inl rfl) args hb'.2 hw')
  | .verb x y args =>
    simp only [Expr.isBuilt, Expr.isWithin, Bool.and_eq_true] at hb' hw'
    exact yields_verb hlim c hb hw (generateExpr_yields x hb'.1.1 hw'.1.1)
      (generateExpr_yields y hb'.1.2 hw'.1.2) (generateArgs_yields (.inl rfl) args hb'.2 hw'.2)
  | .catchExpr x codes .none =>
    simp only [Expr.isBuilt, Expr.isWithin, Bool.and_eq_true] at hb' hw'
    exact yields_catch_none hlim c hb hw (generateExpr_yields x hb'.1.1 hw'.1.1)
      (generateArgs_yields (.inr rfl) codes hb'.1.2 hw'.1.2)
  | .catchExpr x codes (.some d) =>
    simp only [Expr.isBuilt, Expr.isWithin, Default.isBuilt, Default.isWithin,
      Bool.and_eq_true] at hb' hw'
    exact yields_catch_some hlim c hb hw (generateExpr_yields x hb'.1.1 hw'.1.1)
      (generateArgs_yields (.inr rfl) codes hb'.1.2 hw'.1.2) (generateExpr_yields d hb'.2 hw'.2)
  | .asgn lhs rhs =>
    have hlvalue (hl : lhs.isLvalue = true) (hbl : lhs.isBuilt dollars = true)
        (hbr : rhs.isBuilt dollars = true) :
        YieldsExpr r prog cap slack F bc dollars (.asgn lhs rhs) := by
      simp only [Expr.isWithin, Bool.and_eq_true] at hw'
      exact yields_asgn hlim c hl hbl hbr hw
        (pushLvalue_yields lhs false ⟨hl, by rintro ⟨⟩⟩ hbl hw'.1) (generateExpr_yields rhs hbr hw'.2)
    match lhs with
    | .scatter ts =>
      simp only [Expr.isBuilt, Expr.isWithin, Bool.and_eq_true] at hb' hw'
      exact yields_scatter hlim c hb hw (generateExpr_yields rhs hb'.2 hw'.2)
        (generateDefaults_yields ts hb'.1.2 hw'.1.2)
    | .var _ | .id _ | .prop _ _ | .verb _ _ _ | .index _ _ | .range _ _ _ | .asgn _ _
    | .call _ _ | .binary _ _ _ | .unary _ _ | .logical _ _ _ | .list _ | .cond _ _ _
    | .catchExpr _ _ _ | .length =>
      rcases Expr.isBuilt_asgn hb with ⟨hl, hbl, hbr⟩ | ⟨_, h, _⟩
      · exact hlvalue hl hbl hbr
      · exact Expr.noConfusion h
  | .scatter _ => simp [Expr.isBuilt] at hb'

lemma generateArgs_yields {o : Opcode} (ho : o = .opMakeEmptyList ∨ o = .optimNum 0)
    (args : ArgList) {dollars : Bool} (hb : args.isBuilt dollars = true)
    (hw : args.isWithin lim = true) : YieldsArgs r prog cap slack F bc dollars o args := by
  have hb' := hb
  have hw' := hw
  match args with
  | .nil => exact yields_args_nil hlim c ho
  | .cons kind e next =>
    simp only [ArgList.isBuilt, ArgList.isWithin, Bool.and_eq_true] at hb' hw'
    exact yields_args_cons hlim c ho hb hw (generateExpr_yields e hb'.1 hw'.1)
      (generateMoreArgs_yields next hb'.2 hw'.2)

lemma generateMoreArgs_yields (args : ArgList) {dollars : Bool}
    (hb : args.isBuilt dollars = true) (hw : args.isWithin lim = true) :
    YieldsMoreArgs r prog cap slack F bc dollars args := by
  have hb' := hb
  have hw' := hw
  match args with
  | .nil =>
    intro s t h _ _ _ stop _ es _ kind x next
    obtain rfl := Except.ok.inj h
    rw [ArgList.mapLiterals, ArgList.append_nil]
    exact Evals.refl _ _
  | .cons kind e next =>
    simp only [ArgList.isBuilt, ArgList.isWithin, Bool.and_eq_true] at hb' hw'
    exact yields_moreArgs_cons hlim c hb hw (generateExpr_yields e hb'.1 hw'.1)
      (generateMoreArgs_yields next hb'.2 hw'.2)

lemma pushLvalue_yields (e : Expr) (indexedAbove : Bool)
    (hl : e.isLvalue = true ∧ (indexedAbove = true → e.isIndexTarget = true))
    {dollars : Bool} (hb : e.isBuilt dollars = true) (hw : e.isWithin lim = true) :
    YieldsLvalue r prog cap slack F bc dollars indexedAbove e := by
  have hb' := hb
  have hw' := hw
  match e with
  | .id slot => exact yields_lvalue_id hlim c hw indexedAbove
  | .prop x y =>
    simp only [Expr.isBuilt, Expr.isWithin, Bool.and_eq_true] at hb' hw'
    exact yields_lvalue_prop hlim c hb hw (generateExpr_yields x hb'.1 hw'.1)
      (generateExpr_yields y hb'.2 hw'.2) indexedAbove
  | .index x y =>
    have ht : x.isIndexTarget = true := hl.1
    simp only [Expr.isBuilt, Expr.isWithin, Bool.and_eq_true] at hb' hw'
    exact yields_lvalue_index hlim c ht hb hw (pushLvalue_yields x true
      ⟨Expr.isLvalue_of_isIndexTarget ht, fun _ => ht⟩ hb'.1 hw'.1)
      (generateExpr_yields y hb'.2 hw'.2) indexedAbove
  | .range x y z =>
    have ht : x.isIndexTarget = true := hl.1
    simp only [Expr.isBuilt, Expr.isWithin, Bool.and_eq_true] at hb' hw'
    cases indexedAbove with
    | true => exact absurd (hl.2 rfl) (by simp [Expr.isIndexTarget])
    | false =>
      exact yields_lvalue_range hlim ht hb hw (pushLvalue_yields x true
        ⟨Expr.isLvalue_of_isIndexTarget ht, fun _ => ht⟩ hb'.1.1 hw'.1.1)
        (generateExpr_yields y hb'.1.2 hw'.1.2) (generateExpr_yields z hb'.2 hw'.2)
  | .var _ | .verb _ _ _ | .asgn _ _ | .call _ _ | .binary _ _ _ | .unary _ _ | .logical _ _ _
  | .list _ | .cond _ _ _ | .catchExpr _ _ _ | .length | .scatter _ =>
    exact absurd hl.1 (by simp [Expr.isLvalue, Expr.isIndexTarget])

lemma generateDefaults_yields (sc : Scatter) {dollars : Bool} (hb : sc.isBuilt dollars = true)
    (hw : sc.isWithin lim = true) : YieldsDefaults r prog cap slack F bc dollars sc := by
  have hb' := hb
  have hw' := hw
  match sc with
  | .nil => exact yields_defaults_nil
  | .required slot next =>
    simp only [Scatter.isBuilt, Scatter.isWithin, Bool.and_eq_true] at hb' hw'
    exact yields_defaults_required (generateDefaults_yields next hb' hw'.2)
  | .rest slot next =>
    simp only [Scatter.isBuilt, Scatter.isWithin, Bool.and_eq_true] at hb' hw'
    exact yields_defaults_rest (generateDefaults_yields next hb' hw'.2)
  | .optional slot .none next =>
    simp only [Scatter.isBuilt, Scatter.isWithin, Bool.and_eq_true] at hb' hw'
    exact yields_defaults_none (generateDefaults_yields next hb'.2 hw'.2)
  | .optional slot (.some e) next =>
    simp only [Scatter.isBuilt, Scatter.isWithin, Default.isBuilt, Default.isWithin,
      Bool.and_eq_true] at hb' hw'
    exact yields_defaults_some hlim c hb hw (generateExpr_yields e hb'.1 hw'.1.2)
      (generateDefaults_yields next hb'.2 hw'.2)
end

end

end LambdaMOO
