import LambdaMOO.Decompile.Scatter

/-!
# Decompiling statements

The loop of `decompile`, started at the code of statements, appends those statements.
-/

namespace LambdaMOO

/-- The loop gets from `p` to `q` and appends statements. -/
def Appends (r : Bool) (prog : Program) (cap : Nat) (bc : Bytecodes) (stop p q : Nat)
    (es : List Expr) (new : StmtList) : Prop :=
  ∀ b ss as, Runs r prog cap ⟨bc, stop, true, b⟩ ⟨p, es, ss, as, p⟩ ⟨q, es, ss.append new, as, q⟩

/-- Where the labels of the loops around the code from `s` to `t` are. -/
def LoopsAt (w : Widths) (F s t : State) : Prop :=
  ∀ l ∈ s.loops, l.topLabel.resolve w ≤ s.pos w ∧ t.pos w ≤ F.labelPos w l.bottomLabel ∧
    F.labelPos w l.bottomLabel ≤ F.pos w

/-- The code made by `gen` is decompiled to `new`, in whatever vector it is. -/
def YieldsStmts (r : Bool) (prog : Program) (cap : Nat) (loops : List (Option Nat))
    (gen : State → Except String State) (new : StmtList) : Prop :=
  ∀ ⦃slack : Nat⦄ ⦃F : State⦄ ⦃bc : Bytecodes⦄, Ctx r prog cap slack F bc →
    ∀ ⦃s t : State⦄, gen s = .ok t → s.loops.map (·.slot) = loops → LoopsAt bc.widths F s t →
      s.IsSound r → Grows r t F → ∀ ⦃stop : Nat⦄, t.pos bc.widths ≤ stop →
        ∀ ⦃es : List Expr⦄, es.length ≤ slack + s.curStack →
          Appends r prog cap bc stop (s.pos bc.widths) (t.pos bc.widths) es new

/-- The `elseif` arms made from `arms` are appended; `id` is the label behind all of them, at
which the call ends. -/
def YieldsArms (r : Bool) (prog : Program) (cap : Nat) (loops : List (Option Nat))
    (arms new : CondArms) : Prop :=
  ∀ ⦃slack : Nat⦄ ⦃F : State⦄ ⦃bc : Bytecodes⦄, Ctx r prog cap slack F bc →
    ∀ ⦃s t : State⦄ ⦃id : Nat⦄ ⦃out : Option Nat⦄,
      generateArms r arms .opEif (some id) s = .ok (out, t) →
      s.loops.map (·.slot) = loops → LoopsAt bc.widths F s t → s.IsSound r →
      s.labels[id]? = some none → Grows r t F →
      t.pos bc.widths ≤ F.labelPos bc.widths id →
      F.labelPos bc.widths id ≤ F.pos bc.widths →
      ∀ ⦃es : List Expr⦄, es.length ≤ slack + s.curStack → ∀ as,
        Runs r prog cap ⟨bc, F.labelPos bc.widths id, true, true⟩
          ⟨s.pos bc.widths, es, .nil, as, s.pos bc.widths⟩
          ⟨t.pos bc.widths, es, .nil, as.append new, t.pos bc.widths⟩

/-- What the code of the handlers leaves on the expression stack. -/
def ExceptArms.handlerStack (prog : Program) (w : Widths) (F : State) :
    ExceptArms → List Nat → List Expr → List Expr
  | .cons _ codes _ next, label :: labels, es =>
    next.handlerStack prog w F labels
      (.var (.int (F.labelPos w label)) :: codes.asExpr prog (.optimNum 0) :: es)
  | _, _, es => es

/-- The labels and codes of the handlers, as they are read back. -/
def ExceptArms.handlers (prog : Program) (w : Widths) (F : State) :
    ExceptArms → List Nat → List (Int × ArgList)
  | .cons _ codes _ next, label :: labels =>
    (F.labelPos w label, codes.mapLiterals (canonLiteral prog.literals)) ::
      next.handlers prog w F labels
  | _, _ => []

/-- The handlers made from `arms` are read back as `new`; the label behind them is at their
end. -/
def YieldsExcepts (r : Bool) (prog : Program) (cap : Nat) (loops : List (Option Nat))
    (arms new : ExceptArms) : Prop :=
  ∀ ⦃slack : Nat⦄ ⦃F : State⦄ ⦃bc : Bytecodes⦄, Ctx r prog cap slack F bc →
    ∀ ⦃s t : State⦄ ⦃labels : List Nat⦄ ⦃endLabel : Nat⦄,
      generateExcepts r arms labels endLabel s = .ok t →
      s.loops.map (·.slot) = loops → LoopsAt bc.widths F s t → s.IsSound r →
      arms.length = labels.length → labels.Nodup → (∀ id ∈ labels, s.labels[id]? = some none) →
      Grows r t F → F.labelPos bc.widths endLabel = t.pos bc.widths →
      ∀ ⦃es : List Expr⦄, es.length ≤ slack + s.curStack →
        (∀ id ∈ labels, F.labelPos bc.widths id ≤ t.pos bc.widths) ∧
        (∀ id ∈ labels.head?, F.labelPos bc.widths id = s.pos bc.widths) ∧
        ∃ n, ∀ fuel ≥ n, readHandlers r (decompile r prog cap fuel) bc (t.pos bc.widths)
          (arms.handlers prog bc.widths F labels) (s.pos bc.widths) es
            = .ok (new, t.pos bc.widths, es)

section

variable {r : Bool} {prog : Program} {cap slack : Nat} {F : State} {bc : Bytecodes}
  {lim : Limits} {loops : List (Option Nat)} {s t u : State} {stop : Nat} {es : List Expr}

namespace Appends

variable {p q q' : Nat} {new new' : StmtList}

lemma refl (p : Nat) (es : List Expr) : Appends r prog cap bc stop p p es .nil := by
  intro b ss as
  rw [StmtList.append_nil]
  exact Runs.refl _

lemma trans (h : Appends r prog cap bc stop p q es new)
    (h' : Appends r prog cap bc stop q q' es new') :
    Appends r prog cap bc stop p q' es (new.append new') := by
  intro b ss as
  rw [← StmtList.append_assoc]
  exact (h b ss as).trans (h' b _ as)

/-- A nested call for just this piece of code. -/
lemma decompile (h : Appends r prog cap bc q p q es new) (b : Bool) :
    ∃ n, ∀ fuel ≥ n, decompile r prog cap fuel ⟨bc, q, true, b⟩ p es
      = .ok ⟨q, es, new, .nil, q⟩ :=
  (h b .nil .nil).decomp rfl

end Appends

lemma LoopsAt.mono {s' t' : State} (h : LoopsAt bc.widths F s t) (hl : s'.loops = s.loops)
    (hs : s.pos bc.widths ≤ s'.pos bc.widths) (ht : t'.pos bc.widths ≤ t.pos bc.widths) :
    LoopsAt bc.widths F s' t' := by
  intro l hmem
  obtain ⟨h₁, h₂, h₃⟩ := h l (hl ▸ hmem)
  exact ⟨Nat.le_trans h₁ hs, Nat.le_trans ht h₂, h₃⟩

/-- One more loop around a body that begins behind its top and ends before its bottom. -/
lemma LoopsAt.enterLoop {s' : State} (h : LoopsAt bc.widths F s t) (hl : s'.loops = s.loops)
    (hs : s.pos bc.widths ≤ s'.pos bc.widths) (ht : u.pos bc.widths ≤ t.pos bc.widths)
    {slot : Option Nat} {top : LabelValue} {a id b : Nat}
    (htop : top.resolve bc.widths ≤ s'.pos bc.widths)
    (hbottom : u.pos bc.widths ≤ F.labelPos bc.widths id)
    (hend : F.labelPos bc.widths id ≤ F.pos bc.widths) :
    LoopsAt bc.widths F (s'.enterLoop slot top a id b) u := by
  intro l hmem
  rcases List.mem_cons.mp hmem with rfl | hmem
  · exact ⟨htop, hbottom, hend⟩
  · exact h.mono hl hs ht l hmem

/-! ### Single instructions -/

/-- An opcode that pops expressions and makes a statement. -/
lemma Ctx.appends_op {o : Opcode} {p : PushMap} {k q : Nat} {es' : List Expr} {stmt : Stmt}
    (c : Ctx r prog cap slack F bc) (hp : p ≠ .push) (hg : Grows r (s.emitCell (.op o) p 0) F)
    (hstop : s.pos bc.widths + 1 ≤ stop)
    (h : ∃ n, ∀ fuel ≥ n, ∀ b st, st.exprs = es' → st.stmtStart = k →
      decompileOp r prog cap (decompile r prog cap fuel) ⟨bc, stop, true, b⟩ o
        (s.pos bc.widths + 1) st
          = addStmt ⟨bc, stop, true, b⟩ stmt { st with ptr := q, exprs := es })
    (b : Bool) (ss : StmtList) (as : CondArms) :
    Runs r prog cap ⟨bc, stop, true, b⟩ ⟨s.pos bc.widths, es', ss, as, k⟩
      ⟨q, es, ss.append (.cons stmt .nil), as, q⟩ := by
  obtain ⟨n, hn⟩ := h
  have hv : o.IsValid r := c.linked.content_isSound hg.cells
  refine fun st' hd => Steps.decomp_next hstop hv (c.linked.read_op hp hg.cells)
    ⟨n, fun fuel hfuel => ?_⟩ hd
  rw [hn fuel hfuel b _ rfl rfl, addStmt, if_pos rfl]
  rfl

lemma Ctx.appends_ext {o : ExtOpcode} {k q : Nat} {es' : List Expr} {stmt : Stmt}
    (c : Ctx r prog cap slack F bc) (hg : Grows r (s.emitExtended o) F)
    (hstop : s.pos bc.widths + 2 ≤ stop)
    (h : ∃ n, ∀ fuel ≥ n, ∀ b st, st.exprs = es' → st.stmtStart = k →
      decompileExt r cap (decompile r prog cap fuel) ⟨bc, stop, true, b⟩ o
        (s.pos bc.widths + 2) st
          = addStmt ⟨bc, stop, true, b⟩ stmt { st with ptr := q, exprs := es })
    (b : Bool) (ss : StmtList) (as : CondArms) :
    Runs r prog cap ⟨bc, stop, true, b⟩ ⟨s.pos bc.widths, es', ss, as, k⟩
      ⟨q, es, ss.append (.cons stmt .nil), as, q⟩ := by
  obtain ⟨n, hn⟩ := h
  refine c.runs_emitExtended hg rfl hstop ⟨n, fun fuel hfuel => ?_⟩
  rw [hn fuel hfuel b _ rfl rfl, addStmt, if_pos rfl]
  rfl

/-- A statement that begins with the code of an expression. -/
lemma Evals.appends {p q q' : Nat} {es' : List Expr} {new : StmtList}
    (h : Evals r prog cap bc stop p q es es')
    (h' : ∀ b ss as, Runs r prog cap ⟨bc, stop, true, b⟩ ⟨q, es', ss, as, p⟩
      ⟨q', es, ss.append new, as, q'⟩) : Appends r prog cap bc stop p q' es new :=
  fun b ss as => (h true b ss as p).trans (h' b ss as)

lemma Linked.read_fixup_label {id : Nat} (hl : Linked r F bc)
    (h : Grows r (s.addFixup (.label id)) F)
    (hle : F.labelPos bc.widths id ≤ F.pos bc.widths) :
    readBytes bc.vector bc.numbytesLabel (s.pos bc.widths) = .ok (F.labelPos bc.widths id) := by
  obtain ⟨tail, hdrop⟩ := hl.drop_pos_of_ne (by decide) h.cells
  exact readBytes_of_drop hl.isProper.label (hl.fits_label hle) hdrop

lemma Linked.readJump_of {x : Nat} (hl : Linked r F bc) (h : Grows r (s.emitOp .opJump) F)
    (hread : readBytes bc.vector bc.numbytesLabel ((s.emitOp .opJump).pos bc.widths) = .ok x) :
    readJump r bc (s.pos bc.widths) = .ok x := by
  rw [State.pos_emitOp] at hread
  simp only [readJump, hl.read_emitOp h, hread, bind, Except.bind, ne_eq, not_true_eq_false,
    if_false]

lemma Linked.read_resolve {v : LabelValue} (hl : Linked r F bc)
    (h : Grows r (s.addKnownLabel v) F) (hle : v.resolve bc.widths ≤ F.pos bc.widths) :
    readBytes bc.vector bc.numbytesLabel (s.pos bc.widths) = .ok (v.resolve bc.widths) := by
  obtain ⟨tail, hdrop⟩ := hl.drop_pos_of_ne (by decide) h.cells
  exact readBytes_of_drop hl.isProper.label (hl.fits_label hle) hdrop

end

/-! ### Statements without a body -/

section

variable {r : Bool} {prog : Program} {cap : Nat} {lim : Limits} {loops : List (Option Nat)}
  (hlim : lim.IsReady)

include hlim

lemma yields_stmt_expr {e : Expr} (hb : (Stmt.expr e).isBuilt loops = true)
    (hw : (Stmt.expr e).isWithin lim = true) :
    YieldsStmts r prog cap loops (generateStmt r (.expr e))
      (.cons ((Stmt.expr e).mapLiterals (canonLiteral prog.literals)) .nil) := by
  intro slack F bc c s t h hl hloops hs hg stop hstop es hlen
  simp only [Stmt.isBuilt, Stmt.isWithin] at hb hw
  simp only [generateStmt, Except.bind_eq_ok] at h
  obtain ⟨s₁, h₁, h⟩ := h
  obtain rfl := Except.ok.inj h
  have g₂ : Grows r (s₁.emitOp .opPop) F := (Grows.popStack 1).trans hg
  simp only [State.pos_popStack, State.pos_emitOp] at hstop ⊢
  refine (generateExpr_yields hlim c e hb hw h₁ (by rintro ⟨⟩) hs (Grows.trans (Grows.emitOp (by trivial)) g₂)
    (by omega) hlen).appends (c.appends_op (by decide) g₂ hstop ⟨0, fun fuel _ b st hst _ => ?_⟩)
  simp only [decompileOp, hst, popExpr, bind, Except.bind]
  rfl

lemma yields_stmt_ret {e : Expr} (hb : (Stmt.ret (some e)).isBuilt loops = true)
    (hw : (Stmt.ret (some e)).isWithin lim = true) :
    YieldsStmts r prog cap loops (generateStmt r (.ret (some e)))
      (.cons ((Stmt.ret (some e)).mapLiterals (canonLiteral prog.literals)) .nil) := by
  intro slack F bc c s t h hl hloops hs hg stop hstop es hlen
  simp only [Stmt.isBuilt, Stmt.isWithin, Option.all_some] at hb hw
  simp only [generateStmt, Except.bind_eq_ok] at h
  obtain ⟨s₁, h₁, h⟩ := h
  obtain rfl := Except.ok.inj h
  have g₂ : Grows r (s₁.emitEndingOp .opReturn) F := (Grows.popStack 1).trans hg
  simp only [State.pos_popStack, State.pos_emitEndingOp] at hstop ⊢
  refine (generateExpr_yields hlim c e hb hw h₁ (by rintro ⟨⟩) hs (Grows.trans (Grows.emitEndingOp (by trivial)) g₂)
    (by omega) hlen).appends (c.appends_op (by decide) g₂ hstop ⟨0, fun fuel _ b st hst _ => ?_⟩)
  simp only [decompileOp, hst, popExpr, bind, Except.bind]
  rfl

omit hlim in
lemma yields_stmt_ret_none :
    YieldsStmts r prog cap loops (generateStmt r (.ret none))
      (.cons ((Stmt.ret none).mapLiterals (canonLiteral prog.literals)) .nil) := by
  intro slack F bc c s t h hl hloops hs hg stop hstop es hlen
  simp only [generateStmt] at h
  obtain rfl := Except.ok.inj h
  simp only [State.pos_emitEndingOp] at hstop ⊢
  refine fun b ss as => c.appends_op (by decide) hg hstop ⟨0, fun fuel _ b st hst _ => ?_⟩ b ss as
  simp only [decompileOp, ← hst]
  rfl

lemma Ctx.appends_exit {slack : Nat} {F : State} {bc : Bytecodes} {exit : Option Nat} {k label : Nat}
    {s : State} {stop : Nat} {es : List Expr} (c : Ctx r prog cap slack F bc)
    (hexit : ∀ n ∈ exit, n < lim.slots)
    (hg : Grows r ((generateExit exit s).addStackRef k) F)
    (hread : readBytes bc.vector bc.numbytesLabel
      (((generateExit exit s).addStackRef k).pos bc.widths) = .ok label)
    (hstop : ((generateExit exit s).addStackRef k).pos bc.widths + bc.numbytesLabel ≤ stop) :
    Appends r prog cap bc stop (s.pos bc.widths)
      (((generateExit exit s).addStackRef k).pos bc.widths + bc.numbytesLabel) es
      (.cons (if label < ((generateExit exit s).addStackRef k).pos bc.widths + bc.numbytesLabel
        then .cont exit else .brk exit) .nil) := by
  have hslots := hlim.slots
  have ge : Grows r (generateExit exit s) F := Grows.trans (Grows.addFixup (by trivial)) hg
  cases exit with
  | none =>
    simp only [generateExit, State.pos_addStackRef, State.pos_emitExtended,
      Bytecodes.widths_stack] at hread hstop ge ⊢
    refine fun b ss as => c.appends_ext ge (by omega) ⟨0, fun fuel _ b st hst _ => ?_⟩ b ss as
    simp only [decompileExt, hread, ← hst, bind, Except.bind]
  | some n =>
    have hn := hexit n rfl
    have hvar := c.linked.read_addVarRef ge
    simp only [generateExit, State.pos_addStackRef, State.pos_emitExtended, State.pos_addVarRef,
      Bytecodes.widths_stack, Bytecodes.widths_varName] at hread hstop ge hvar ⊢
    refine fun b ss as => c.appends_ext ((Grows.addVarRef (by omega)).trans ge) (by omega)
      ⟨0, fun fuel _ b st hst _ => ?_⟩ b ss as
    simp only [decompileExt, hvar, hread, ← hst, bind, Except.bind]

lemma yields_stmt_brk {exit : Option Nat} (hb : (Stmt.brk exit).isBuilt loops = true)
    (hw : (Stmt.brk exit).isWithin lim = true) :
    YieldsStmts r prog cap loops (generateStmt r (.brk exit))
      (.cons ((Stmt.brk exit).mapLiterals (canonLiteral prog.literals)) .nil) := by
  intro slack F bc c s t h hl hloops hs hg stop hstop es hlen
  simp only [Stmt.isBuilt, Stmt.isWithin, Option.all_eq_true, decide_eq_true_eq] at hb hw
  subst hl
  obtain ⟨loop, hmem, hfind⟩ := findLoop_of_checkLoopName hb
  simp only [generateStmt, hfind] at h
  obtain rfl := Except.ok.inj h
  obtain ⟨-, hbottom, hend⟩ := hloops loop hmem
  have hread := c.linked.read_fixup_label hg hend
  simp only [State.pos_addFixup_label, Bytecodes.widths_label] at hbottom hstop ⊢
  have happ : Appends r prog cap bc stop _ _ es _ :=
    c.appends_exit hlim hw (Grows.trans (Grows.addFixup (by trivial)) hg) hread hstop
  rwa [if_neg (Nat.not_lt.mpr hbottom)] at happ

lemma yields_stmt_cont {exit : Option Nat} (hb : (Stmt.cont exit).isBuilt loops = true)
    (hw : (Stmt.cont exit).isWithin lim = true) :
    YieldsStmts r prog cap loops (generateStmt r (.cont exit))
      (.cons ((Stmt.cont exit).mapLiterals (canonLiteral prog.literals)) .nil) := by
  intro slack F bc c s t h hl hloops hs hg stop hstop es hlen
  simp only [Stmt.isBuilt, Stmt.isWithin, Option.all_eq_true, decide_eq_true_eq] at hb hw
  subst hl
  obtain ⟨loop, hmem, hfind⟩ := findLoop_of_checkLoopName hb
  simp only [generateStmt, hfind] at h
  obtain rfl := Except.ok.inj h
  obtain ⟨htop, -, -⟩ := hloops loop hmem
  have hslots := hlim.slots
  have gx : Grows r s ((generateExit exit s).addStackRef loop.topStack) :=
    (Grows.generateExit fun n hn => by have := hw n hn; omega).trans (Grows.addFixup (by trivial))
  have hp := gx.pos_le bc.widths
  have hpF := (Grows.trans (Grows.addFixup (by trivial)) hg : Grows r _ F).pos_le bc.widths
  have hread := c.linked.read_resolve hg (by omega)
  have hpos := c.linked.isProper.label.pos
  simp only [State.pos_addKnownLabel, Bytecodes.widths_label] at hpos hstop ⊢
  have happ : Appends r prog cap bc stop _ _ es _ :=
    c.appends_exit hlim hw (Grows.trans (Grows.addFixup (by trivial)) hg) hread hstop
  rwa [if_pos (by omega)] at happ

/-! ### Loops -/

/-- The body of a loop with the jump back to `x` and the label behind it. -/
lemma Ctx.closeLoop {body body' : StmtList} {slot : Option Nat} {slack a b : Nat} {F : State}
    {bc : Bytecodes} {s t x y z u : State} {es : List Expr}
    (c : Ctx r prog cap slack F bc) (hb : body.isBuilt (slot :: loops) = true)
    (hw : body.isWithin lim = true)
    (ib : YieldsStmts r prog cap (slot :: loops) (generateStmts r body) body')
    (hl : s.loops.map (·.slot) = loops) (hloops : LoopsAt bc.widths F s t)
    (hs : s.IsSound r) (kx : Keeps r s x) (ky : Keeps r x y) (kz : Keeps r y.addLabel z)
    (hlen : es.length ≤ slack + z.curStack)
    (h : generateStmts r body (z.enterLoop slot x.captureLabel a y.labels.length b) = .ok u)
    (hg : Grows r (((u.exitLoop.emitOp .opJump).addKnownLabel x.captureLabel).defineLabel
      y.labels.length) F)
    (ht : u.pos bc.widths ≤ t.pos bc.widths) :
    Grows r y.addLabel F ∧ z.pos bc.widths ≤ u.pos bc.widths ∧
      readBytes bc.vector bc.numbytesLabel (y.pos bc.widths)
        = .ok (u.pos bc.widths + 1 + bc.numbytesLabel) ∧
      readJump r bc (u.pos bc.widths) = .ok (x.pos bc.widths) ∧
      Appends r prog cap bc (u.pos bc.widths) (z.pos bc.widths) (u.pos bc.widths) es body' := by
  have kyx := kx.trans ky
  have kzs : Keeps r s z := kyx.trans (Keeps.addLabel.trans kz)
  have hl' : (z.enterLoop slot x.captureLabel a y.labels.length b).loops.map (·.slot)
      = slot :: loops := congrArg (slot :: ·) ((congrArg _ kzs.loops).trans hl)
  have f := frame_of_generateStmts hlim.toIsByte hb hw hl' h
  have hx : x.IsSound r := kx.grows.sound hs
  have hz : z.IsSound r := kzs.grows.sound hs
  have hnone : u.labels[y.labels.length]? = some none :=
    f.getElem?_labels (kz.getElem?_labels (State.getElem?_addLabel y))
  have hlt := (List.getElem?_eq_some_iff.mp hnone).1
  have gk : Grows r ((u.exitLoop.emitOp .opJump).addKnownLabel x.captureLabel) F :=
    (Grows.defineLabel (s := (u.exitLoop.emitOp .opJump).addKnownLabel _) hnone).trans hg
  have gj : Grows r (u.exitLoop.emitOp .opJump) F := Grows.trans (Grows.addFixup (by trivial)) gk
  have gu : Grows r u F := Grows.exitLoop.trans (Grows.trans (Grows.emitOp (by trivial)) gj)
  have gz : Grows r z F := (Grows.enterLoop _ _ _ _ _).trans (f.grows.trans gu)
  have hj : ((u.exitLoop.emitOp .opJump).addKnownLabel x.captureLabel).IsSound r :=
    (Grows.exitLoop.trans (Grows.trans (Grows.emitOp (by trivial)) (Grows.addFixup (by trivial)))).sound
      (f.grows.sound ((Grows.enterLoop slot _ _ _ _).sound hz))
  have hend := State.labelPos_of_defineLabel c.linked hj hlt hg
  have hpF := hg.pos_le bc.widths
  have hpx := ((ky.grows.trans Grows.addLabel).trans kz.grows).pos_le bc.widths
  have hps := kzs.grows.pos_le bc.widths
  simp only [State.pos_defineLabel, State.pos_addKnownLabel, State.pos_emitOp, State.pos_exitLoop,
    Bytecodes.widths_label] at hend hpF
  have hloops' : LoopsAt bc.widths F
      (z.enterLoop slot x.captureLabel a y.labels.length b) u := by
    refine hloops.enterLoop kzs.loops hps ht ?_ (by omega) (by omega)
    rwa [State.resolve_captureLabel c.linked.isProper hx]
  refine ⟨kz.grows.trans gz, f.grows.pos_le _, ?_, ?_, ?_⟩
  · rw [← hend]
    exact c.linked.read_addLabel (kz.grows.trans gz) (by omega)
  · exact c.linked.readJump_of (s := u.exitLoop) gj (c.linked.read_known hx
      (ky.grows.trans (Grows.addLabel.trans (kz.grows.trans gz))) gk)
  · exact ib c h hl' hloops' ((Grows.enterLoop slot _ _ _ _).sound hz) gu (Nat.le_refl _) hlen

omit hlim in
/-- A `for` loop at its opcode, the list or range being on the stack. -/
lemma finishFor_eq {rec : Decompiler} {bc : Bytecodes} {stop done p q top : Nat} {b : Bool}
    {what : String} {body : StmtList} {es : List Expr} {mk : StmtList → Stmt} {st : DState}
    (hdone : done = q + 1 + bc.numbytesLabel) (hjump : readJump r bc q = .ok top)
    (hrec : rec ⟨bc, q, true, false⟩ p es = .ok ⟨q, es, body, .nil, q⟩) :
    finishFor r rec ⟨bc, stop, true, b⟩ what top p done es mk st
      = addStmt ⟨bc, stop, true, b⟩ (mk body) { st with ptr := done, exprs := es } := by
  rw [Nat.add_right_comm] at hdone
  subst hdone
  have hend : q + bc.numbytesLabel + 1 - (bc.numbytesLabel + 1) = q := by omega
  simp only [finishFor, hend, hrec, hjump, bind, Except.bind, ne_eq, not_true_eq_false, if_false]

lemma yields_stmt_list {slot : Nat} {e : Expr} {body : StmtList}
    (hb : (Stmt.list slot e body).isBuilt loops = true)
    (hw : (Stmt.list slot e body).isWithin lim = true)
    (ib : YieldsStmts r prog cap (some slot :: loops) (generateStmts r body)
      (body.mapLiterals (canonLiteral prog.literals))) :
    YieldsStmts r prog cap loops (generateStmt r (.list slot e body))
      (.cons ((Stmt.list slot e body).mapLiterals (canonLiteral prog.literals)) .nil) := by
  intro slack F bc c s t h hl hloops hs hg stop hstop es hlen
  have hslots := hlim.slots
  simp only [Stmt.isBuilt, Stmt.isWithin, Bool.and_eq_true, decide_eq_true_eq] at hb hw
  simp only [generateStmt, Except.bind_eq_ok] at h
  obtain ⟨s₁, h₁, u, h₂, h⟩ := h
  obtain rfl := Except.ok.inj h
  have f₁ := frame_of_generateExpr hlim.toIsByte hb.1 hw.1.2 (by rintro ⟨⟩) h₁
  have hone : (Opcode.optimNum 1).IsValid r := by cases r <;> decide
  have kx : Keeps r s ((s₁.emitOp (.optimNum 1)).pushStack 1) :=
    f₁.trans (Keeps.trans (Keeps.emitOp hone) (Keeps.pushStack 1))
  have hcx : ((s₁.emitOp (.optimNum 1)).pushStack 1).curStack = s₁.curStack + 1 := rfl
  have hp : ((s₁.emitOp (.optimNum 1)).pushStack 1).pos bc.widths = s₁.pos bc.widths + 1 := by
    simp only [State.pos_pushStack, State.pos_emitOp]
  generalize hx : (s₁.emitOp (.optimNum 1)).pushStack 1 = x at h₂ hg hloops hstop kx hcx hp ⊢
  have hcx' : x.curStack = s.curStack + 2 := by rw [hcx, f₁.curStack]
  have ky : Keeps r x ((x.emitOp .opForList).addVarRef slot) :=
    Keeps.trans (Keeps.emitOp (by trivial)) (Keeps.addVarRef (by omega))
  have hlen' : es.length ≤ slack + ((x.emitOp .opForList).addVarRef slot).addLabel.curStack := by
    change _ ≤ _ + x.curStack
    omega
  have hut : u.pos bc.widths ≤ ((((u.exitLoop.emitOp .opJump).addKnownLabel
      x.captureLabel).defineLabel ((x.emitOp .opForList).addVarRef slot).labels.length).popStack
      2).pos bc.widths := by
    simp only [State.pos_popStack, State.pos_defineLabel, State.pos_addKnownLabel,
      State.pos_emitOp, State.pos_exitLoop]
    omega
  obtain ⟨gy, hpu, hdone, hjump, hbody⟩ := c.closeLoop hlim hb.2 hw.2 ib hl hloops hs kx ky (Keeps.refl _)
    hlen' h₂ ((Grows.popStack 2).trans hg) hut
  simp only [State.pos_popStack, State.pos_defineLabel, State.pos_addKnownLabel,
    State.pos_emitOp, State.pos_exitLoop, State.pos_addVarRef, State.pos_addLabel,
    Bytecodes.widths_label, Bytecodes.widths_varName] at hstop hpu hdone hbody ⊢
  have gv : Grows r ((x.emitOp .opForList).addVarRef slot) F := Grows.addLabel.trans gy
  have gx : Grows r (x.emitOp .opForList) F := (Grows.addVarRef (by omega)).trans gv
  have g₁ : Grows r (s₁.emitOp (.optimNum 1)) F :=
    (Grows.pushStack 1).trans (hx ▸ Grows.trans (Grows.emitOp (by trivial)) gx)
  have hcap : (e.canon prog :: es).length < cap := c.lt_cap (kx.grows.sound hs)
    (Grows.trans (Grows.emitOp (by trivial)) gx) (by rw [List.length_cons, hcx']; omega)
  have hvar := c.linked.read_addVarRef gv
  rw [State.pos_emitOp] at hvar
  obtain ⟨n, hn⟩ := hbody.decompile false
  have hpush : Evals r prog cap bc stop (s₁.pos bc.widths) (x.pos bc.widths)
      (e.canon prog :: es) (.var (.int 1) :: e.canon prog :: es) := by
    rw [hp]
    exact c.evals_op g₁ (by omega) hcap ⟨0, fun fuel _ a b st hst => by rw [← hst]; rfl⟩
  refine ((generateExpr_yields hlim c e hb.1 hw.1.2 h₁ (by rintro ⟨⟩) hs
    (Grows.trans (Grows.emitOp hone) g₁) (by omega) hlen).trans hpush).appends
    (c.appends_op (by decide) gx (by omega) ⟨n, fun fuel hfuel b st hst _ => ?_⟩)
  simp only [decompileOp, hvar, hdone, hst, popExpr, bind, Except.bind, ne_eq, not_true_eq_false,
    if_false, Nat.add_sub_cancel]
  rw [finishFor_eq rfl hjump (hn fuel hfuel)]
  rfl

lemma yields_stmt_range {slot : Nat} {lo hi : Expr} {body : StmtList}
    (hb : (Stmt.range slot lo hi body).isBuilt loops = true)
    (hw : (Stmt.range slot lo hi body).isWithin lim = true)
    (ib : YieldsStmts r prog cap (some slot :: loops) (generateStmts r body)
      (body.mapLiterals (canonLiteral prog.literals))) :
    YieldsStmts r prog cap loops (generateStmt r (.range slot lo hi body))
      (.cons ((Stmt.range slot lo hi body).mapLiterals (canonLiteral prog.literals)) .nil) := by
  intro slack F bc c s t h hl hloops hs hg stop hstop es hlen
  have hslots := hlim.slots
  simp only [Stmt.isBuilt, Stmt.isWithin, Bool.and_eq_true, decide_eq_true_eq] at hb hw
  simp only [generateStmt, Except.bind_eq_ok] at h
  obtain ⟨s₁, h₁, x, hx, u, h₂, h⟩ := h
  obtain rfl := Except.ok.inj h
  have f₁ := frame_of_generateExpr hlim.toIsByte hb.1.1 hw.1.1.2 (by rintro ⟨⟩) h₁
  have fx := frame_of_generateExpr hlim.toIsByte hb.1.2 hw.1.2 (by rintro ⟨⟩) hx
  have hcx : x.curStack = s.curStack + 2 := by rw [fx.curStack, f₁.curStack]
  have ky : Keeps r x ((x.emitOp .opForRange).addVarRef slot) :=
    Keeps.trans (Keeps.emitOp (by trivial)) (Keeps.addVarRef (by omega))
  have hlen' : es.length ≤ slack + ((x.emitOp .opForRange).addVarRef slot).addLabel.curStack := by
    change _ ≤ _ + x.curStack
    omega
  have hut : u.pos bc.widths ≤ ((((u.exitLoop.emitOp .opJump).addKnownLabel
      x.captureLabel).defineLabel ((x.emitOp .opForRange).addVarRef slot).labels.length).popStack
      2).pos bc.widths := by
    simp only [State.pos_popStack, State.pos_defineLabel, State.pos_addKnownLabel,
      State.pos_emitOp, State.pos_exitLoop]
    omega
  obtain ⟨gy, hpu, hdone, hjump, hbody⟩ := c.closeLoop hlim hb.2 hw.2 ib hl hloops hs
    (f₁.trans fx.toKeeps) ky (Keeps.refl _) hlen' h₂ ((Grows.popStack 2).trans hg) hut
  simp only [State.pos_popStack, State.pos_defineLabel, State.pos_addKnownLabel,
    State.pos_emitOp, State.pos_exitLoop, State.pos_addVarRef, State.pos_addLabel,
    Bytecodes.widths_label, Bytecodes.widths_varName] at hstop hpu hdone hbody ⊢
  have gv : Grows r ((x.emitOp .opForRange).addVarRef slot) F := Grows.addLabel.trans gy
  have gx : Grows r (x.emitOp .opForRange) F := (Grows.addVarRef (by omega)).trans gv
  have gx' : Grows r x F := Grows.trans (Grows.emitOp (by trivial)) gx
  have hpx := fx.grows.pos_le bc.widths
  have hvar := c.linked.read_addVarRef gv
  rw [State.pos_emitOp] at hvar
  obtain ⟨n, hn⟩ := hbody.decompile false
  have hlen₁ : (lo.canon prog :: es).length ≤ slack + s₁.curStack := by
    rw [List.length_cons, f₁.curStack]
    omega
  refine ((generateExpr_yields hlim c lo hb.1.1 hw.1.1.2 h₁ (by rintro ⟨⟩) hs (fx.grows.trans gx')
    (by omega) hlen).trans (generateExpr_yields hlim c hi hb.1.2 hw.1.2 hx (by rintro ⟨⟩)
      (f₁.grows.sound hs) gx' (by omega) hlen₁)).appends
    (c.appends_op (by decide) gx (by omega) ⟨n, fun fuel hfuel b st hst _ => ?_⟩)
  simp only [decompileOp, hvar, hdone, hst, popExpr, bind, Except.bind, Nat.add_sub_cancel]
  rw [finishFor_eq rfl hjump (hn fuel hfuel)]
  rfl

omit hlim in
lemma finishWhile_eq {rec : Decompiler} {bc : Bytecodes} {stop p q : Nat} {b : Bool}
    {slot : Option Nat} {e : Expr} {body : StmtList} {es : List Expr} {st : DState}
    (hdone : readBytes bc.vector bc.numbytesLabel p = .ok (q + 1 + bc.numbytesLabel))
    (hjump : readJump r bc q = .ok st.stmtStart) (hst : st.exprs = e :: es)
    (hrec : rec ⟨bc, q, true, false⟩ (p + bc.numbytesLabel) es = .ok ⟨q, es, body, .nil, q⟩) :
    finishWhile r rec ⟨bc, stop, true, b⟩ slot p st
      = addStmt ⟨bc, stop, true, b⟩ (.loop slot e body)
        { st with ptr := q + 1 + bc.numbytesLabel, exprs := es } := by
  rw [Nat.add_right_comm] at hdone ⊢
  have hend : q + bc.numbytesLabel + 1 - (bc.numbytesLabel + 1) = q := by omega
  simp only [finishWhile, hdone, hst, popExpr, hend, hrec, hjump, bind, Except.bind, ne_eq,
    not_true_eq_false, if_false]

/-- A `while` loop at its opcode, the condition being on the stack. -/
lemma Ctx.appends_while {slack : Nat} {F : State} {bc : Bytecodes} {s : State} {stop q k : Nat}
    {slot : Option Nat} {e : Expr} {body : StmtList} {es : List Expr}
    (c : Ctx r prog cap slack F bc) (hslot : ∀ n ∈ slot, n < lim.slots)
    (hg : Grows r (s.emitWhile slot).addLabel F)
    (hstop : (s.emitWhile slot).addLabel.pos bc.widths ≤ stop)
    (hdone : readBytes bc.vector bc.numbytesLabel ((s.emitWhile slot).pos bc.widths)
      = .ok (q + 1 + bc.numbytesLabel)) (hjump : readJump r bc q = .ok k)
    (hbody : Appends r prog cap bc q ((s.emitWhile slot).addLabel.pos bc.widths) q es body)
    (b : Bool) (ss : StmtList) (as : CondArms) :
    Runs r prog cap ⟨bc, stop, true, b⟩ ⟨s.pos bc.widths, e :: es, ss, as, k⟩
      ⟨q + 1 + bc.numbytesLabel, es, ss.append (.cons (.loop slot e body) .nil), as,
        q + 1 + bc.numbytesLabel⟩ := by
  have hslots := hlim.slots
  obtain ⟨n, hn⟩ := hbody.decompile false
  have gw : Grows r (s.emitWhile slot) F := Grows.addLabel.trans hg
  cases slot with
  | none =>
    simp only [State.emitWhile, State.pos_emitOp, State.pos_addLabel, Bytecodes.widths_label]
      at hstop hdone hn gw
    refine c.appends_op (by decide) gw (by omega) ⟨n, fun fuel hfuel b st hst hk => ?_⟩ b ss as
    exact finishWhile_eq hdone (hk ▸ hjump) hst (hn fuel hfuel)
  | some i =>
    have hi := hslot i rfl
    have hvar := c.linked.read_addVarRef gw
    simp only [State.emitWhile, State.pos_emitExtended, State.pos_addVarRef, State.pos_addLabel,
      Bytecodes.widths_label, Bytecodes.widths_varName] at hstop hdone hn gw hvar
    refine c.appends_ext ((Grows.addVarRef (by omega)).trans gw) (by omega)
      ⟨n, fun fuel hfuel b st hst hk => ?_⟩ b ss as
    simp only [decompileExt, hvar, bind, Except.bind]
    exact finishWhile_eq hdone (hk ▸ hjump) hst (hn fuel hfuel)

lemma yields_stmt_loop {slot : Option Nat} {e : Expr} {body : StmtList}
    (hb : (Stmt.loop slot e body).isBuilt loops = true)
    (hw : (Stmt.loop slot e body).isWithin lim = true)
    (ib : YieldsStmts r prog cap (slot :: loops) (generateStmts r body)
      (body.mapLiterals (canonLiteral prog.literals))) :
    YieldsStmts r prog cap loops (generateStmt r (.loop slot e body))
      (.cons ((Stmt.loop slot e body).mapLiterals (canonLiteral prog.literals)) .nil) := by
  intro slack F bc c s t h hl hloops hs hg stop hstop es hlen
  have hslots := hlim.slots
  simp only [Stmt.isBuilt, Stmt.isWithin, Bool.and_eq_true, Option.all_eq_true,
    decide_eq_true_eq] at hb hw
  simp only [generateStmt, Except.bind_eq_ok] at h
  obtain ⟨s₁, h₁, u, h₂, h⟩ := h
  obtain rfl := Except.ok.inj h
  have f₁ := frame_of_generateExpr hlim.toIsByte hb.1 hw.1.2 (by rintro ⟨⟩) h₁
  have fw : Frame r 0 s₁ (s₁.emitWhile slot) := Frame.emitWhile fun n hn => by
    have := hw.1.1 n hn
    omega
  have hlen' : es.length ≤ slack + ((s₁.emitWhile slot).addLabel.popStack 1).curStack := by
    change _ ≤ _ + ((s₁.emitWhile slot).curStack - 1)
    rw [fw.curStack, f₁.curStack]
    omega
  have hut : u.pos bc.widths ≤ (((u.exitLoop.emitOp .opJump).addKnownLabel
      s.captureLabel).defineLabel (s₁.emitWhile slot).labels.length).pos bc.widths := by
    simp only [State.pos_defineLabel, State.pos_addKnownLabel, State.pos_emitOp,
      State.pos_exitLoop]
    omega
  obtain ⟨gy, hpu, hdone, hjump, hbody⟩ := c.closeLoop hlim hb.2 hw.2 ib hl hloops hs
    (Keeps.refl s) (f₁.trans fw.toKeeps) (Keeps.popStack 1) hlen' h₂ hg hut
  simp only [State.pos_popStack, State.pos_defineLabel, State.pos_addKnownLabel,
    State.pos_emitOp, State.pos_exitLoop, Bytecodes.widths_label] at hstop hpu hdone hbody ⊢
  have hpw := (fw.grows.trans Grows.addLabel).pos_le bc.widths
  exact (generateExpr_yields hlim c e hb.1 hw.1.2 h₁ (by rintro ⟨⟩) hs
    (fw.grows.trans (Grows.addLabel.trans gy)) (by omega) hlen).appends
    (c.appends_while hlim hw.1.1 gy (by omega) hdone hjump hbody)

/-! ### Forks -/

omit hlim in
/-- A whole vector, up to its `OP_DONE`. -/
lemma Ctx.decompile_vector {slack : Nat} {T : State} {bc : Bytecodes} {es : List Expr}
    {new : StmtList} (c : Ctx r prog cap slack T bc)
    (h : Appends r prog cap bc bc.size 0 (T.pos bc.widths) es new) :
    ∃ n, ∀ fuel ≥ n, decompile r prog cap fuel ⟨bc, bc.size, true, false⟩ 0 es
      = .ok ⟨bc.size, es, new, .nil, T.pos bc.widths⟩ := by
  have hlt : T.pos bc.widths < bc.size := by rw [c.linked.size_eq]; omega
  have hv : Opcode.opDone.IsValid r := trivial
  refine h false .nil .nil _ (Steps.decomp_next hlt hv c.linked.read_done
    (.of_forall fun rec => ?_) (Decomp.done rfl))
  simp only [decompileOp, c.linked.size_eq, ne_eq, not_true_eq_false, if_false]
  rfl

omit hlim in
/-- The vector of a fork among those of the program. -/
lemma Ctx.fork {slack : Nat} {F T s : State} {bc fbc : Bytecodes} (c : Ctx r prog cap slack F bc)
    (hT : T.IsSound r) (hcode : finishCode r T = .ok fbc) (hs : s.gstate = T.gstate)
    (hg : Grows r (s.addFork fbc) F) :
    prog.forkVectors[s.gstate.forkVectors.length]? = some fbc ∧
      Ctx r prog cap (slack + F.maxStack) T fbc := by
  have gl := hg.literals
  have gv := hg.forkVectors
  simp only [State.addFork_gstate_forkVectors, State.addFork_gstate_literals, hs] at gl gv ⊢
  obtain ⟨more, hmore⟩ := gv
  obtain ⟨others, hothers⟩ := c.forkVectors
  have hidx : prog.forkVectors[T.gstate.forkVectors.length]? = some fbc := by
    rw [← hothers, ← hmore]
    simp
  have hmax : fbc.maxStack = T.maxStack := finishCode_maxStack hcode
  have hlinked : Linked r T fbc :=
    ⟨hcode, hT, hmax ▸ c.stack_le fbc (List.mem_of_getElem? hidx)⟩
  refine ⟨hidx, hlinked, gl.trans c.literals, ?_, c.stack_le, ?_⟩
  · rw [← hothers, ← hmore]
    simp only [List.append_assoc, List.prefix_append]
  · have hcap := c.cap
    rw [← hmore] at hcap
    simp only [List.map_append, List.map_cons, List.map_nil, List.sum_append, List.sum_cons,
      List.sum_nil, hmax] at hcap
    omega

lemma yields_stmt_fork {slot : Option Nat} {time : Expr} {body : StmtList}
    (hb : (Stmt.fork slot time body).isBuilt loops = true)
    (hw : (Stmt.fork slot time body).isWithin lim = true)
    (ib : YieldsStmts r prog cap [] (generateStmts r body)
      (body.mapLiterals (canonLiteral prog.literals))) :
    YieldsStmts r prog cap loops (generateStmt r (.fork slot time body))
      (.cons ((Stmt.fork slot time body).mapLiterals (canonLiteral prog.literals)) .nil) := by
  intro slack F bc c s t h hl hloops hs hg stop hstop es hlen
  have hslots := hlim.slots
  simp only [Stmt.isBuilt, Stmt.isWithin, Bool.and_eq_true, Option.all_eq_true,
    decide_eq_true_eq] at hb hw
  simp only [generateStmt, Except.bind_eq_ok] at h
  obtain ⟨s₁, h₁, T, hT, fbc, hcode, h⟩ := h
  obtain rfl := Except.ok.inj h
  have f₁ := frame_of_generateExpr hlim.toIsByte hb.1 hw.1.2 (by rintro ⟨⟩) h₁
  have fT := frame_of_generateStmts hlim.toIsByte hb.2 hw.2 rfl hT
  have fo := Frame.emitForkOp (r := r) (s := s₁) slot
  have hsT : T.IsSound r := fT.grows.sound (State.isSound_init r _)
  have go : Grows r (s₁.emitForkOp slot) { s₁.emitForkOp slot with gstate := T.gstate } :=
    Grows.setGState (s := s₁.emitForkOp slot) fT.grows.literals fT.grows.forkVectors
  generalize hu : { s₁.emitForkOp slot with gstate := T.gstate } = u at hg hstop go hloops ⊢
  have hu' : u.gstate = T.gstate := hu ▸ rfl
  have gi : Grows r ((u.addFork fbc).addForkId slot) F := (Grows.popStack 1).trans hg
  have gf : Grows r (u.addFork fbc) F :=
    (Frame.addForkId fun n hn => by have := hw.1.1 n hn; omega).grows.trans gi
  obtain ⟨hidx, cT⟩ := c.fork hsT hcode hu' gf
  have gu : Grows r u F := (Grows.addFork fbc).trans gf
  have g₁ : Grows r (s₁.emitForkOp slot) F := go.trans gu
  have hpu : u.pos bc.widths = s₁.pos bc.widths + 1 := by
    rw [← hu]
    cases slot <;> exact State.pos_emitOp _ _ _
  have hcur : s.curStack ≤ F.maxStack := by
    have h₁ := hs.stack
    have h₂ := (f₁.grows.trans (fo.grows.trans g₁)).maxStack
    omega
  have hbody : Appends r prog cap fbc fbc.size _ _ es _ := ib cT hT rfl (by rintro _ ⟨⟩)
    (State.isSound_init r _) (Grows.refl T) (by rw [cT.linked.size_eq]; omega) (by omega)
  obtain ⟨n, hn⟩ := cT.decompile_vector hbody
  have hfork := c.linked.read_addFork gf
  refine (generateExpr_yields hlim c time hb.1 hw.1.2 h₁ (by rintro ⟨⟩) hs (fo.grows.trans g₁) ?_
    hlen).appends ?_
  · have hpt := (((Grows.addFork fbc).trans (Frame.addForkId fun n hn => by
      have := hw.1.1 n hn; omega).grows).trans (Grows.popStack 1) :
        Grows r u (((u.addFork fbc).addForkId slot).popStack 1)).pos_le bc.widths
    omega
  cases slot with
  | none =>
    simp only [State.addForkId, State.pos_popStack, State.pos_addFork, hpu,
      Bytecodes.widths_fork] at hstop hfork ⊢
    refine c.appends_op (by decide) g₁ (by omega) ⟨n, fun fuel hfuel b st hst _ => ?_⟩
    have hrec := hn fuel hfuel
    simp only [decompileOp, hst, popExpr, hfork, hidx, bind, Except.bind]
    simp only [hrec]
    rfl
  | some i =>
    have hvar := c.linked.read_addVarRef gi
    simp only [State.addForkId, State.pos_popStack, State.pos_addVarRef, State.pos_addFork, hpu,
      Bytecodes.widths_fork, Bytecodes.widths_varName] at hstop hfork hvar ⊢
    refine c.appends_op (by decide) g₁ (by omega) ⟨n, fun fuel hfuel b st hst _ => ?_⟩
    have hrec := hn fuel hfuel
    simp only [decompileOp, hst, popExpr, hfork, hvar, hidx, bind, Except.bind]
    simp only [hrec]
    rfl

/-! ### Conditionals -/

omit hlim in
/-- The operand of the jump behind an arm. -/
lemma Grows.addLinkedLabel (next : Option Nat) (s : State) :
    Grows r (s.addFixup (.label (s.addLinkedLabel next).1)) (s.addLinkedLabel next).2 := by
  cases next with
  | none => exact Grows.newLabel
  | some id => exact Grows.refl _

omit hlim in
lemma State.pos_addLinkedLabel (w : Widths) (next : Option Nat) (s : State) :
    (s.addLinkedLabel next).2.pos w = s.pos w + w.label := by
  cases next <;> simp [State.addLinkedLabel]

/-- One arm, from its condition to the jump behind its statements. -/
lemma Ctx.arm {slack : Nat} {F : State} {bc : Bytecodes} {ifOp : Opcode} {e : Expr}
    {ss ss' : StmtList} {endLabel : Option Nat} {s s₁ s₃ s₄ t : State} {id : Nat}
    {es : List Expr} (c : Ctx r prog cap slack F bc) (ho : ifOp.IsValid r)
    (hbe : e.isBuilt false = true) (hwe : e.isWithin lim = true)
    (hbs : ss.isBuilt loops = true) (hws : ss.isWithin lim = true)
    (is : YieldsStmts r prog cap loops (generateStmts r ss) ss')
    (hl : s.loops.map (·.slot) = loops) (hloops : LoopsAt bc.widths F s t) (hs : s.IsSound r)
    (h₁ : generateExpr r e s = .ok s₁)
    (h₃ : generateStmts r ss ((s₁.emitOp ifOp).addLabel.popStack 1) = .ok s₃)
    (hend : ∀ id ∈ endLabel, s.labels[id]? = some none)
    (h₄ : (s₃.emitOp .opJump).addLinkedLabel endLabel = (id, s₄))
    (hg : Grows r (s₄.defineLabel s₁.labels.length) F)
    (ht : s₄.pos bc.widths ≤ t.pos bc.widths)
    (hid : F.labelPos bc.widths id ≤ F.pos bc.widths) (hlen : es.length ≤ slack + s.curStack) :
    Grows r (s₁.emitOp ifOp) F ∧ s₁.pos bc.widths + 1 + bc.numbytesLabel ≤ s₃.pos bc.widths ∧
      s₄.pos bc.widths = s₃.pos bc.widths + 1 + bc.numbytesLabel ∧
      readBytes bc.vector bc.numbytesLabel (s₁.pos bc.widths + 1) = .ok (s₄.pos bc.widths) ∧
      readJump r bc (s₃.pos bc.widths) = .ok (F.labelPos bc.widths id) ∧
      Appends r prog cap bc (s₃.pos bc.widths) (s₁.pos bc.widths + 1 + bc.numbytesLabel)
        (s₃.pos bc.widths) es ss' := by
  have f₁ := frame_of_generateExpr hlim.toIsByte hbe hwe (by rintro ⟨⟩) h₁
  have k₂ : Keeps r s ((s₁.emitOp ifOp).addLabel.popStack 1) :=
    f₁.trans (Keeps.trans (Keeps.emitOp ho) (Keeps.addLabel.trans (Keeps.popStack 1)))
  have hc₂ : ((s₁.emitOp ifOp).addLabel.popStack 1).curStack = s₁.curStack - 1 := rfl
  have f₃ := frame_of_generateStmts hlim.toIsByte hbs hws (k₂.loops ▸ hl) h₃
  have helse : s₃.labels[s₁.labels.length]? = some none :=
    f₃.getElem?_labels (State.getElem?_addLabel (s₁.emitOp ifOp))
  obtain ⟨k₄, -, -, -⟩ := addLinkedLabel_keeps (r := r) endLabel (s := s₃.emitOp .opJump)
    (fun id hid => (k₂.trans f₃.toKeeps).getElem?_labels (hend id hid))
  have gx := Grows.addLinkedLabel (r := r) endLabel (s₃.emitOp .opJump)
  have hp₄ := State.pos_addLinkedLabel bc.widths endLabel (s₃.emitOp .opJump)
  rw [h₄] at k₄ gx hp₄
  have helse₄ := k₄.getElem?_labels helse
  have g₄ : Grows r s₄ F := (Grows.defineLabel helse₄).trans hg
  have gj : Grows r (s₃.emitOp .opJump) F := k₄.grows.trans g₄
  have g₃ : Grows r s₃ F := Grows.trans (Grows.emitOp (by trivial)) gj
  have g₂ : Grows r (s₁.emitOp ifOp).addLabel F := (Grows.popStack 1).trans (f₃.grows.trans g₃)
  have hs₂ := k₂.grows.sound hs
  have hs₄ : s₄.IsSound r :=
    k₄.grows.sound ((Grows.emitOp (o := .opJump) trivial).sound (f₃.grows.sound hs₂))
  have hlabel := c.linked.read_label hs₄ (List.getElem?_eq_some_iff.mp helse₄).1 hg g₂.cells
  have hjump := c.linked.readJump_of gj (c.linked.read_fixup_label (gx.trans g₄) hid)
  have hp₂ := k₂.grows.pos_le bc.widths
  have hp₃ := f₃.grows.pos_le bc.widths
  have hpos := c.linked.isProper.label.pos
  simp only [State.pos_popStack, State.pos_emitOp, State.pos_addLabel, Bytecodes.widths_label]
    at hlabel hp₂ hp₃ hp₄
  refine ⟨Grows.addLabel.trans g₂, hp₃, hp₄, hlabel, hjump, ?_⟩
  have hbody : Appends r prog cap bc _ _ _ es _ := is c h₃ (k₂.loops ▸ hl)
    (hloops.mono k₂.loops (k₂.grows.pos_le _) (by omega)) hs₂ g₃ (Nat.le_refl _)
    (by rw [hc₂, f₁.curStack]; omega)
  simpa only [State.pos_popStack, State.pos_emitOp, State.pos_addLabel, Bytecodes.widths_label]
    using hbody

omit hlim in
lemma yields_arms_nil : YieldsArms r prog cap loops .nil .nil := by
  intro slack F bc c s t id out h hl hloops hs hnone hg hle hend es hlen as
  obtain ⟨rfl, rfl⟩ := Prod.mk.inj (Except.ok.inj h)
  rw [CondArms.append_nil]
  exact Runs.refl _

lemma yields_arms_cons {e : Expr} {ss ss' : StmtList} {next next' : CondArms}
    (hb : (CondArms.cons e ss next).isBuilt loops = true)
    (hw : (CondArms.cons e ss next).isWithin lim = true)
    (is : YieldsStmts r prog cap loops (generateStmts r ss) ss')
    (inext : YieldsArms r prog cap loops next next') :
    YieldsArms r prog cap loops (.cons e ss next) (.cons (e.canon prog) ss' next') := by
  intro slack F bc c s t id out h hl hloops hs hnone hg hle hend es hlen as
  simp only [CondArms.isBuilt, CondArms.isWithin, Bool.and_eq_true] at hb hw
  simp only [generateArms, Except.bind_eq_ok] at h
  obtain ⟨s₁, h₁, s₃, h₃, h⟩ := h
  replace h : generateArms r next .opEif (some id)
      (((s₃.emitOp .opJump).addFixup (.label id)).defineLabel s₁.labels.length) = .ok (out, t) := h
  have hv : Opcode.opEif.IsValid r := trivial
  have f₁ := frame_of_generateExpr hlim.toIsByte hb.1.1 hw.1.1 (by rintro ⟨⟩) h₁
  have k₂ : Keeps r s ((s₁.emitOp .opEif).addLabel.popStack 1) :=
    f₁.trans (Keeps.trans (Keeps.emitOp (by trivial)) (Keeps.addLabel.trans (Keeps.popStack 1)))
  have f₃ := frame_of_generateStmts hlim.toIsByte hb.1.2 hw.1.2 (k₂.loops ▸ hl) h₃
  have helse : s₃.labels[s₁.labels.length]? = some none :=
    f₃.getElem?_labels (State.getElem?_addLabel (s₁.emitOp .opEif))
  have hid₁ := (List.getElem?_eq_some_iff.mp (f₁.getElem?_labels hnone)).1
  have hnone₃ := (k₂.trans f₃.toKeeps).getElem?_labels hnone
  have k₄ : Keeps r s (((s₃.emitOp .opJump).addFixup (.label id)).defineLabel s₁.labels.length) :=
    Keeps.defineLabel (k₂.trans (f₃.trans (Keeps.trans (Keeps.emitOp (by trivial)) (Keeps.addFixup (by trivial)))))
      f₁.labels.length_le helse
  have hnone₄ : (((s₃.emitOp .opJump).addFixup (.label id)).defineLabel
      s₁.labels.length).labels[id]? = some none := by
    rw [State.getElem?_defineLabel_ne (by omega)]
    exact hnone₃
  have hc₄ : (((s₃.emitOp .opJump).addFixup (.label id)).defineLabel s₁.labels.length).curStack
      = s.curStack := by
    change s₃.curStack = _
    rw [f₃.curStack]
    change s₁.curStack - 1 = _
    rw [f₁.curStack]
    rfl
  obtain ⟨kt, hct, -⟩ := keeps_of_generateArms hlim.toIsByte hv hb.2 hw.2 (k₄.loops ▸ hl)
    (fun _ hid' => Option.some.inj hid' ▸ hnone₄) h
  have gd := kt.grows.trans hg
  have hpt := kt.grows.pos_le bc.widths
  obtain ⟨gop, hp₃, hp₄, hlabel, hjump, hbody⟩ := c.arm hlim hv hb.1.1 hw.1.1 hb.1.2 hw.1.2 is
    hl hloops hs h₁ h₃ (fun _ hid' => Option.some.inj hid' ▸ hnone) rfl gd hpt hend hlen
  obtain ⟨n, hn⟩ := hbody.decompile false
  simp only [State.pos_defineLabel] at hpt
  have hrest := inext c h (k₄.loops ▸ hl) (hloops.mono k₄.loops (k₄.grows.pos_le _)
    (Nat.le_refl _)) (k₄.grows.sound hs) hnone₄ hg hle hend (hc₄ ▸ hlen)
    (as.snoc (e.canon prog) ss')
  rw [CondArms.snoc_append] at hrest
  refine (generateExpr_yields hlim c e hb.1.1 hw.1.1 h₁ (by rintro ⟨⟩) hs
    (Grows.trans (Grows.emitOp (by trivial)) gop) (by omega) hlen true true .nil as _).trans (Runs.trans ?_ hrest)
  refine c.runs_emitOp gop rfl (by omega) ⟨n, fun fuel hfuel => ?_⟩
  have hrec := hn fuel hfuel
  have hstop : ((s₃.emitOp .opJump).addFixup (.label id)).pos bc.widths - (bc.numbytesLabel + 1)
      = s₃.pos bc.widths := by omega
  simp only [decompileOp, hlabel, popExpr, hstop, hrec, hjump, bind, Except.bind, Bool.not_true,
    Bool.false_eq_true, ne_eq, not_true_eq_false, if_false]
  rw [State.pos_defineLabel, hp₄, Nat.add_right_comm]
  rfl

omit hlim in
/-- The label behind the arms is the one the first arm makes. -/
lemma out_of_generateArms {arms : CondArms} {ifOp : Opcode} {id : Nat} {s t : State}
    {out : Option Nat} (h : generateArms r arms ifOp (some id) s = .ok (out, t)) :
    out = some id := by
  match arms with
  | .nil => exact (Prod.mk.inj (Except.ok.inj h)).1.symm
  | .cons e ss next =>
    simp only [generateArms, Except.bind_eq_ok] at h
    obtain ⟨s₁, -, s₃, -, h⟩ := h
    exact out_of_generateArms h

omit hlim in
/-- A conditional at its `OP_IF`, the first condition being on the stack. -/
lemma Ctx.appends_if {slack : Nat} {F : State} {bc : Bytecodes} {s : State}
    {stop q done k k' : Nat} {e : Expr} {ss' other : StmtList} {arms : CondArms} {es : List Expr}
    (c : Ctx r prog cap slack F bc) (hg : Grows r (s.emitOp .opIf) F)
    (hstop : s.pos bc.widths + 1 ≤ stop)
    (hlabel : readBytes bc.vector bc.numbytesLabel (s.pos bc.widths + 1)
      = .ok (q + 1 + bc.numbytesLabel)) (hjump : readJump r bc q = .ok done)
    (hbody : Appends r prog cap bc q (s.pos bc.widths + 1 + bc.numbytesLabel) q es ss')
    (hrest : Runs r prog cap ⟨bc, done, true, true⟩
      ⟨q + 1 + bc.numbytesLabel, es, .nil, .nil, q + 1 + bc.numbytesLabel⟩
      ⟨done, es, other, arms, k'⟩) (b : Bool) (ss : StmtList) (as : CondArms) :
    Runs r prog cap ⟨bc, stop, true, b⟩ ⟨s.pos bc.widths, e :: es, ss, as, k⟩
      ⟨done, es, ss.append (.cons (.cond (.cons e ss' arms) other) .nil), as, done⟩ := by
  obtain ⟨n, hn⟩ := hbody.decompile false
  obtain ⟨m, hm⟩ := hrest.decomp rfl
  refine c.appends_op (by decide) hg hstop ⟨max n m, fun fuel hfuel b st hst _ => ?_⟩ b ss as
  have hrec := hn fuel (by omega)
  have hrec' := hm fuel (by omega)
  rw [Nat.add_right_comm] at hrec' hlabel
  have hend : q + bc.numbytesLabel + 1 - (bc.numbytesLabel + 1) = q := by omega
  simp only [decompileOp, hlabel, hst, popExpr, hend, hrec, hjump, hrec', bind, Except.bind]

lemma yields_stmt_cond {e : Expr} {ss otherwise : StmtList} {next : CondArms}
    (hb : (Stmt.cond (.cons e ss next) otherwise).isBuilt loops = true)
    (hw : (Stmt.cond (.cons e ss next) otherwise).isWithin lim = true)
    (is : YieldsStmts r prog cap loops (generateStmts r ss)
      (ss.mapLiterals (canonLiteral prog.literals)))
    (inext : YieldsArms r prog cap loops next (next.mapLiterals (canonLiteral prog.literals)))
    (iother : YieldsStmts r prog cap loops (generateStmts r otherwise)
      (otherwise.mapLiterals (canonLiteral prog.literals))) :
    YieldsStmts r prog cap loops (generateStmt r (.cond (.cons e ss next) otherwise))
      (.cons ((Stmt.cond (.cons e ss next) otherwise).mapLiterals
        (canonLiteral prog.literals)) .nil) := by
  intro slack F bc c s t h hl hloops hs hg stop hstop es hlen
  simp only [Stmt.isBuilt, Stmt.isWithin, CondArms.isBuilt, CondArms.isWithin,
    Bool.and_eq_true] at hb hw
  simp only [generateStmt, generateArms, Except.bind_eq_ok] at h
  obtain ⟨⟨out, s₅⟩, ⟨s₁, h₁, s₃, h₃, h₅⟩, s₆, h₆, h⟩ := h
  replace h₅ : generateArms r next .opEif (some s₃.labels.length)
      ((s₃.emitOp .opJump).addLabel.defineLabel s₁.labels.length) = .ok (out, s₅) := h₅
  replace h₆ : generateStmts r otherwise s₅ = .ok s₆ := h₆
  obtain rfl := out_of_generateArms h₅
  obtain rfl := Except.ok.inj h
  have hv : Opcode.opIf.IsValid r := trivial
  have hv' : Opcode.opEif.IsValid r := trivial
  have f₁ := frame_of_generateExpr hlim.toIsByte hb.1.2.1.1 hw.1.1.1 (by rintro ⟨⟩) h₁
  have k₂ : Keeps r s ((s₁.emitOp .opIf).addLabel.popStack 1) :=
    f₁.trans (Keeps.trans (Keeps.emitOp (by trivial)) (Keeps.addLabel.trans (Keeps.popStack 1)))
  have f₃ := frame_of_generateStmts hlim.toIsByte hb.1.2.1.2 hw.1.1.2 (k₂.loops ▸ hl) h₃
  have helse : s₃.labels[s₁.labels.length]? = some none :=
    f₃.getElem?_labels (State.getElem?_addLabel (s₁.emitOp .opIf))
  have hlt := (List.getElem?_eq_some_iff.mp helse).1
  have k₄ : Keeps r s ((s₃.emitOp .opJump).addLabel.defineLabel s₁.labels.length) :=
    Keeps.defineLabel (k₂.trans (f₃.trans (Keeps.trans (Keeps.emitOp (by trivial)) Keeps.addLabel)))
      f₁.labels.length_le ((Keeps.addLabel (r := r) (s := s₃.emitOp .opJump)).getElem?_labels helse)
  have hnone₄ : ((s₃.emitOp .opJump).addLabel.defineLabel
      s₁.labels.length).labels[s₃.labels.length]? = some none := by
    rw [State.getElem?_defineLabel_ne (by omega)]
    exact State.getElem?_addLabel (s₃.emitOp .opJump)
  have hc₄ : ((s₃.emitOp .opJump).addLabel.defineLabel s₁.labels.length).curStack
      = s.curStack := by
    change s₃.curStack = _
    rw [f₃.curStack]
    change s₁.curStack - 1 = _
    rw [f₁.curStack]
    rfl
  obtain ⟨k₅, hc₅, hout⟩ := keeps_of_generateArms hlim.toIsByte hv' hb.1.2.2 hw.1.2
    (k₄.loops ▸ hl) (fun _ hid' => Option.some.inj hid' ▸ hnone₄) h₅
  have k₄₅ := k₄.trans k₅
  have f₆ := frame_of_generateStmts hlim.toIsByte hb.2 hw.2 (k₄₅.loops ▸ hl) h₆
  have hnone₆ := f₆.getElem?_labels (hout _ rfl).1
  have g₆ : Grows r s₆ F := (Grows.defineLabel hnone₆).trans hg
  have g₅ : Grows r s₅ F := f₆.grows.trans g₆
  have gd := k₅.grows.trans g₅
  have hs₄ := k₄.grows.sound hs
  have hs₅ := k₅.grows.sound hs₄
  have hend := State.labelPos_of_defineLabel c.linked (f₆.grows.sound hs₅)
    (List.getElem?_eq_some_iff.mp hnone₆).1 hg
  have hpF := g₆.pos_le bc.widths
  have hp₅ := k₅.grows.pos_le bc.widths
  have hp₆ := f₆.grows.pos_le bc.widths
  have hps₄ := k₄.grows.pos_le bc.widths
  have hps₅ := k₄₅.grows.pos_le bc.widths
  simp only [State.pos_defineLabel] at hstop hp₅ hps₄ ⊢
  have hid : F.labelPos bc.widths s₃.labels.length ≤ F.pos bc.widths := by omega
  have hno : ∀ id ∈ (none : Option Nat), s.labels[id]? = some none := by rintro _ ⟨⟩
  have h₄ : (s₃.emitOp .opJump).addLinkedLabel none
    = (s₃.labels.length, (s₃.emitOp .opJump).addLabel) := rfl
  obtain ⟨gop, hp₃, hp₄, hlabel, hjump, hbody⟩ := c.arm hlim hv hb.1.2.1.1 hw.1.1.1 hb.1.2.1.2
    hw.1.1.2 is hl hloops hs h₁ h₃ hno h₄ gd (Nat.le_trans hp₅ hp₆) hid hlen
  have harms := inext c h₅ (k₄.loops ▸ hl) (hloops.mono k₄.loops hps₄ hp₆) hs₄ hnone₄ g₅
    (by omega) hid (hc₄ ▸ hlen) .nil
  have hother : Appends r prog cap bc (F.labelPos bc.widths s₃.labels.length) _ _ es _ :=
    iother c h₆ (k₄₅.loops ▸ hl) (hloops.mono k₄₅.loops hps₅ (Nat.le_refl _)) hs₅ g₆ (by omega)
      (by rw [hc₅, hc₄]; exact hlen)
  have hrest := harms.trans
    (hother true .nil (next.mapLiterals (canonLiteral prog.literals)))
  rw [State.pos_defineLabel, hp₄] at hrest
  rw [hp₄] at hlabel
  rw [hend] at hjump hrest
  refine (generateExpr_yields hlim c e hb.1.2.1.1 hw.1.1.1 h₁ (by rintro ⟨⟩) hs
    (Grows.trans (Grows.emitOp (by trivial)) gop) (by omega) hlen).appends
    (c.appends_if gop (by omega) hlabel hjump hbody hrest)

/-! ### Protected statements -/

omit hlim in
/-- A nested call for protected statements, which is ended by the opcode behind them. -/
lemma Ctx.decompile_end {slack : Nat} {F : State} {bc : Bytecodes} {s : State} {stop p : Nat}
    {o : ExtOpcode} {es : List Expr} {new : StmtList} (c : Ctx r prog cap slack F bc)
    (h : Appends r prog cap bc stop p (s.pos bc.widths) es new)
    (hg : Grows r (s.emitExtended o) F) (hstop : s.pos bc.widths + 2 ≤ stop)
    (ho : o = .eopEndCatch ∨ o = .eopEndExcept ∨ o = .eopEndFinally ∨ o = .eopContinue) :
    ∃ n, ∀ fuel ≥ n, decompile r prog cap fuel ⟨bc, stop, true, false⟩ p es
      = .ok ⟨s.pos bc.widths, es, new, .nil, s.pos bc.widths⟩ :=
  h false .nil .nil _ (c.decomp_end hg rfl hstop ho)

lemma yields_stmt_tryFinally {body handler : StmtList}
    (hb : (Stmt.tryFinally body handler).isBuilt loops = true)
    (hw : (Stmt.tryFinally body handler).isWithin lim = true)
    (ib : YieldsStmts r prog cap loops (generateStmts r body)
      (body.mapLiterals (canonLiteral prog.literals)))
    (ih : YieldsStmts r prog cap loops (generateStmts r handler)
      (handler.mapLiterals (canonLiteral prog.literals))) :
    YieldsStmts r prog cap loops (generateStmt r (.tryFinally body handler))
      (.cons ((Stmt.tryFinally body handler).mapLiterals (canonLiteral prog.literals)) .nil) := by
  intro slack F bc c s t h hl hloops hs hg stop hstop es hlen
  simp only [Stmt.isBuilt, Stmt.isWithin, Bool.and_eq_true] at hb hw
  simp only [generateStmt, Except.bind_eq_ok] at h
  obtain ⟨s₂, h₂, s₄, h₄, h⟩ := h
  obtain rfl := Except.ok.inj h
  have k₁ : Keeps r s ((s.emitExtended .eopTryFinally).addLabel.pushStack 1) :=
    (Keeps.emitExtended _).trans (Keeps.addLabel.trans (Keeps.pushStack 1))
  have hl₁ : ((s.emitExtended .eopTryFinally).addLabel.pushStack 1).incrTryDepth.loops.map
    (·.slot) = loops := (congrArg _ k₁.loops).trans hl
  have f₂ := frame_of_generateStmts hlim.toIsByte hb.1 hw.1 hl₁ h₂
  have hlabel : s₂.labels[s.labels.length]? = some none :=
    f₂.getElem?_labels (State.getElem?_addLabel (s.emitExtended .eopTryFinally))
  have k₂ : Keeps r s ((s₂.decrTryDepth.emitExtended .eopEndFinally).popStack 1) :=
    (k₁.decrTryDepth f₂.toKeeps).trans ((Keeps.emitExtended _).trans (Keeps.popStack 1))
  have k₃ : Keeps r s ((((s₂.decrTryDepth.emitExtended .eopEndFinally).popStack 1).defineLabel
      s.labels.length).pushStack 2) :=
    Keeps.trans (Keeps.defineLabel k₂ (Nat.le_refl _) hlabel) (Keeps.pushStack 2)
  have f₄ := frame_of_generateStmts hlim.toIsByte hb.2 hw.2 ((congrArg _ k₃.loops).trans hl) h₄
  have gc : Grows r (s₄.emitExtended .eopContinue) F := (Grows.popStack 2).trans hg
  have g₄ : Grows r s₄ F := (Grows.emitExtended _).trans gc
  have gd : Grows r (((s₂.decrTryDepth.emitExtended .eopEndFinally).popStack 1).defineLabel
    s.labels.length) F := (Grows.pushStack 2).trans (f₄.grows.trans g₄)
  have ge : Grows r (s₂.decrTryDepth.emitExtended .eopEndFinally) F :=
    (Grows.popStack 1).trans ((Grows.defineLabel (s := (s₂.decrTryDepth.emitExtended
      .eopEndFinally).popStack 1) hlabel).trans gd)
  have g₂ : Grows r s₂ F := Grows.decrTryDepth.trans ((Grows.emitExtended _).trans ge)
  have gl : Grows r (s.emitExtended .eopTryFinally).addLabel F :=
    (Grows.pushStack 1).trans (Grows.incrTryDepth.trans (f₂.grows.trans g₂))
  have hread := c.linked.read_label (k₂.grows.sound hs) (List.getElem?_eq_some_iff.mp hlabel).1 gd
    gl.cells
  have hend := (c.linked.read_emitExtended ge).2
  have hcont := (c.linked.read_emitExtended gc).2
  have hp₁ := k₁.grows.pos_le bc.widths
  have hp₂ := f₂.grows.pos_le bc.widths
  have hp₃ := k₃.grows.pos_le bc.widths
  have hp₄ := f₄.grows.pos_le bc.widths
  have hcur : s.curStack ≤ s₂.curStack - 1 + 2 := by
    have hc₂ : s₂.curStack = s.curStack + 1 := f₂.curStack
    omega
  simp only [State.pos_popStack, State.pos_pushStack, State.pos_defineLabel,
    State.pos_emitExtended, State.pos_decrTryDepth, State.pos_incrTryDepth, State.pos_addLabel,
    Bytecodes.widths_label] at hstop hread hend hp₁ hp₂ hp₃ hp₄ ⊢
  have hbody : Appends r prog cap bc stop _ _ es _ := ib c h₂ hl₁
    (hloops.mono k₁.loops (k₁.grows.pos_le _) (by simpa using by omega))
    (Grows.incrTryDepth.sound (k₁.grows.sound hs)) g₂ (by omega)
    (Nat.le_trans hlen (by change _ ≤ _ + (s.curStack + 1); omega))
  have hhandler : Appends r prog cap bc stop _ _ es _ := ih c h₄ ((congrArg _ k₃.loops).trans hl)
    (hloops.mono k₃.loops (k₃.grows.pos_le _) (by simp)) (k₃.grows.sound hs) g₄ (by omega)
    (Nat.le_trans hlen (by change _ ≤ _ + (s₂.curStack - 1 + 2); omega))
  obtain ⟨n, hn⟩ := c.decompile_end (s := s₂.decrTryDepth) hbody ge (by
    rw [State.pos_decrTryDepth]; omega) (.inr (.inr (.inl rfl)))
  obtain ⟨m, hm⟩ := c.decompile_end hhandler gc (by omega) (.inr (.inr (.inr rfl)))
  simp only [State.pos_popStack, State.pos_pushStack, State.pos_defineLabel,
    State.pos_emitExtended, State.pos_decrTryDepth, State.pos_incrTryDepth, State.pos_addLabel,
    Bytecodes.widths_label] at hn hm
  refine fun b ss as => c.appends_ext (Grows.addLabel.trans gl) (by omega)
    ⟨max n m, fun fuel hfuel b st hst _ => ?_⟩ b ss as
  have hrec := hn fuel (by omega)
  have hrec' := hm fuel (by omega)
  simp only [decompileExt, hread, hst, hrec, hend, hrec', hcont, bind, Except.bind, ne_eq,
    not_true_eq_false, if_false]
  rfl

omit hlim in
lemma popHandlers_handlerStack (w : Widths) (F : State) (arms : ExceptArms) (labels : List Nat)
    (hlen : arms.length = labels.length) (m : Nat) (hs : List (Int × ArgList)) (es : List Expr) :
    popHandlers (arms.length + m) hs (arms.handlerStack prog w F labels es)
      = popHandlers m (arms.handlers prog w F labels ++ hs) es := by
  match arms, labels with
  | .nil, _ => simp [ExceptArms.length, ExceptArms.handlerStack, ExceptArms.handlers]
  | .cons slot codes ss next, label :: labels =>
    have hnext := popHandlers_handlerStack w F next labels (Nat.succ.inj hlen) (m + 1) hs
      (.var (.int (F.labelPos w label)) :: codes.asExpr prog (.optimNum 0) :: es)
    rw [ExceptArms.length, ExceptArms.handlerStack, Nat.add_right_comm, Nat.add_assoc, hnext]
    simp only [popHandlers, popExpr, labelOf, codesOf_asExpr, bind, Except.bind]
    rfl

lemma generateHandlers_yields {slack : Nat} {F : State} {bc : Bytecodes}
    (c : Ctx r prog cap slack F bc) (arms : ExceptArms) (hb : arms.isBuilt loops = true)
    (hw : arms.isWithin lim = true) {s t : State} {labels : List Nat}
    (h : generateHandlers r arms s = .ok (labels, t)) (hs : s.IsSound r) (hg : Grows r t F)
    (hle : ∀ id ∈ labels, F.labelPos bc.widths id ≤ F.pos bc.widths)
    {stop : Nat} (hstop : t.pos bc.widths ≤ stop) {es : List Expr}
    (hlen : es.length ≤ slack + s.curStack) :
    Evals r prog cap bc stop (s.pos bc.widths) (t.pos bc.widths) es
      (arms.handlerStack prog bc.widths F labels es) := by
  match arms with
  | .nil =>
    obtain ⟨rfl, rfl⟩ := Prod.mk.inj (Except.ok.inj h)
    exact Evals.refl _ _
  | .cons slot codes ss next =>
    simp only [ExceptArms.isBuilt, ExceptArms.isWithin, Bool.and_eq_true] at hb hw
    simp only [generateHandlers, generateCodes, Except.bind_eq_ok] at h
    obtain ⟨s₁, h₁, ⟨labels', t'⟩, h₂, h⟩ := h
    obtain ⟨rfl, rfl : t' = t⟩ := Prod.mk.inj (Except.ok.inj h)
    have hzero : (Opcode.optimNum 0).IsValid r := by cases r <;> decide
    have f₁ := frame_of_generateArgs hlim.toIsByte hzero hb.1.1.2 hw.1.1.2 (by rintro ⟨⟩) h₁
    have k₂ : Keeps r s ((s₁.emitExtended .eopPushLabel).addLabel.pushStack 1) :=
      f₁.trans ((Keeps.emitExtended _).trans (Keeps.addLabel.trans (Keeps.pushStack 1)))
    have hc₂ : ((s₁.emitExtended .eopPushLabel).addLabel.pushStack 1).curStack
        = s₁.curStack + 1 := rfl
    obtain ⟨k₃, -⟩ := keeps_of_generateHandlers hlim.toIsByte hb.2 hw.2 h₂
    have g₂ := k₃.grows.trans hg
    have gl : Grows r (s₁.emitExtended .eopPushLabel).addLabel F := (Grows.pushStack 1).trans g₂
    have hread := c.linked.read_addLabel gl (hle _ List.mem_cons_self)
    have hcap : (codes.asExpr prog (.optimNum 0) :: es).length < cap :=
      c.lt_cap (k₂.grows.sound hs) g₂ (by rw [hc₂, f₁.curStack, List.length_cons]; omega)
    have hp := k₃.grows.pos_le bc.widths
    have hlen₂ : (.var (.int (F.labelPos bc.widths s₁.labels.length)) ::
        codes.asExpr prog (.optimNum 0) :: es).length
        ≤ slack + ((s₁.emitExtended .eopPushLabel).addLabel.pushStack 1).curStack := by
      rw [hc₂, f₁.curStack, List.length_cons, List.length_cons]
      omega
    have hnext := generateHandlers_yields c next hb.2 hw.2 h₂ (k₂.grows.sound hs) hg
      (fun id hid => hle id (List.mem_cons_of_mem _ hid)) hstop hlen₂
    simp only [State.pos_pushStack, State.pos_emitExtended, State.pos_addLabel,
      Bytecodes.widths_label] at hread hp hnext
    have hpush : Evals r prog cap bc stop (s₁.pos bc.widths)
        (s₁.pos bc.widths + 2 + bc.numbytesLabel) (codes.asExpr prog (.optimNum 0) :: es)
        (.var (.int (F.labelPos bc.widths s₁.labels.length)) ::
          codes.asExpr prog (.optimNum 0) :: es) := by
      refine c.evals_ext (Grows.addLabel.trans gl) (by omega) hcap
        ⟨0, fun fuel _ a b st hst => ?_⟩
      simp only [decompileExt, hread, hst, bind, Except.bind]
      rfl
    exact (generateArgs_yields hlim c (.inr rfl) codes hb.1.1.2 hw.1.1.2 h₁ (by rintro ⟨⟩) hs
      ((Grows.emitExtended _).trans (Grows.addLabel.trans gl)) (by omega) hlen).trans
      (hpush.trans hnext)

/-- The start of a handler. -/
lemma Ctx.readExceptVar_eq {slack : Nat} {F : State} {bc : Bytecodes} {slot : Option Nat}
    {s : State} (c : Ctx r prog cap slack F bc) (hslot : ∀ n ∈ slot, n < lim.slots)
    (hg : Grows r ((s.emitExceptPut slot).emitOp .opPop) F) :
    readExceptVar r bc (s.pos bc.widths)
      = .ok (slot, ((s.emitExceptPut slot).emitOp .opPop).pos bc.widths) := by
  have hready := hlim.ready
  have hslots := hlim.slots
  have hpop := c.linked.read_emitOp hg
  have gp : Grows r (s.emitExceptPut slot) F := Grows.trans (Grows.emitOp (by trivial)) hg
  cases slot with
  | none =>
    have hcode : Opcode.ofCode r (Opcode.opPop.code r) = some .opPop := Opcode.ofCode_code trivial
    simp only [State.emitExceptPut] at hpop
    simp only [readExceptVar, hpop, hcode, bind, Except.bind, State.emitExceptPut,
      State.pos_emitOp]
    rfl
  | some n =>
    have hn : n < numReadyVars := Nat.lt_of_lt_of_le (hslot n rfl) hready
    simp only [State.emitExceptPut] at gp hpop ⊢
    rw [State.emitPut_of_lt hn] at gp
    have hput := c.linked.read_op (by decide) gp.cells
    have hv : (Opcode.opPut n).IsValid r := c.linked.content_isSound gp.cells
    rw [State.pos_emitPut hn] at hpop
    simp only [readExceptVar, hput, Opcode.ofCode_code hv, hpop, bind, Except.bind, ne_eq,
      not_true_eq_false, if_false, State.pos_emitOp, State.pos_emitPut hn]
    rfl

omit hlim in
lemma yields_excepts_nil : YieldsExcepts r prog cap loops .nil .nil := by
  intro slack F bc c s t labels endLabel h hl hloops hs hlen' hnodup hnone hg hend es hlen
  obtain rfl := Except.ok.inj h
  obtain rfl : labels = [] := List.length_eq_zero_iff.mp hlen'.symm
  exact ⟨by rintro _ ⟨⟩, by rintro _ ⟨⟩, 0, fun _ _ => rfl⟩

lemma yields_excepts_cons {slot : Option Nat} {codes : ArgList} {ss : StmtList}
    {next : ExceptArms} (hb : (ExceptArms.cons slot codes ss next).isBuilt loops = true)
    (hw : (ExceptArms.cons slot codes ss next).isWithin lim = true)
    (is : YieldsStmts r prog cap loops (generateStmts r ss)
      (ss.mapLiterals (canonLiteral prog.literals)))
    (inext : YieldsExcepts r prog cap loops next
      (next.mapLiterals (canonLiteral prog.literals))) :
    YieldsExcepts r prog cap loops (.cons slot codes ss next)
      ((ExceptArms.cons slot codes ss next).mapLiterals (canonLiteral prog.literals)) := by
  intro slack F bc c s t labels endLabel h hl hloops hs hlen' hnodup hnone hg hend es hlen
  obtain ⟨label, labels, rfl⟩ : ∃ label rest, labels = label :: rest := by
    cases labels with
    | nil => exact absurd hlen' (by simp [ExceptArms.length])
    | cons label rest => exact ⟨label, rest, rfl⟩
  simp only [ExceptArms.isBuilt, ExceptArms.isWithin, Bool.and_eq_true, Option.all_eq_true,
    decide_eq_true_eq] at hb hw
  simp only [generateExcepts, Except.bind_eq_ok] at h
  obtain ⟨s₂, h₂, h⟩ := h
  have hslots := hlim.slots
  obtain ⟨hnotin, hnodup⟩ := List.nodup_cons.mp hnodup
  have hlabel := hnone label List.mem_cons_self
  have kp : Keeps r (s.defineLabel label) (((s.defineLabel label).pushStack 1).emitExceptPut slot) :=
    (Keeps.pushStack 1).trans (Keeps.emitExceptPut fun n hn => by have := hw.1.1.1 n hn; omega)
  have k₁ := kp.trans (Keeps.trans (Keeps.emitOp (o := .opPop) trivial) (Keeps.popStack 1))
  have hc₁ : (((((s.defineLabel label).pushStack 1).emitExceptPut slot).emitOp
      .opPop).popStack 1).curStack = s.curStack := State.curStack_exceptStart s label slot
  have f₂ := frame_of_generateStmts hlim.toIsByte hb.1.2 hw.1.2 (k₁.loops ▸ hl) h₂
  have f₃ := Frame.emitExceptJump (r := r) (s := s₂) next endLabel
  have hnone₃ (id : Nat) (hid : id ∈ labels) :
      (s₂.emitExceptJump next endLabel).labels[id]? = some none := by
    apply (k₁.trans (f₂.trans f₃.toKeeps)).getElem?_labels
    rw [State.getElem?_defineLabel_ne (by rintro rfl; exact hnotin hid)]
    exact hnone id (List.mem_cons_of_mem _ hid)
  have hl₃ : (s₂.emitExceptJump next endLabel).loops.map (·.slot) = loops :=
    f₃.loops ▸ f₂.loops ▸ k₁.loops ▸ hl
  have hc₃ : (s₂.emitExceptJump next endLabel).curStack = s.curStack :=
    f₃.curStack.trans (f₂.curStack.trans hc₁)
  have p₄ := places_of_generateExcepts hlim.toIsByte hb.2 hw.2 (Nat.succ.inj hlen') hnodup hl₃
    hnone₃ h
  have g₃ := p₄.grows.trans hg
  have g₂ := f₃.grows.trans g₃
  have gp : Grows r ((((s.defineLabel label).pushStack 1).emitExceptPut slot).emitOp .opPop) F :=
    (Grows.popStack 1).trans (f₂.grows.trans g₂)
  have gd : Grows r (s.defineLabel label) F := kp.grows.trans (Grows.trans (Grows.emitOp (by trivial)) gp)
  have hs₁ := k₁.grows.sound ((Grows.defineLabel hlabel).sound hs)
  have hp₁ := k₁.grows.pos_le bc.widths
  have hp₂ := f₂.grows.pos_le bc.widths
  have hp₃ := f₃.grows.pos_le bc.widths
  have hp₄ := p₄.grows.pos_le bc.widths
  rw [State.pos_defineLabel] at hp₁
  have hat : F.labelPos bc.widths label = s.pos bc.widths :=
    State.labelPos_of_defineLabel c.linked hs (List.getElem?_eq_some_iff.mp hlabel).1 gd
  have hvar := c.readExceptVar_eq hlim (s := (s.defineLabel label).pushStack 1) hw.1.1.1 gp
  rw [State.pos_pushStack, State.pos_defineLabel] at hvar
  have hbody : Appends r prog cap bc _ _ _ es _ := is c h₂ (k₁.loops ▸ hl)
    (hloops.mono k₁.loops hp₁ (by omega)) hs₁ g₂ (Nat.le_refl _) (hc₁ ▸ hlen)
  obtain ⟨hle, hhead, m, hm⟩ := inext c h hl₃ (hloops.mono
    (f₃.loops.trans (f₂.loops.trans k₁.loops)) (by omega) (Nat.le_refl _))
    (f₃.grows.sound (f₂.grows.sound hs₁)) (Nat.succ.inj hlen') hnodup hnone₃ hg hend (hc₃ ▸ hlen)
  obtain ⟨n, hn⟩ := hbody.decompile false
  refine ⟨?_, fun id hid => Option.some.inj hid ▸ hat, max n m, fun fuel hfuel => ?_⟩
  · intro id hid
    rcases List.mem_cons.mp hid with rfl | hid
    · omega
    · exact hle id hid
  have hrec := hn fuel (by omega)
  have hrec' := hm fuel (by omega)
  rw [State.pos_popStack] at hrec
  cases next with
  | nil =>
    obtain rfl : s₂ = t := Except.ok.inj h
    simp only [ExceptArms.handlers, hat, readHandlers, hvar, hrec, bind, Except.bind, ne_eq,
      not_true_eq_false, if_false]
    rfl
  | cons slot' codes' ss' next' =>
    obtain ⟨label', labels, rfl⟩ : ∃ label rest, labels = label :: rest := by
      cases labels with
      | nil => exact absurd (Nat.succ.inj hlen') (by simp [ExceptArms.length])
      | cons label rest => exact ⟨label, rest, rfl⟩
    have gj : Grows r ((s₂.emitOp .opJump).addFixup (.label endLabel)) F := g₃
    have hjump := c.linked.readJump_of (Grows.trans (Grows.addFixup (by trivial)) gj)
      (c.linked.read_fixup_label gj (by rw [hend]; exact hg.pos_le _))
    have hat' := hhead label' rfl
    simp only [State.emitExceptJump, State.pos_addFixup_label, State.pos_emitOp,
      Bytecodes.widths_label] at hat' hrec'
    rw [Nat.add_right_comm] at hat' hrec'
    have hstop : (F.labelPos bc.widths label' : Int).toNat - (bc.numbytesLabel + 1)
        = s₂.pos bc.widths := by omega
    simp only [ExceptArms.handlers, hat, readHandlers, hvar, hstop, hrec, hjump, hend, bind,
      Except.bind, ne_eq, not_true_eq_false, if_false] at hrec' ⊢
    simp only [hrec']
    rfl

omit hlim in
/-- A try-except at its opcode, the codes and labels being on the stack. -/
lemma Ctx.appends_tryExcept {slack : Nat} {F : State} {bc : Bytecodes} {s u : State}
    {stop k done : Nat} {excepts excepts' : ExceptArms} {body : StmtList} {labels : List Nat}
    {es : List Expr} (c : Ctx r prog cap slack F bc) (hlen : excepts.length = labels.length)
    (hg : Grows r ((s.emitExtended .eopTryExcept).emitByte excepts.length) F)
    (hge : Grows r (u.emitExtended .eopEndExcept) F)
    (hle : s.pos bc.widths + 3 ≤ u.pos bc.widths) (hstop : u.pos bc.widths + 2 ≤ stop)
    (hbody : Appends r prog cap bc stop (s.pos bc.widths + 3) (u.pos bc.widths) es body)
    (hdone : readBytes bc.vector bc.numbytesLabel (u.pos bc.widths + 2) = .ok done)
    (hhandlers : ∃ n, ∀ fuel ≥ n, readHandlers r (decompile r prog cap fuel) bc done
      (excepts.handlers prog bc.widths F labels) (u.pos bc.widths + 2 + bc.numbytesLabel) es
        = .ok (excepts', done, es)) (b : Bool) (ss : StmtList) (as : CondArms) :
    Runs r prog cap ⟨bc, stop, true, b⟩
      ⟨s.pos bc.widths, excepts.handlerStack prog bc.widths F labels es, ss, as, k⟩
      ⟨done, es, ss.append (.cons (.tryExcept body excepts') .nil), as, done⟩ := by
  obtain ⟨n, hn⟩ := c.decompile_end hbody hge hstop (.inr (.inl rfl))
  obtain ⟨m, hm⟩ := hhandlers
  have hcount := c.linked.read_emitByte hg
  have hend := (c.linked.read_emitExtended hge).2
  have hpop : popHandlers excepts.length [] (excepts.handlerStack prog bc.widths F labels es)
      = .ok (excepts.handlers prog bc.widths F labels, es) := by
    have h : popHandlers (excepts.length + 0) [] (excepts.handlerStack prog bc.widths F labels es)
        = popHandlers 0 (excepts.handlers prog bc.widths F labels ++ []) es :=
      popHandlers_handlerStack bc.widths F excepts labels hlen 0 [] es
    rwa [Nat.add_zero, List.append_nil] at h
  have hsound : excepts.length < 256 := c.linked.content_isSound hg.cells
  rw [State.pos_emitExtended] at hcount
  refine c.appends_ext ((Grows.emitByte hsound).trans hg) (by omega)
    ⟨max n m, fun fuel hfuel b st hst _ => ?_⟩ b ss as
  have hrec := hn fuel (by omega)
  have hrec' := hm fuel (by omega)
  simp only [decompileExt, hcount, hst, hpop, hrec, hend, hdone, hrec', bind, Except.bind, ne_eq,
    not_true_eq_false, if_false]

lemma yields_stmt_tryExcept {body : StmtList} {excepts : ExceptArms}
    (hb : (Stmt.tryExcept body excepts).isBuilt loops = true)
    (hw : (Stmt.tryExcept body excepts).isWithin lim = true)
    (ib : YieldsStmts r prog cap loops (generateStmts r body)
      (body.mapLiterals (canonLiteral prog.literals)))
    (ie : YieldsExcepts r prog cap loops excepts
      (excepts.mapLiterals (canonLiteral prog.literals))) :
    YieldsStmts r prog cap loops (generateStmt r (.tryExcept body excepts))
      (.cons ((Stmt.tryExcept body excepts).mapLiterals (canonLiteral prog.literals)) .nil) := by
  intro slack F bc c s t h hl hloops hs hg stop hstop es hlen
  have harms := hlim.arms
  simp only [Stmt.isBuilt, Stmt.isWithin, Bool.and_eq_true, decide_eq_true_eq] at hb hw
  simp only [generateStmt, Except.bind_eq_ok] at h
  obtain ⟨⟨labels, s₁⟩, h₁, s₃, h₃, s₅, h₅, h⟩ := h
  obtain rfl := Except.ok.inj h
  dsimp only at h₃ h₅ hg hloops hstop ⊢
  obtain ⟨k₁, hc₁, hlen₁, hnodup, hlabels⟩ := keeps_of_generateHandlers hlim.toIsByte hb.2 hw.2 h₁
  have kb : Keeps r s₁ (((s₁.emitExtended .eopTryExcept).emitByte excepts.length).pushStack 1) :=
    (Keeps.emitExtended _).trans ((Keeps.emitByte (by omega)).trans (Keeps.pushStack 1))
  have hc₂ : (((s₁.emitExtended .eopTryExcept).emitByte excepts.length).pushStack
      1).incrTryDepth.curStack = s₁.curStack + 1 := rfl
  have k₂ := k₁.trans kb
  have hl₂ : (((s₁.emitExtended .eopTryExcept).emitByte excepts.length).pushStack
      1).incrTryDepth.loops.map (·.slot) = loops := (congrArg _ k₂.loops).trans hl
  have f₃ := frame_of_generateStmts hlim.toIsByte hb.1.2 hw.1.2 hl₂ h₃
  have k₃ := k₂.decrTryDepth f₃.toKeeps
  have k₄ : Keeps r s ((s₃.decrTryDepth.emitExtended .eopEndExcept).addLabel.popStack
      (2 * excepts.length + 1)) :=
    k₃.trans ((Keeps.emitExtended _).trans (Keeps.addLabel.trans (Keeps.popStack _)))
  have hnone₃ (id : Nat) (hid : id ∈ labels) : s₃.labels[id]? = some none :=
    f₃.getElem?_labels (kb.getElem?_labels (hlabels id hid).2)
  have hnone₄ (id : Nat) (hid : id ∈ labels) : ((s₃.decrTryDepth.emitExtended
      .eopEndExcept).addLabel.popStack (2 * excepts.length + 1)).labels[id]? = some none :=
    (Keeps.addLabel (r := r) (s := s₃.decrTryDepth.emitExtended .eopEndExcept)).getElem?_labels
      (hnone₃ id hid)
  have hc₄ : ((s₃.decrTryDepth.emitExtended .eopEndExcept).addLabel.popStack
      (2 * excepts.length + 1)).curStack = s.curStack := by
    change s₃.curStack - (2 * excepts.length + 1) = _
    rw [f₃.curStack, hc₂, hc₁]
    omega
  have p₅ := places_of_generateExcepts hlim.toIsByte hb.2 hw.2 hlen₁.symm hnodup (k₄.loops ▸ hl)
    hnone₄ h₅
  have hnone₅ : s₅.labels[s₃.labels.length]? = some none := by
    refine p₅.labels _ _ (fun hid => ?_) (State.getElem?_addLabel (s₃.decrTryDepth.emitExtended
      .eopEndExcept))
    exact absurd (List.getElem?_eq_some_iff.mp (hnone₃ _ hid)).1 (Nat.lt_irrefl _)
  have g₅ : Grows r s₅ F := (Grows.defineLabel hnone₅).trans hg
  have gl : Grows r (s₃.decrTryDepth.emitExtended .eopEndExcept).addLabel F :=
    (Grows.popStack _).trans (p₅.grows.trans g₅)
  have ge : Grows r (s₃.decrTryDepth.emitExtended .eopEndExcept) F := Grows.addLabel.trans gl
  have g₃ : Grows r s₃ F := Grows.decrTryDepth.trans ((Grows.emitExtended _).trans ge)
  have gb : Grows r ((s₁.emitExtended .eopTryExcept).emitByte excepts.length) F :=
    (Grows.pushStack 1).trans (Grows.incrTryDepth.trans (f₃.grows.trans g₃))
  have hs₄ := k₄.grows.sound hs
  have hend := State.labelPos_of_defineLabel c.linked (p₅.grows.sound hs₄)
    (List.getElem?_eq_some_iff.mp hnone₅).1 hg
  have hpF := g₅.pos_le bc.widths
  have hp₂ := k₂.grows.pos_le bc.widths
  have hp₃ := f₃.grows.pos_le bc.widths
  have hp₄ := k₄.grows.pos_le bc.widths
  have hp₅ := p₅.grows.pos_le bc.widths
  have hdone : readBytes bc.vector bc.numbytesLabel ((s₃.decrTryDepth.emitExtended
      .eopEndExcept).pos bc.widths) = .ok (s₅.pos bc.widths) := by
    rw [← hend] at hpF ⊢
    exact c.linked.read_addLabel gl hpF
  simp only [State.pos_pushStack, State.pos_popStack, State.pos_incrTryDepth,
    State.pos_decrTryDepth, State.pos_emitExtended, State.pos_emitByte, State.pos_addLabel,
    State.pos_defineLabel, Bytecodes.widths_label] at hstop hp₂ hp₃ hp₄ hp₅ hdone ⊢
  obtain ⟨hle, -, hhandlers⟩ := ie c h₅ (k₄.loops ▸ hl) (hloops.mono k₄.loops
    (k₄.grows.pos_le _) (Nat.le_refl _)) hs₄ hlen₁.symm hnodup hnone₄ g₅ hend (hc₄ ▸ hlen)
  have hbody : Appends r prog cap bc stop _ _ es _ := ib c h₃ hl₂ (hloops.mono k₂.loops
    (k₂.grows.pos_le _) (by simpa using by omega)) (Grows.incrTryDepth.sound (k₂.grows.sound hs))
    g₃ (by omega) (by rw [hc₂, hc₁]; omega)
  simp only [State.pos_pushStack, State.pos_popStack, State.pos_incrTryDepth,
    State.pos_decrTryDepth, State.pos_emitExtended, State.pos_emitByte, State.pos_addLabel,
    Bytecodes.widths_label] at hbody hhandlers
  refine (generateHandlers_yields hlim c excepts hb.2 hw.2 h₁ hs
    ((Grows.emitExtended _).trans ((Grows.emitByte (by omega)).trans gb))
    (fun id hid => Nat.le_trans (hle id hid) hpF) (by omega) hlen).appends
    (c.appends_tryExcept (u := s₃.decrTryDepth) hlen₁.symm gb ge hp₃ ?_ hbody hdone hhandlers)
  rw [State.pos_decrTryDepth]
  omega

/-! ### Any statements -/

lemma yields_stmts_cons {stmt : Stmt} {next : StmtList}
    (hb : (StmtList.cons stmt next).isBuilt loops = true)
    (hw : (StmtList.cons stmt next).isWithin lim = true) {new new' : StmtList}
    (is : YieldsStmts r prog cap loops (generateStmt r stmt) new)
    (inext : YieldsStmts r prog cap loops (generateStmts r next) new') :
    YieldsStmts r prog cap loops (generateStmts r (.cons stmt next)) (new.append new') := by
  intro slack F bc c s t h hl hloops hs hg stop hstop es hlen
  simp only [StmtList.isBuilt, StmtList.isWithin, Bool.and_eq_true] at hb hw
  simp only [generateStmts, Except.bind_eq_ok] at h
  obtain ⟨s₁, h₁, h₂⟩ := h
  have f₁ := frame_of_generateStmt hlim.toIsByte hb.1 hw.1 hl h₁
  have f₂ := frame_of_generateStmts hlim.toIsByte hb.2 hw.2 (f₁.loops ▸ hl) h₂
  have hp₁ := f₁.grows.pos_le bc.widths
  have hp₂ := f₂.grows.pos_le bc.widths
  have hfirst := is c h₁ hl (hloops.mono rfl (Nat.le_refl _) hp₂) hs (f₂.grows.trans hg)
    (Nat.le_trans hp₂ hstop) hlen
  have hrest := inext c h₂ (f₁.loops ▸ hl) (hloops.mono f₁.loops hp₁ (Nat.le_refl _))
    (f₁.grows.sound hs) hg hstop (by rw [f₁.curStack]; exact hlen)
  exact hfirst.trans hrest

mutual
lemma generateStmts_yields (ss : StmtList) {loops : List (Option Nat)}
    (hb : ss.isBuilt loops = true) (hw : ss.isWithin lim = true) :
    YieldsStmts r prog cap loops (generateStmts r ss)
      (ss.mapLiterals (canonLiteral prog.literals)) := by
  match ss with
  | .nil =>
    intro slack F bc c s t h hl hloops hs hg stop hstop es hlen
    obtain rfl := Except.ok.inj h
    exact Appends.refl _ _
  | .cons stmt next =>
    have hb' := hb
    have hw' := hw
    simp only [StmtList.isBuilt, StmtList.isWithin, Bool.and_eq_true] at hb' hw'
    exact yields_stmts_cons hlim hb hw (generateStmt_yields stmt hb'.1 hw'.1)
      (generateStmts_yields next hb'.2 hw'.2)

lemma generateStmt_yields (stmt : Stmt) {loops : List (Option Nat)}
    (hb : stmt.isBuilt loops = true) (hw : stmt.isWithin lim = true) :
    YieldsStmts r prog cap loops (generateStmt r stmt)
      (.cons (stmt.mapLiterals (canonLiteral prog.literals)) .nil) := by
  have hb' := hb
  have hw' := hw
  match stmt with
  | .expr e => exact yields_stmt_expr hlim hb hw
  | .ret none => exact yields_stmt_ret_none
  | .ret (some e) => exact yields_stmt_ret hlim hb hw
  | .brk exit => exact yields_stmt_brk hlim hb hw
  | .cont exit => exact yields_stmt_cont hlim hb hw
  | .list slot e body =>
    simp only [Stmt.isBuilt, Stmt.isWithin, Bool.and_eq_true] at hb' hw'
    exact yields_stmt_list hlim hb hw (generateStmts_yields body hb'.2 hw'.2)
  | .range slot lo hi body =>
    simp only [Stmt.isBuilt, Stmt.isWithin, Bool.and_eq_true] at hb' hw'
    exact yields_stmt_range hlim hb hw (generateStmts_yields body hb'.2 hw'.2)
  | .loop slot c body =>
    simp only [Stmt.isBuilt, Stmt.isWithin, Bool.and_eq_true] at hb' hw'
    exact yields_stmt_loop hlim hb hw (generateStmts_yields body hb'.2 hw'.2)
  | .fork slot time body =>
    simp only [Stmt.isBuilt, Stmt.isWithin, Bool.and_eq_true] at hb' hw'
    exact yields_stmt_fork hlim hb hw (generateStmts_yields body hb'.2 hw'.2)
  | .cond .nil otherwise => simp [Stmt.isBuilt] at hb'
  | .cond (.cons c ss next) otherwise =>
    simp only [Stmt.isBuilt, Stmt.isWithin, CondArms.isBuilt, CondArms.isWithin,
      Bool.and_eq_true] at hb' hw'
    exact yields_stmt_cond hlim hb hw (generateStmts_yields ss hb'.1.2.1.2 hw'.1.1.2)
      (generateArms_yields next hb'.1.2.2 hw'.1.2) (generateStmts_yields otherwise hb'.2 hw'.2)
  | .tryExcept body excepts =>
    simp only [Stmt.isBuilt, Stmt.isWithin, Bool.and_eq_true] at hb' hw'
    exact yields_stmt_tryExcept hlim hb hw (generateStmts_yields body hb'.1.2 hw'.1.2)
      (generateExcepts_yields excepts hb'.2 hw'.2)
  | .tryFinally body handler =>
    simp only [Stmt.isBuilt, Stmt.isWithin, Bool.and_eq_true] at hb' hw'
    exact yields_stmt_tryFinally hlim hb hw (generateStmts_yields body hb'.1 hw'.1)
      (generateStmts_yields handler hb'.2 hw'.2)

lemma generateArms_yields (arms : CondArms) {loops : List (Option Nat)}
    (hb : arms.isBuilt loops = true) (hw : arms.isWithin lim = true) :
    YieldsArms r prog cap loops arms (arms.mapLiterals (canonLiteral prog.literals)) := by
  match arms with
  | .nil => exact yields_arms_nil
  | .cons c ss next =>
    have hb' := hb
    have hw' := hw
    simp only [CondArms.isBuilt, CondArms.isWithin, Bool.and_eq_true] at hb' hw'
    exact yields_arms_cons hlim hb hw (generateStmts_yields ss hb'.1.2 hw'.1.2)
      (generateArms_yields next hb'.2 hw'.2)

lemma generateExcepts_yields (arms : ExceptArms) {loops : List (Option Nat)}
    (hb : arms.isBuilt loops = true) (hw : arms.isWithin lim = true) :
    YieldsExcepts r prog cap loops arms (arms.mapLiterals (canonLiteral prog.literals)) := by
  match arms with
  | .nil => exact yields_excepts_nil
  | .cons slot codes ss next =>
    have hb' := hb
    have hw' := hw
    simp only [ExceptArms.isBuilt, ExceptArms.isWithin, Bool.and_eq_true] at hb' hw'
    exact yields_excepts_cons hlim hb hw (generateStmts_yields ss hb'.1.2 hw'.1.2)
      (generateExcepts_yields next hb'.2 hw'.2)
end

end

end LambdaMOO
