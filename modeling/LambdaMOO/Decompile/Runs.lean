import LambdaMOO.Decompile.Basic
import LambdaMOO.Decompile.Canon
import LambdaMOO.CodeGen.Layout
import LambdaMOO.CodeGen.FrameStmt

/-!
# Runs of the decompiler

`Decomp f st st'` says that a call of `decompile` that has reached `st` returns `st'`, with
any fuel from some amount on; `Runs f st st'` that its loop gets from `st` to `st'`. Below
are the rules by which the code of a generator state is run.
-/

namespace LambdaMOO

def Decomp (r : Bool) (prog : Program) (cap : Nat) (f : Region) (st st' : DState) : Prop :=
  ∃ n, ∀ fuel ≥ n, decompileLoop r prog cap fuel f st = .ok st'

/-- One instruction, with the nested calls given enough fuel. -/
def Steps (r : Bool) (prog : Program) (cap : Nat) (f : Region) (op : Opcode) (ptr : Nat)
    (st : DState) (res : Step) : Prop :=
  ∃ n, ∀ fuel ≥ n, decompileOp r prog cap (decompile r prog cap fuel) f op ptr st = .ok res

def Runs (r : Bool) (prog : Program) (cap : Nat) (f : Region) (st st₁ : DState) : Prop :=
  ∀ st', Decomp r prog cap f st₁ st' → Decomp r prog cap f st st'

section

variable {r : Bool} {prog : Program} {cap : Nat} {f : Region} {op : Opcode}
  {st st₁ st₂ st' : DState}

lemma Decomp.done (h : st.ptr = f.stop) : Decomp r prog cap f st st := by
  refine ⟨1, fun fuel hfuel => ?_⟩
  obtain ⟨k, rfl⟩ : ∃ k, fuel = k + 1 := ⟨fuel - 1, by omega⟩
  rw [decompileLoop, if_neg (by omega), if_neg (by simp [h])]
  rfl

/-- The loop on an instruction that goes on. -/
lemma Steps.decomp_next (hlt : st.ptr < f.stop) (hv : op.IsValid r)
    (hread : readByte f.bc.vector st.ptr = .ok (op.code r))
    (h : Steps r prog cap f op (st.ptr + 1) st (.next st₁))
    (hd : Decomp r prog cap f st₁ st') : Decomp r prog cap f st st' := by
  obtain ⟨n, hn⟩ := h
  obtain ⟨m, hm⟩ := hd
  refine ⟨max n m + 1, fun fuel hfuel => ?_⟩
  obtain ⟨k, rfl⟩ : ∃ k, fuel = k + 1 := ⟨fuel - 1, by omega⟩
  have hstep : decompileOp r prog cap (fun f ptr es => decompileLoop r prog cap k f
    ⟨ptr, es, .nil, .nil, ptr⟩) f op (st.ptr + 1) st = _ := hn k (by omega)
  simp only [decompileLoop, if_pos hlt, hread, bind, Except.bind, Opcode.ofCode_code hv, hstep]
  exact hm k (by omega)

/-- The loop on an instruction that returns. -/
lemma Steps.decomp_ret (hlt : st.ptr < f.stop) (hv : op.IsValid r)
    (hread : readByte f.bc.vector st.ptr = .ok (op.code r))
    (h : Steps r prog cap f op (st.ptr + 1) st (.ret st')) : Decomp r prog cap f st st' := by
  obtain ⟨n, hn⟩ := h
  refine ⟨n + 1, fun fuel hfuel => ?_⟩
  obtain ⟨k, rfl⟩ : ∃ k, fuel = k + 1 := ⟨fuel - 1, by omega⟩
  have hstep : decompileOp r prog cap (fun f ptr es => decompileLoop r prog cap k f
    ⟨ptr, es, .nil, .nil, ptr⟩) f op (st.ptr + 1) st = _ := hn k (by omega)
  simp only [decompileLoop, if_pos hlt, hread, bind, Except.bind, Opcode.ofCode_code hv, hstep]
  rfl

lemma Runs.refl (st : DState) : Runs r prog cap f st st := fun _ h => h

lemma Runs.trans (h : Runs r prog cap f st st₁) (k : Runs r prog cap f st₁ st₂) :
    Runs r prog cap f st st₂ :=
  fun st' hd => h st' (k st' hd)

/-- An instruction without nested calls. -/
lemma Steps.of_forall {ptr : Nat} {res : Step}
    (h : ∀ rec, decompileOp r prog cap rec f op ptr st = .ok res) :
    Steps r prog cap f op ptr st res :=
  ⟨0, fun _ _ => h _⟩

/-- A nested call that runs to its end pointer. -/
lemma Runs.decomp {ptr ptr' : Nat} {es es' : List Expr} {ss : StmtList} {as : CondArms}
    {start : Nat}
    (h : Runs r prog cap f ⟨ptr, es, .nil, .nil, ptr⟩ ⟨ptr', es', ss, as, start⟩)
    (hstop : ptr' = f.stop) :
    ∃ n, ∀ fuel ≥ n, decompile r prog cap fuel f ptr es = .ok ⟨ptr', es', ss, as, start⟩ :=
  h _ (Decomp.done hstop)

lemma pushNode_ok {ptr : Nat} {e : Expr} {es : List Expr} (h : es.length < cap) :
    pushNode cap ptr e es st = .ok (.next { st with ptr := ptr, exprs := e :: es }) := by
  simp only [pushNode, pushExpr, if_pos h]
  rfl

end

/-! ### Running generated code -/

/-- The literal the decompiler finds for `v`: the first entry equal to it. -/
def canonLiteral (lits : List Literal) (v : Literal) : Literal :=
  (lits.find? v.equality).getD v

/-- What is known about the vector that is being decompiled. The expression stack may hold
`slack` expressions from the vectors around it. -/
structure Ctx (r : Bool) (prog : Program) (cap slack : Nat) (F : State) (bc : Bytecodes) :
    Prop where
  linked : Linked r F bc
  literals : F.gstate.literals <+: prog.literals
  forkVectors : F.gstate.forkVectors <+: prog.forkVectors
  stack_le : ∀ b ∈ prog.forkVectors, b.maxStack ≤ 255
  cap : slack + F.maxStack + (F.gstate.forkVectors.map Bytecodes.maxStack).sum ≤ cap

namespace Ctx

variable {r : Bool} {prog : Program} {cap slack : Nat} {F : State} {bc : Bytecodes}
  {stop : Nat} {a b : Bool} {s t : State} {es : List Expr} {st st₁ : DState}

lemma runs_emitOp {o : Opcode} (c : Ctx r prog cap slack F bc) (hg : Grows r (s.emitOp o) F)
    (hptr : st.ptr = s.pos bc.widths) (hstop : s.pos bc.widths + 1 ≤ stop)
    (h : Steps r prog cap ⟨bc, stop, a, b⟩ o (s.pos bc.widths + 1) st (.next st₁)) :
    Runs r prog cap ⟨bc, stop, a, b⟩ st st₁ := by
  rw [← hptr] at h hstop
  exact fun st' hd => h.decomp_next hstop (c.linked.content_isSound hg.cells)
    (hptr ▸ c.linked.read_emitOp hg) hd

/-- A node pushed by an extended opcode, or a statement it makes. -/
lemma runs_emitExtended {o : ExtOpcode} (c : Ctx r prog cap slack F bc)
    (hg : Grows r (s.emitExtended o) F) (hptr : st.ptr = s.pos bc.widths)
    (hstop : s.pos bc.widths + 2 ≤ stop)
    (h : ∃ n, ∀ fuel ≥ n, decompileExt r cap (decompile r prog cap fuel) ⟨bc, stop, a, b⟩ o
      (s.pos bc.widths + 2) st = .ok (.next st₁)) :
    Runs r prog cap ⟨bc, stop, a, b⟩ st st₁ := by
  obtain ⟨hop, heop⟩ := c.linked.read_emitExtended hg
  obtain ⟨n, hn⟩ := h
  have hstep : Steps r prog cap ⟨bc, stop, a, b⟩ .opExtended (st.ptr + 1) st (.next st₁) := by
    refine ⟨n, fun fuel hfuel => ?_⟩
    rw [hptr]
    simp only [decompileOp, heop, ExtOpcode.ofCode_code, bind, Except.bind]
    exact hn fuel hfuel
  have hlt : st.ptr < stop := by omega
  have hv : Opcode.opExtended.IsValid r := trivial
  exact fun st' hd => hstep.decomp_next hlt hv (hptr ▸ hop) hd

/-- The end of a protected region ends the call. -/
lemma decomp_end {o : ExtOpcode} (c : Ctx r prog cap slack F bc)
    (hg : Grows r (s.emitExtended o) F) (hptr : st.ptr = s.pos bc.widths)
    (hstop : s.pos bc.widths + 2 ≤ stop)
    (ho : o = .eopEndCatch ∨ o = .eopEndExcept ∨ o = .eopEndFinally ∨ o = .eopContinue) :
    Decomp r prog cap ⟨bc, stop, a, b⟩ st st := by
  obtain ⟨hop, heop⟩ := c.linked.read_emitExtended hg
  have hstep : Steps r prog cap ⟨bc, stop, a, b⟩ .opExtended (st.ptr + 1) st (.ret st) := by
    refine ⟨0, fun fuel _ => ?_⟩
    have hst : { st with ptr := s.pos bc.widths + 1 + 1 - 2 } = st := by
      rw [show s.pos bc.widths + 1 + 1 - 2 = st.ptr by omega]
    rw [hptr]
    rcases ho with rfl | rfl | rfl | rfl <;>
      simp only [decompileOp, heop, ExtOpcode.ofCode_code, decompileExt, bind, Except.bind, hst,
        pure, Except.pure]
  have hlt : st.ptr < stop := by omega
  have hv : Opcode.opExtended.IsValid r := trivial
  exact hstep.decomp_ret hlt hv (hptr ▸ hop)

/-- The expression stack has room for what the static stack has room for. -/
lemma lt_cap (c : Ctx r prog cap slack F bc) (hs : s.IsSound r) (hg : Grows r s F)
    (hlen : es.length + 1 ≤ slack + s.curStack) : es.length < cap := by
  have h₁ := c.cap
  have h₂ := hs.stack
  have h₃ := hg.maxStack
  omega

end Ctx

end LambdaMOO
