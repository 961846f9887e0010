import LambdaMOO.Decompile.Stmt
import LambdaMOO.CodeGen.Pool

/-!
# Decompiling a program

Decompiling the code of a tree gives the tree back, with each literal replaced by the entry
it was pooled with. `add_literal` compares floats with `==`, so the two zeros share an entry
and one of them comes back with the wrong sign; nothing else is lost.
-/

namespace LambdaMOO

/-- The sizes under which code can be decompiled: only the opcodes of the first
`NUM_READY_VARS` variables are told apart from other bytes by `finish_indexed_assignment`. -/
def decompileLimits : Limits := ⟨numReadyVars, 255, 254⟩

lemma decompileLimits_isReady : decompileLimits.IsReady where
  slots := by decide
  arms := by decide
  targets := by decide
  ready := by decide

/-- Every vector of a program fits the stack operands of its code. -/
def Program.IsShallow (prog : Program) : Prop :=
  prog.mainVector.maxStack ≤ 255 ∧ ∀ bc ∈ prog.forkVectors, bc.maxStack ≤ 255

/-- The two zeros. -/
def FlNum.zero (neg : Bool) : FlNum := ⟨neg, 0⟩

/-- A tree in which both a positive and a negative zero are written. -/
def StmtList.MixesZeros (ss : StmtList) : Prop :=
  .float (.zero false) ∈ ss.literals ∧ .float (.zero true) ∈ ss.literals

section

variable {r : Bool} {ss : StmtList} {prog : Program}

lemma generateCode_eq_ok (h : generateCode r ss = .ok prog) :
    ∃ T, generateStmts r ss (State.init initGState) = .ok T ∧
      finishCode r T = .ok prog.mainVector ∧ prog.literals = T.gstate.literals ∧
      prog.forkVectors = T.gstate.forkVectors := by
  simp only [generateCode, stmtToCode, Except.bind_eq_ok] at h
  obtain ⟨⟨bc, g⟩, ⟨T, hT, bc', hbc, hpair⟩, h⟩ := h
  obtain ⟨rfl, rfl⟩ := Prod.mk.inj (Except.ok.inj hpair)
  obtain rfl := Except.ok.inj h
  exact ⟨T, hT, hbc, rfl, rfl⟩

/-- The generator accepts every tree the parser can build within the limits. -/
lemma exists_generateCode {lim : Limits} (hlim : lim.IsByte) (hb : ss.isBuilt [] = true)
    (hw : ss.isWithin lim = true) : ∃ prog, generateCode r ss = .ok prog := by
  obtain ⟨T, hT, f⟩ := generateStmts_frame hlim (r := r) ss hb hw (State.init initGState) rfl
  obtain ⟨bc, hbc⟩ := finishCode_of_frame f
  refine ⟨⟨bc, T.gstate.literals, T.gstate.forkVectors⟩, ?_⟩
  simp only [generateCode, stmtToCode, Except.bind_eq_ok]
  exact ⟨_, ⟨T, hT, bc, hbc, rfl⟩, rfl⟩

/-- `decompile` undoes `generate_code` up to pooled literals, without a panic. -/
lemma decompileProgram_eq_mapLiterals (hb : ss.isBuilt [] = true)
    (hw : ss.isWithin decompileLimits = true) (h : generateCode r ss = .ok prog)
    (hstack : prog.IsShallow) :
    ∃ n, ∀ fuel ≥ n, decompileProgram r prog fuel
      = .ok (ss.mapLiterals (canonLiteral prog.literals)) := by
  obtain ⟨T, hT, hcode, hlits, hforks⟩ := generateCode_eq_ok h
  have hlim := decompileLimits_isReady
  have f := frame_of_generateStmts hlim.toIsByte hb hw rfl hT
  have hmax := finishCode_maxStack hcode
  have hsound : T.IsSound r := f.grows.sound (State.isSound_init r _)
  have c : Ctx r prog prog.stackSum 0 T prog.mainVector := by
    refine ⟨⟨hcode, hsound, hmax ▸ hstack.1⟩, ?_, ?_, hstack.2, ?_⟩
    · exact hlits ▸ List.prefix_refl _
    · exact hforks ▸ List.prefix_refl _
    · rw [Program.stackSum, hmax, hforks, Nat.zero_add]
  have happ : Appends r prog prog.stackSum prog.mainVector prog.mainVector.size _ _ [] _ :=
    generateStmts_yields hlim ss hb hw c hT rfl (by rintro _ ⟨⟩) (State.isSound_init r _) (Grows.refl T)
      (by rw [c.linked.size_eq]; omega) (Nat.zero_le _)
  obtain ⟨n, hn⟩ := c.decompile_vector happ
  refine ⟨n, fun fuel hfuel => ?_⟩
  simp only [decompileProgram, hn fuel hfuel, bind, Except.bind]
  rfl

/-! ### Which literals come back -/

lemma canonLiteral_mem_or (lits : List Literal) (v : Literal) :
    canonLiteral lits v = v ∨
      canonLiteral lits v ∈ lits ∧ v.equality (canonLiteral lits v) = true := by
  unfold canonLiteral
  cases h : lits.find? v.equality with
  | none => exact .inl rfl
  | some w => exact .inr ⟨List.mem_of_find?_eq_some h, List.find?_some h⟩

/-- The zeros have the same entry. -/
lemma canonLiteral_zero {lits : List Literal} {w : Literal} (hw : w ∈ lits)
    (h : (Literal.float (.zero false)).equality w = true) :
    canonLiteral lits (.float (.zero true)) = canonLiteral lits (.float (.zero false)) := by
  have hfun : (Literal.float (.zero true)).equality = (Literal.float (.zero false)).equality := by
    funext v
    have hz : (Literal.float (.zero true)).equality (.float (.zero false)) = true := rfl
    have hz' : (Literal.float (.zero false)).equality (.float (.zero true)) = true := rfl
    exact Bool.eq_iff_iff.mpr ⟨Literal.equality_trans hz', Literal.equality_trans hz⟩
  have hsome : (lits.find? (Literal.float (.zero false)).equality).isSome = true :=
    List.find?_isSome.mpr ⟨w, hw, h⟩
  obtain ⟨v, hv⟩ := Option.isSome_iff_exists.mp hsome
  rw [canonLiteral, canonLiteral, hfun, hv]
  rfl

/-- Every literal comes back exactly when the zeros are not mixed. -/
lemma forall_canonLiteral_iff {l lits : List Literal} (h : Pools l [] lits) :
    (∀ v ∈ l, canonLiteral lits v = v) ↔
      ¬ (.float (.zero false) ∈ l ∧ .float (.zero true) ∈ l) := by
  constructor
  · rintro hall ⟨hpos, hneg⟩
    obtain ⟨w, hw, heq⟩ := h.pooled _ hpos
    have hcanon := canonLiteral_zero hw heq
    rw [hall _ hneg, hall _ hpos] at hcanon
    exact absurd hcanon (by decide)
  · intro hmix v hv
    rcases canonLiteral_mem_or lits v with heq | ⟨hmem, heq⟩
    · exact heq
    rcases Literal.eq_or_zero_of_equality heq with heq | ⟨f, g, rfl, hg, hf₀, hg₀⟩
    · exact heq.symm
    -- two zeros: their signs agree, since the entry is also a literal of the tree
    have hg' : Literal.float g ∈ l := hg ▸ (h.mem _ hmem).resolve_left (by rintro ⟨⟩)
    obtain ⟨sf, mf⟩ := f
    obtain ⟨sg, mg⟩ := g
    obtain rfl : mf = 0 := hf₀
    obtain rfl : mg = 0 := hg₀
    rw [hg]
    match sf, sg with
    | false, false | true, true => rfl
    | false, true => exact absurd ⟨hv, hg'⟩ hmix
    | true, false => exact absurd ⟨hg', hv⟩ hmix

end

/-- For a tree the parser can build, with variable slots below `NUM_READY_VARS`, at most 255
except arms, at most 254 scatter targets and no vector deeper than 255: generating code and
decompiling it gives the tree back if and only if it does not mix the two zeros. -/
theorem decompile_generateCode_iff {r : Bool} {ss : StmtList} (hb : ss.isBuilt [] = true)
    (hw : ss.isWithin decompileLimits = true) :
    ∃ prog, generateCode r ss = .ok prog ∧ (prog.IsShallow →
      ((∃ n, ∀ fuel ≥ n, decompileProgram r prog fuel = .ok ss) ↔ ¬ ss.MixesZeros)) := by
  obtain ⟨prog, h⟩ := exists_generateCode (r := r) decompileLimits_isReady.toIsByte hb hw
  refine ⟨prog, h, fun hstack => ?_⟩
  obtain ⟨n, hn⟩ := decompileProgram_eq_mapLiterals hb hw h hstack
  obtain ⟨T, hT, -, hlits, -⟩ := generateCode_eq_ok h
  have hpools : Pools ss.literals [] prog.literals := hlits ▸ generateStmts_pools ss hT
  have hself := ss.mapLiterals_eq_self (canonLiteral prog.literals)
  rw [StmtList.MixesZeros, ← forall_canonLiteral_iff hpools, ← hself]
  constructor
  · rintro ⟨m, hm⟩
    have h₁ := hn (max n m) (Nat.le_max_left _ _)
    have h₂ := hm (max n m) (Nat.le_max_right _ _)
    exact Except.ok.inj (h₁.symm.trans h₂)
  · intro heq
    exact ⟨n, fun fuel hfuel => heq ▸ hn fuel hfuel⟩

/-- A small program with a named loop, an indexed assignment, a handler and a fork:
`while c (1) try a[2] = 0.5; except e (ANY) break c; endtry endwhile fork (5) a; endfork`. -/
def sampleStmts : StmtList :=
  .cons (.loop (some 2) (.var (.int 1)) (.cons (.tryExcept
    (.cons (.expr (.asgn (.index (.id 0) (.var (.int 2))) (.var (.float ⟨false, 5⟩)))) .nil)
    (.cons (some 1) .nil (.cons (.brk (some 2)) .nil) .nil)) .nil))
  (.cons (.fork none (.var (.int 5)) (.cons (.expr (.id 0)) .nil)) .nil)

theorem decompile_sampleStmts :
    sampleStmts.isBuilt [] = true ∧ sampleStmts.isWithin decompileLimits = true ∧
      ∃ prog, generateCode true sampleStmts = .ok prog ∧ (prog.IsShallow →
        ((∃ n, ∀ fuel ≥ n, decompileProgram true prog fuel = .ok sampleStmts) ↔
          ¬ sampleStmts.MixesZeros)) :=
  ⟨by decide, by decide, decompile_generateCode_iff (by decide) (by decide)⟩

/-- The statement `return {0.0, x};` for a zero `x`. -/
def returnZeros (neg : Bool) : StmtList :=
  .cons (.ret (some (.list (.cons .normal (.var (.float (.zero false)))
    (.cons .normal (.var (.float (.zero neg))) .nil))))) .nil

/-- `return {0.0, -0.0};` comes back as `return {0.0, 0.0};`. -/
theorem decompile_returnZeros :
    (returnZeros true).isBuilt [] = true ∧ (returnZeros true).isWithin decompileLimits = true ∧
      ∃ prog, generateCode true (returnZeros true) = .ok prog ∧ prog.IsShallow ∧
        (∃ n, ∀ fuel ≥ n, decompileProgram true prog fuel = .ok (returnZeros false)) ∧
        ¬ ∃ n, ∀ fuel ≥ n, decompileProgram true prog fuel = .ok (returnZeros true) := by
  have hb : (returnZeros true).isBuilt [] = true := by decide
  have hw : (returnZeros true).isWithin decompileLimits = true := by decide
  refine ⟨hb, hw, _, rfl, ⟨by decide, by rintro _ ⟨⟩⟩, ?_⟩
  obtain ⟨n, hn⟩ := decompileProgram_eq_mapLiterals (r := true) hb hw rfl ⟨by decide, by rintro _ ⟨⟩⟩
  refine ⟨⟨n, fun fuel hfuel => (hn fuel hfuel).trans (by decide)⟩, ?_⟩
  rintro ⟨m, hm⟩
  have heq := (hn (max n m) (Nat.le_max_left _ _)).symm.trans (hm _ (Nat.le_max_right _ _))
  exact absurd heq (by decide)

end LambdaMOO
