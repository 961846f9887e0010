import LambdaMOO.Decompile.Canon
import LambdaMOO.CodeGen.FrameStmt

/-!
# The literal table

`add_literal` appends a literal unless the table has an equal one. Every entry therefore
comes from the tree, and every literal that is not coded into an opcode has an equal entry.
-/

namespace LambdaMOO

/-- The table grows from `a` to `b` by the literals in `l`. -/
structure Pools (l a b : List Literal) : Prop where
  subset : a ⊆ b
  mem : ∀ w ∈ b, w ∈ a ∨ w ∈ l
  pooled : ∀ f, Literal.float f ∈ l → ∃ w ∈ b, (Literal.float f).equality w = true

namespace Pools

variable {l l' a b c : List Literal}

lemma refl (a : List Literal) : Pools [] a a :=
  ⟨List.Subset.refl a, fun _ h => .inl h, by rintro _ ⟨⟩⟩

lemma trans (h : Pools l a b) (h' : Pools l' b c) : Pools (l ++ l') a c where
  subset := List.Subset.trans h.subset h'.subset
  mem := by
    intro w hw
    rw [List.mem_append]
    rcases h'.mem w hw with hw | hw
    · exact (h.mem w hw).imp_right .inl
    · exact .inr (.inr hw)
  pooled := by
    intro f hf
    rcases List.mem_append.mp hf with hf | hf
    · obtain ⟨w, hw, heq⟩ := h.pooled f hf
      exact ⟨w, h'.subset hw, heq⟩
    · exact h'.pooled f hf

lemma congr (h : Pools l a b) (hl : ∀ v, v ∈ l ↔ v ∈ l') : Pools l' a b where
  subset := h.subset
  mem w hw := (h.mem w hw).imp_right (hl w).mp
  pooled f hf := h.pooled f ((hl _).mpr hf)

/-- The order in which the parts of a tree are visited does not matter. -/
lemma swap (h : Pools (l ++ l') a b) : Pools (l' ++ l) a b :=
  h.congr fun v => by simp only [List.mem_append, or_comm]

/-- An integer coded into its opcode leaves the table alone. -/
lemma int (n : Int) (a : List Literal) : Pools [.int n] a a :=
  ⟨List.Subset.refl a, fun _ h => .inl h, fun f hf => by simp at hf⟩

lemma addLiteral (v : Literal) (s : State) :
    Pools [v] s.gstate.literals (s.addLiteral v).gstate.literals := by
  rw [State.addLiteral_gstate_literals]
  split_ifs with h
  · refine ⟨List.subset_append_left _ _, fun w hw => ?_, fun f hf => ?_⟩
    · simpa using hw
    · obtain rfl := List.mem_singleton.mp hf
      exact ⟨_, List.mem_append_right _ (List.mem_singleton_self _), Literal.equality_self _⟩
  · refine ⟨List.Subset.refl _, fun w hw => .inl hw, fun f hf => ?_⟩
    obtain rfl := List.mem_singleton.mp hf
    obtain ⟨w, hw, heq⟩ := List.findIdx_lt_length.mp
      (Nat.lt_of_le_of_ne List.findIdx_le_length h)
    exact ⟨w, hw, heq⟩

end Pools

lemma State.emitBinary_gstate (op : BinOp) (s : State) : (s.emitBinary op).gstate = s.gstate := by
  cases op <;> rfl

lemma State.emitUnary_gstate (op : UnOp) (s : State) : (s.emitUnary op).gstate = s.gstate := by
  cases op <;> rfl

lemma State.emitPut_literals (n : Nat) (s : State) :
    (s.emitPut n).gstate.literals = s.gstate.literals := by
  unfold State.emitPut
  split_ifs <;> rfl

lemma State.emitPush_literals (n : Nat) (s : State) :
    (s.emitPush n).gstate.literals = s.gstate.literals := by
  unfold State.emitPush
  split_ifs <;> rfl

lemma generateTargets_literals (sc : Scatter) (s : State) :
    (generateTargets sc s).gstate.literals = s.gstate.literals := by
  match sc with
  | .nil => rfl
  | .required slot next | .rest slot next | .optional slot .none next
  | .optional slot (.some _) next => exact generateTargets_literals next _

lemma storeLvalue_literals (e : Expr) {s t : State} (h : storeLvalue e s = .ok t) :
    t.gstate.literals = s.gstate.literals := by
  match e with
  | .range base _ _ =>
    exact storeLvalue_literals base (s := (s.emitExtended .eopRangeset).popStack 3) h
  | .index lhs _ => exact storeLvalue_literals lhs (s := (s.emitOp .opIndexset).popStack 2) h
  | .id slot =>
    obtain rfl := Except.ok.inj h
    exact s.emitPut_literals slot
  | .prop _ _ =>
    obtain rfl := Except.ok.inj h
    rfl
  | .var _ | .verb _ _ _ | .asgn _ _ | .call _ _ | .binary _ _ _ | .unary _ _ | .logical _ _ _
  | .list _ | .cond _ _ _ | .catchExpr _ _ _ | .length | .scatter _ => cases h

variable {r : Bool}

lemma generateExpr_asgn_ok {lhs rhs : Expr} {s t : State}
    (h : generateExpr r (.asgn lhs rhs) s = .ok t) (hl : ∀ ts, lhs ≠ .scatter ts) :
    ∃ s₁, pushLvalue r lhs false s = .ok s₁ ∧ ∃ s₂, generateExpr r rhs s₁ = .ok s₂ ∧
      ∃ u, storeLvalue lhs (if lhs.isIndexed then s₂.emitOp .opPutTemp else s₂) = .ok u ∧
        t = if lhs.isIndexed then (u.emitOp .opPop).emitSkewed .opPushTemp (-1) else u := by
  cases lhs <;> simp only [generateExpr, Except.bind_eq_ok] at h
  case scatter ts => exact absurd rfl (hl ts)
  all_goals
    obtain ⟨s₁, h₁, s₂, h₂, u, hu, h⟩ := h
    refine ⟨s₁, h₁, s₂, h₂, u, hu, ?_⟩
    split_ifs at h ⊢ <;> exact (Except.ok.inj h).symm

/-- An assignment to something that is not a scattering list. -/
lemma pools_asgn {lhs rhs : Expr} {s s₁ s₂ t : State}
    (h₁ : Pools lhs.literals s.gstate.literals s₁.gstate.literals)
    (h₂ : Pools rhs.literals s₁.gstate.literals s₂.gstate.literals)
    (h : ∃ u, storeLvalue lhs (if lhs.isIndexed then s₂.emitOp .opPutTemp else s₂) = .ok u ∧
      t = if lhs.isIndexed then (u.emitOp .opPop).emitSkewed .opPushTemp (-1) else u) :
    Pools (lhs.literals ++ rhs.literals) s.gstate.literals t.gstate.literals := by
  obtain ⟨u, hu, rfl⟩ := h
  have hst := storeLvalue_literals lhs hu
  have hut : (if lhs.isIndexed then (u.emitOp .opPop).emitSkewed .opPushTemp (-1)
      else u).gstate.literals = s₂.gstate.literals := by
    split_ifs at hst ⊢ <;> exact hst
  rw [hut]
  exact h₁.trans h₂

mutual
lemma generateExpr_pools (e : Expr) {s t : State} (h : generateExpr r e s = .ok t) :
    Pools e.literals s.gstate.literals t.gstate.literals := by
  match e with
  | .var (.int n) =>
    simp only [generateExpr] at h
    split_ifs at h
    · obtain rfl := Except.ok.inj h
      exact Pools.int n _
    · obtain rfl := Except.ok.inj h
      exact Pools.addLiteral _ (s.emitOp .opImm)
  | .var (.obj _) | .var (.str _) | .var (.err _) | .var (.float _) =>
    simp only [generateExpr] at h
    obtain rfl := Except.ok.inj h
    exact Pools.addLiteral _ (s.emitOp .opImm)
  | .id slot =>
    obtain rfl := Except.ok.inj h
    have := s.emitPush_literals slot
    exact this ▸ Pools.refl _
  | .length =>
    simp only [generateExpr] at h
    split at h
    · obtain rfl := Except.ok.inj h
      exact Pools.refl _
    · cases h
  | .logical op lhs rhs =>
    simp only [generateExpr, Except.bind_eq_ok] at h
    obtain ⟨s₁, h₁, s₂, h₂, h⟩ := h
    obtain rfl := Except.ok.inj h
    have p₁ := generateExpr_pools lhs h₁
    have p₂ := generateExpr_pools rhs h₂
    exact p₁.trans p₂
  | .unary op e =>
    simp only [generateExpr, Except.bind_eq_ok] at h
    obtain ⟨s₁, h₁, h⟩ := h
    obtain rfl := Except.ok.inj h
    rw [State.emitUnary_gstate]
    exact generateExpr_pools e h₁
  | .binary op lhs rhs =>
    simp only [generateExpr, Except.bind_eq_ok] at h
    obtain ⟨s₁, h₁, s₂, h₂, h⟩ := h
    obtain rfl := Except.ok.inj h
    rw [State.popStack_gstate, State.emitBinary_gstate]
    have p₁ := generateExpr_pools lhs h₁
    have p₂ := generateExpr_pools rhs h₂
    exact p₁.trans p₂
  | .prop lhs rhs | .index lhs rhs =>
    simp only [generateExpr, Except.bind_eq_ok] at h
    obtain ⟨s₁, h₁, s₂, h₂, h⟩ := h
    obtain rfl := Except.ok.inj h
    have p₁ := generateExpr_pools lhs h₁
    have p₂ := generateExpr_pools rhs h₂
    exact p₁.trans p₂
  | .range base lo hi =>
    simp only [generateExpr, Except.bind_eq_ok] at h
    obtain ⟨s₁, h₁, s₂, h₂, s₃, h₃, h⟩ := h
    obtain rfl := Except.ok.inj h
    have p₁ := generateExpr_pools base h₁
    have p₂ := generateExpr_pools lo h₂
    have p₃ := generateExpr_pools hi h₃
    exact p₁.trans (p₂.trans p₃)
  | .cond c a b =>
    simp only [generateExpr, Except.bind_eq_ok] at h
    obtain ⟨s₁, h₁, s₂, h₂, s₃, h₃, h⟩ := h
    obtain rfl := Except.ok.inj h
    have p₁ := generateExpr_pools c h₁
    have p₂ := generateExpr_pools a h₂
    have p₃ := generateExpr_pools b h₃
    exact p₁.trans (p₂.trans p₃)
  | .list args =>
    simp only [generateExpr] at h
    exact generateArgs_pools _ args h
  | .call func args =>
    simp only [generateExpr, Except.bind_eq_ok] at h
    obtain ⟨s₁, h₁, h⟩ := h
    obtain rfl := Except.ok.inj h
    have p₁ := generateArgs_pools _ args h₁
    exact p₁
  | .verb obj verb args =>
    simp only [generateExpr, Except.bind_eq_ok] at h
    obtain ⟨s₁, h₁, s₂, h₂, s₃, h₃, h⟩ := h
    obtain rfl := Except.ok.inj h
    have p₁ := generateExpr_pools obj h₁
    have p₂ := generateExpr_pools verb h₂
    have p₃ := generateArgs_pools _ args h₃
    exact p₁.trans (p₂.trans p₃)
  | .catchExpr e codes dflt =>
    simp only [generateExpr, Except.bind_eq_ok] at h
    obtain ⟨s₁, h₁, s₂, h₂, h⟩ := h
    have p₁ := generateArgs_pools _ codes h₁
    have p₂ := generateExpr_pools e h₂
    refine p₁.trans (p₂.trans ?_)
    match dflt with
    | .none =>
      obtain rfl := Except.ok.inj h
      exact Pools.refl _
    | .some d =>
      simp only [Except.bind_eq_ok] at h
      obtain ⟨s₃, h₃, h⟩ := h
      obtain rfl := Except.ok.inj h
      have p₃ := generateExpr_pools d h₃
      exact p₃
  | .asgn (.scatter targets) rhs =>
    simp only [generateExpr, Except.bind_eq_ok] at h
    obtain ⟨s₁, h₁, s₂, h₂, h⟩ := h
    obtain rfl := Except.ok.inj h
    have p₁ := generateExpr_pools rhs h₁
    have p₂ := generateDefaults_pools targets _ h₂
    have ht : (generateTargets targets (s₁.emitScatter targets)).addLabel.gstate.literals
      = s₁.gstate.literals := generateTargets_literals targets _
    rw [ht] at p₂
    exact (p₁.trans p₂).swap
  | .asgn (.id slot) rhs =>
    obtain ⟨s₁, h₁, s₂, h₂, h⟩ := generateExpr_asgn_ok h (by rintro _ ⟨⟩)
    exact pools_asgn (pushLvalue_pools (.id slot) false h₁) (generateExpr_pools rhs h₂) h
  | .asgn (.prop x y) rhs =>
    obtain ⟨s₁, h₁, s₂, h₂, h⟩ := generateExpr_asgn_ok h (by rintro _ ⟨⟩)
    exact pools_asgn (pushLvalue_pools (.prop x y) false h₁) (generateExpr_pools rhs h₂) h
  | .asgn (.index x y) rhs =>
    obtain ⟨s₁, h₁, s₂, h₂, h⟩ := generateExpr_asgn_ok h (by rintro _ ⟨⟩)
    exact pools_asgn (pushLvalue_pools (.index x y) false h₁) (generateExpr_pools rhs h₂) h
  | .asgn (.range x y z) rhs =>
    obtain ⟨s₁, h₁, s₂, h₂, h⟩ := generateExpr_asgn_ok h (by rintro _ ⟨⟩)
    exact pools_asgn (pushLvalue_pools (.range x y z) false h₁) (generateExpr_pools rhs h₂) h
  | .asgn (.var _) _ | .asgn (.verb _ _ _) _ | .asgn (.asgn _ _) _ | .asgn (.call _ _) _
  | .asgn (.binary _ _ _) _ | .asgn (.unary _ _) _ | .asgn (.logical _ _ _) _
  | .asgn (.list _) _ | .asgn (.cond _ _ _) _ | .asgn (.catchExpr _ _ _) _ | .asgn .length _ =>
    obtain ⟨s₁, h₁, s₂, h₂, h⟩ := generateExpr_asgn_ok h (by rintro _ ⟨⟩)
    cases h₁
  | .scatter _ => cases h

lemma generateArgs_pools (o : Opcode) (args : ArgList) {s t : State}
    (h : generateArgs r o args s = .ok t) :
    Pools args.literals s.gstate.literals t.gstate.literals := by
  match args with
  | .nil =>
    obtain rfl := Except.ok.inj h
    exact Pools.refl _
  | .cons kind e next =>
    simp only [generateArgs, Except.bind_eq_ok] at h
    obtain ⟨s₁, h₁, h⟩ := h
    have p₁ := generateExpr_pools e h₁
    have p₂ := generateMoreArgs_pools next h
    exact p₁.trans p₂

lemma generateMoreArgs_pools (args : ArgList) {s t : State}
    (h : generateMoreArgs r args s = .ok t) :
    Pools args.literals s.gstate.literals t.gstate.literals := by
  match args with
  | .nil =>
    obtain rfl := Except.ok.inj h
    exact Pools.refl _
  | .cons kind e next =>
    simp only [generateMoreArgs, Except.bind_eq_ok] at h
    obtain ⟨s₁, h₁, h⟩ := h
    have p₁ := generateExpr_pools e h₁
    have p₂ := generateMoreArgs_pools next h
    exact p₁.trans p₂

lemma pushLvalue_pools (e : Expr) (indexedAbove : Bool) {s t : State}
    (h : pushLvalue r e indexedAbove s = .ok t) :
    Pools e.literals s.gstate.literals t.gstate.literals := by
  match e with
  | .id slot =>
    simp only [pushLvalue] at h
    split_ifs at h <;> obtain rfl := Except.ok.inj h
    · have := s.emitPush_literals slot
      exact this ▸ Pools.refl _
    · exact Pools.refl _
  | .prop lhs rhs =>
    simp only [pushLvalue, Except.bind_eq_ok] at h
    obtain ⟨s₁, h₁, s₂, h₂, h⟩ := h
    have hst : t.gstate.literals = s₂.gstate.literals := by
      split_ifs at h <;> obtain rfl := Except.ok.inj h <;> rfl
    rw [hst]
    have p₁ := generateExpr_pools lhs h₁
    have p₂ := generateExpr_pools rhs h₂
    exact p₁.trans p₂
  | .index lhs rhs =>
    simp only [pushLvalue, Except.bind_eq_ok] at h
    obtain ⟨s₁, h₁, s₂, h₂, h⟩ := h
    have hst : t.gstate.literals = s₂.gstate.literals := by
      split_ifs at h <;> obtain rfl := Except.ok.inj h <;> rfl
    rw [hst]
    have p₁ := pushLvalue_pools lhs true h₁
    have p₂ := generateExpr_pools rhs h₂
    exact p₁.trans p₂
  | .range base lo hi =>
    simp only [pushLvalue, Except.bind_eq_ok] at h
    obtain ⟨s₁, h₁, s₂, h₂, s₃, h₃, h⟩ := h
    obtain rfl := Except.ok.inj h
    have p₁ := pushLvalue_pools base true h₁
    have p₂ := generateExpr_pools lo h₂
    have p₃ := generateExpr_pools hi h₃
    exact p₁.trans (p₂.trans p₃)
  | .var _ | .verb _ _ _ | .asgn _ _ | .call _ _ | .binary _ _ _ | .unary _ _ | .logical _ _ _
  | .list _ | .cond _ _ _ | .catchExpr _ _ _ | .length | .scatter _ => cases h

lemma generateDefaults_pools (sc : Scatter) (label : Nat) {s t : State}
    (h : generateDefaults r sc label s = .ok t) :
    Pools sc.literals s.gstate.literals t.gstate.literals := by
  match sc with
  | .nil =>
    obtain rfl := Except.ok.inj h
    exact Pools.refl _
  | .required slot next | .rest slot next =>
    simp only [generateDefaults] at h
    exact generateDefaults_pools next label h
  | .optional slot .none next =>
    simp only [generateDefaults] at h
    exact generateDefaults_pools next label h
  | .optional slot (.some e) next =>
    simp only [generateDefaults, Except.bind_eq_ok] at h
    obtain ⟨s₁, h₁, h⟩ := h
    have p₁ := generateExpr_pools e h₁
    have p₂ := generateDefaults_pools next _ h
    have hput : (((s₁.emitPut slot).emitOp .opPop).popStack 1).gstate.literals
      = s₁.gstate.literals := s₁.emitPut_literals slot
    rw [hput] at p₂
    exact p₁.trans p₂
end

lemma State.emitWhile_literals (slot : Option Nat) (s : State) :
    (s.emitWhile slot).gstate.literals = s.gstate.literals := by
  cases slot <;> rfl

lemma State.emitForkOp_literals (slot : Option Nat) (s : State) :
    (s.emitForkOp slot).gstate.literals = s.gstate.literals := by
  cases slot <;> rfl

lemma State.addForkId_literals (slot : Option Nat) (s : State) :
    (s.addForkId slot).gstate.literals = s.gstate.literals := by
  cases slot <;> rfl

lemma State.generateExit_literals (exit : Option Nat) (s : State) :
    (generateExit exit s).gstate.literals = s.gstate.literals := by
  cases exit <;> rfl

lemma State.addLinkedLabel_literals (next : Option Nat) (s : State) :
    (s.addLinkedLabel next).2.gstate.literals = s.gstate.literals := by
  cases next <;> rfl

lemma State.emitExceptPut_literals (slot : Option Nat) (s : State) :
    (s.emitExceptPut slot).gstate.literals = s.gstate.literals := by
  cases slot with
  | none => rfl
  | some n => exact s.emitPut_literals n

lemma State.emitExceptJump_literals (next : ExceptArms) (endLabel : Nat) (s : State) :
    (s.emitExceptJump next endLabel).gstate.literals = s.gstate.literals := by
  cases next <;> rfl

/-- The literals of the codes of all arms. -/
def ExceptArms.codeLiterals : ExceptArms → List Literal
  | .nil => []
  | .cons _ codes _ next => codes.literals ++ next.codeLiterals

/-- The literals of the statements of all arms. -/
def ExceptArms.bodyLiterals : ExceptArms → List Literal
  | .nil => []
  | .cons _ _ ss next => ss.literals ++ next.bodyLiterals

lemma ExceptArms.mem_literals (arms : ExceptArms) (v : Literal) :
    v ∈ arms.literals ↔ v ∈ arms.codeLiterals ∨ v ∈ arms.bodyLiterals := by
  cases arms with
  | nil => simp [ExceptArms.literals, ExceptArms.codeLiterals, ExceptArms.bodyLiterals]
  | cons _ codes ss next =>
    simp only [ExceptArms.literals, ExceptArms.codeLiterals, ExceptArms.bodyLiterals,
      List.mem_append, next.mem_literals v]
    tauto

lemma generateHandlers_pools (arms : ExceptArms) {s t : State} {labels : List Nat}
    (h : generateHandlers r arms s = .ok (labels, t)) :
    Pools arms.codeLiterals s.gstate.literals t.gstate.literals := by
  match arms with
  | .nil =>
    obtain ⟨-, rfl⟩ := Prod.mk.inj (Except.ok.inj h)
    exact Pools.refl _
  | .cons _ codes _ next =>
    simp only [generateHandlers, Except.bind_eq_ok] at h
    obtain ⟨s₁, h₁, ⟨labels', t'⟩, h₂, h⟩ := h
    obtain ⟨-, rfl⟩ := Prod.mk.inj (Except.ok.inj h)
    have p₁ := generateArgs_pools _ codes h₁
    have p₂ := generateHandlers_pools next h₂
    exact p₁.trans p₂

mutual
lemma generateStmts_pools (ss : StmtList) {s t : State} (h : generateStmts r ss s = .ok t) :
    Pools ss.literals s.gstate.literals t.gstate.literals := by
  match ss with
  | .nil =>
    obtain rfl := Except.ok.inj h
    exact Pools.refl _
  | .cons stmt next =>
    simp only [generateStmts, Except.bind_eq_ok] at h
    obtain ⟨s₁, h₁, h₂⟩ := h
    exact (generateStmt_pools stmt h₁).trans (generateStmts_pools next h₂)

lemma generateStmt_pools (stmt : Stmt) {s t : State} (h : generateStmt r stmt s = .ok t) :
    Pools stmt.literals s.gstate.literals t.gstate.literals := by
  match stmt with
  | .expr e | .ret (some e) =>
    simp only [generateStmt, Except.bind_eq_ok] at h
    obtain ⟨s₁, h₁, h⟩ := h
    obtain rfl := Except.ok.inj h
    have p₁ := generateExpr_pools e h₁
    exact p₁
  | .ret none =>
    simp only [generateStmt] at h
    obtain rfl := Except.ok.inj h
    exact Pools.refl _
  | .brk exit | .cont exit =>
    simp only [generateStmt] at h
    split at h
    · obtain rfl := Except.ok.inj h
      have hexit := s.generateExit_literals exit
      exact hexit ▸ Pools.refl _
    · cases h
  | .list slot e body =>
    simp only [generateStmt, Except.bind_eq_ok] at h
    obtain ⟨s₁, h₁, s₂, h₂, h⟩ := h
    obtain rfl := Except.ok.inj h
    have p₁ := generateExpr_pools e h₁
    have p₂ := generateStmts_pools body h₂
    exact p₁.trans p₂
  | .range slot lo hi body =>
    simp only [generateStmt, Except.bind_eq_ok] at h
    obtain ⟨s₁, h₁, s₂, h₂, s₃, h₃, h⟩ := h
    obtain rfl := Except.ok.inj h
    have p₁ := generateExpr_pools lo h₁
    have p₂ := generateExpr_pools hi h₂
    have p₃ := generateStmts_pools body h₃
    exact p₁.trans (p₂.trans p₃)
  | .loop slot c body =>
    simp only [generateStmt, Except.bind_eq_ok] at h
    obtain ⟨s₁, h₁, s₂, h₂, h⟩ := h
    obtain rfl := Except.ok.inj h
    have p₁ := generateExpr_pools c h₁
    have p₂ := generateStmts_pools body h₂
    have hwhile := s₁.emitWhile_literals slot
    exact p₁.trans (hwhile ▸ p₂)
  | .fork slot time body =>
    simp only [generateStmt, Except.bind_eq_ok] at h
    obtain ⟨s₁, h₁, T, hT, bc, -, h⟩ := h
    obtain rfl := Except.ok.inj h
    have p₁ := generateExpr_pools time h₁
    have p₂ := generateStmts_pools body hT
    have hfork := s₁.emitForkOp_literals slot
    rw [State.popStack_gstate, State.addForkId_literals]
    exact p₁.trans (hfork ▸ p₂)
  | .cond arms otherwise =>
    simp only [generateStmt, Except.bind_eq_ok] at h
    obtain ⟨⟨out, s₁⟩, h₁, s₂, h₂, h⟩ := h
    have hst : t.gstate.literals = s₂.gstate.literals := by
      cases out <;> obtain rfl := Except.ok.inj h <;> rfl
    rw [hst]
    exact (generateArms_pools arms _ _ h₁).trans (generateStmts_pools otherwise h₂)
  | .tryExcept body excepts =>
    simp only [generateStmt, Except.bind_eq_ok] at h
    obtain ⟨⟨labels, s₁⟩, h₁, s₂, h₂, s₃, h₃, h⟩ := h
    obtain rfl := Except.ok.inj h
    have p₁ := generateHandlers_pools excepts h₁
    have p₂ := generateStmts_pools body h₂
    have p₃ := generateExcepts_pools excepts _ _ h₃
    refine (p₁.trans (p₂.trans p₃)).congr fun v => ?_
    simp only [Stmt.literals, List.mem_append, excepts.mem_literals v]
    tauto
  | .tryFinally body handler =>
    simp only [generateStmt, Except.bind_eq_ok] at h
    obtain ⟨s₁, h₁, s₂, h₂, h⟩ := h
    obtain rfl := Except.ok.inj h
    have p₁ := generateStmts_pools body h₁
    have p₂ := generateStmts_pools handler h₂
    exact p₁.trans p₂

lemma generateArms_pools (arms : CondArms) (ifOp : Opcode) (endLabel : Option Nat)
    {out : Option Nat} {s t : State} (h : generateArms r arms ifOp endLabel s = .ok (out, t)) :
    Pools arms.literals s.gstate.literals t.gstate.literals := by
  match arms with
  | .nil =>
    obtain ⟨-, rfl⟩ := Prod.mk.inj (Except.ok.inj h)
    exact Pools.refl _
  | .cons c ss next =>
    simp only [generateArms, Except.bind_eq_ok] at h
    obtain ⟨s₁, h₁, s₂, h₂, h⟩ := h
    have p₁ := generateExpr_pools c h₁
    have p₂ := generateStmts_pools ss h₂
    have p₃ := generateArms_pools next _ _ h
    have hlabel := (s₂.emitOp .opJump).addLinkedLabel_literals endLabel
    rw [State.defineLabel_gstate, hlabel] at p₃
    exact p₁.trans (p₂.trans p₃)

lemma generateExcepts_pools (arms : ExceptArms) (labels : List Nat) (endLabel : Nat)
    {s t : State} (h : generateExcepts r arms labels endLabel s = .ok t) :
    Pools arms.bodyLiterals s.gstate.literals t.gstate.literals := by
  match arms, labels with
  | .nil, _ =>
    obtain rfl := Except.ok.inj h
    exact Pools.refl _
  | .cons _ _ _ _, [] => cases h
  | .cons slot codes ss next, label :: labels =>
    simp only [generateExcepts, Except.bind_eq_ok] at h
    obtain ⟨s₁, h₁, h⟩ := h
    have p₁ := generateStmts_pools ss h₁
    have p₂ := generateExcepts_pools next _ _ h
    have hput := ((s.defineLabel label).pushStack 1).emitExceptPut_literals slot
    rw [State.emitExceptJump_literals] at p₂
    exact (hput ▸ p₁ : Pools ss.literals s.gstate.literals _).trans p₂
end

end LambdaMOO
