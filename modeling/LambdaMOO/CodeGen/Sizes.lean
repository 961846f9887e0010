import LambdaMOO.CodeGen.Operands

/-!
# The sizes at which operands go wrong

For which programs every operand reads as what the generator wrote, and the vectors have
the sizes allocated for them. Each condition is one on the tree, and each fails for some
program that the parser accepts.
-/

namespace LambdaMOO

variable {r : Bool}

/-! ### Operands of several bytes -/

/-- The list of the variables in `n` slots from `slot` on. -/
def slotArgs : Nat → Nat → ArgList
  | _, 0 => .nil
  | slot, n + 1 => .cons .normal (.id slot) (slotArgs (slot + 1) n)

/-- A program that mentions the first `n` variables once each. -/
def slotProgram (n : Nat) : StmtList := .cons (.expr (.list (slotArgs 0 n))) .nil

theorem StmtList.hasLayout_iff (ss : StmtList) (hb : ss.isBuilt [] = true) :
    ss.HasLayout r ↔ ∀ b ∈ ss.bodies, b.StackRefsFit :=
  exists_forall_vectors_iff hb fun _ _ _ hb h => h.size_and_labels_iff hb

/-- `1 + (1 + (… + {}[$]))` with `n` additions. -/
def deepLength : Nat → Expr
  | 0 => .index (.list .nil) .length
  | n + 1 => .binary .plus (.var (.int 1)) (deepLength n)

def deepProgram (n : Nat) : StmtList := .cons (.expr (deepLength n)) .nil

theorem StmtList.hasLayout_iff_deep : (deepProgram 3).HasLayout true := by
  refine (StmtList.hasLayout_iff (deepProgram 3) (by decide)).mpr ?_
  intro b hb
  obtain rfl := List.mem_singleton.mp hb
  exact .inl (by decide : ((deepProgram 3).trace [] 0).top ≤ 256)

/-- With 300 additions the height that `$` refers to takes two bytes. -/
theorem hasLayout_deep_300 :
    (deepProgram 300).isBuilt [] = true ∧ ¬ (deepProgram 300).HasLayout false := by
  have hb : (deepProgram 300).isBuilt [] = true := by decide +kernel
  refine ⟨hb, fun h => ?_⟩
  have hfit := (exists_forall_vectors_iff (Q := Body.StackRefsFit) hb
    fun _ _ _ hb h => h.size_and_labels_iff hb).mp h _
      (List.mem_append_right _ List.mem_cons_self)
  have htop : ¬ ((deepProgram 300).trace [] 0).top ≤ 256 := by decide +kernel
  have hops : ((deepProgram 300).trace [] 0).operands = [.stack 300] := by decide +kernel
  rcases hfit with hfit | hfit
  · exact htop hfit
  · refine hfit 300 ?_
    change _ ∈ ((deepProgram 300).trace [] 0).operands
    rw [hops]
    exact List.mem_singleton_self _

/-! ### Single bytes -/

/-- No byte of the code or of a fork in it is too large. -/
structure Trace.BytesFit (tr : Trace) : Prop where
  operands : ∀ x, .byte x ∈ tr.operands → x < 256
  bodies : ∀ b ∈ tr.bodies, ∀ x, .byte x ∈ b.trace.operands → x < 256

namespace Trace

@[simp] lemma bytesFit_empty : empty.BytesFit := ⟨by rintro _ ⟨⟩, by rintro _ ⟨⟩⟩

@[simp] lemma bytesFit_push (n : Nat) : (push n).BytesFit := ⟨by rintro _ ⟨⟩, by rintro _ ⟨⟩⟩

@[simp] lemma bytesFit_byte (x : Nat) : (op (.byte x)).BytesFit ↔ x < 256 := by
  constructor
  · exact fun h => h.operands x (List.mem_singleton_self _)
  · refine fun hx => ⟨fun y hy => ?_, by rintro _ ⟨⟩⟩
    obtain rfl := Operand.byte.inj (List.mem_singleton.mp hy)
    exact hx

@[simp] lemma bytesFit_var (slot : Nat) : (op (.var slot)).BytesFit :=
  ⟨fun x h => by simp [op] at h, by rintro _ ⟨⟩⟩

@[simp] lemma bytesFit_stack (i : Nat) : (op (.stack i)).BytesFit :=
  ⟨fun x h => by simp [op] at h, by rintro _ ⟨⟩⟩

@[simp] lemma bytesFit_append (a b : Trace) : (a ++ b).BytesFit ↔ a.BytesFit ∧ b.BytesFit := by
  constructor
  · intro h
    refine ⟨⟨fun x hx => h.operands x (List.mem_append_left _ hx),
      fun body hbody => h.bodies body (List.mem_append_left _ hbody)⟩,
      ⟨fun x hx => h.operands x (List.mem_append_right _ hx), fun body hbody => ?_⟩⟩
    exact h.bodies (body.shift a.refs)
      (List.mem_append_right _ (List.mem_map_of_mem hbody))
  · rintro ⟨ha, hb⟩
    refine ⟨fun x hx => ?_, fun body hbody => ?_⟩
    · exact (List.mem_append.mp hx).elim (ha.operands x) (hb.operands x)
    · rcases List.mem_append.mp hbody with hbody | hbody
      · exact ha.bodies body hbody
      · obtain ⟨body', hbody', rfl⟩ := List.mem_map.mp hbody
        exact hb.bodies body' hbody'

end Trace

@[simp] lemma bytesFit_slotTrace (slot : Nat) : (slotTrace slot).BytesFit := by
  unfold slotTrace
  split_ifs <;> simp

@[simp] lemma bytesFit_optionTrace (slot : Option Nat) : (optionTrace slot).BytesFit := by
  cases slot <;> simp [optionTrace]

@[simp] lemma bytesFit_exceptTrace (slot : Option Nat) :
    ((slot.map slotTrace).getD .empty).BytesFit := by
  cases slot <;> simp

mutual
/-- No scattering assignment has 255 targets without a rest target. -/
def Expr.countsFit : Expr → Bool
  | .var _ | .id _ | .length => true
  | .prop lhs rhs | .index lhs rhs | .asgn lhs rhs | .binary _ lhs rhs | .logical _ lhs rhs =>
    lhs.countsFit && rhs.countsFit
  | .verb obj verb args => obj.countsFit && verb.countsFit && args.countsFit
  | .range base lo hi => base.countsFit && lo.countsFit && hi.countsFit
  | .call _ args | .list args => args.countsFit
  | .unary _ e => e.countsFit
  | .cond c a b => c.countsFit && a.countsFit && b.countsFit
  | .catchExpr e codes dflt => e.countsFit && codes.countsFit && dflt.countsFit
  | .scatter targets => (targets.length ≠ 255 || targets.numRest ≠ 0) && targets.countsFit

def Default.countsFit : Default → Bool
  | .none => true
  | .some e => e.countsFit

def ArgList.countsFit : ArgList → Bool
  | .nil => true
  | .cons _ e next => e.countsFit && next.countsFit

def Scatter.countsFit : Scatter → Bool
  | .nil => true
  | .required _ next | .rest _ next => next.countsFit
  | .optional _ dflt next => dflt.countsFit && next.countsFit
end

mutual
/-- Nor does a try-except have 256 arms. -/
def Stmt.countsFit : Stmt → Bool
  | .cond arms otherwise => arms.countsFit && otherwise.countsFit
  | .list _ e body => e.countsFit && body.countsFit
  | .range _ lo hi body => lo.countsFit && hi.countsFit && body.countsFit
  | .loop _ c body => c.countsFit && body.countsFit
  | .fork _ time body => time.countsFit && body.countsFit
  | .expr e => e.countsFit
  | .ret e => e.all Expr.countsFit
  | .tryExcept body excepts => excepts.length ≠ 256 && body.countsFit && excepts.countsFit
  | .tryFinally body handler => body.countsFit && handler.countsFit
  | .brk _ | .cont _ => true

def StmtList.countsFit : StmtList → Bool
  | .nil => true
  | .cons s next => s.countsFit && next.countsFit

def CondArms.countsFit : CondArms → Bool
  | .nil => true
  | .cons c ss next => c.countsFit && ss.countsFit && next.countsFit

def ExceptArms.countsFit : ExceptArms → Bool
  | .nil => true
  | .cons _ codes ss next => codes.countsFit && ss.countsFit && next.countsFit
end

lemma Scatter.restPosition_eq_none_iff (sc : Scatter) (n : Nat) :
    sc.restPosition n = none ↔ sc.numRest = 0 := by
  match sc with
  | .nil => simp [restPosition, numRest]
  | .required _ next | .optional _ _ next => simp [restPosition, numRest, next.restPosition_eq_none_iff]
  | .rest _ next => simp [restPosition, numRest]

/-- The position of a rest target is the largest value that the counts of a scattering
assignment take, and without one it is one more than the number of targets. -/
lemma Scatter.bytesFit_countsTrace (sc : Scatter) (h : sc.length ≤ 255) :
    sc.countsTrace.BytesFit ↔ sc.length ≠ 255 ∨ sc.numRest ≠ 0 := by
  have hreq := sc.numRequired_le
  cases hpos : sc.restPosition 0 with
  | none =>
    have hrest := (sc.restPosition_eq_none_iff 0).mp hpos
    simp only [countsTrace, hpos, Trace.bytesFit_append, Trace.bytesFit_byte, Option.getD_none]
    omega
  | some n =>
    have hrest : sc.numRest ≠ 0 := fun h0 => by
      rw [(sc.restPosition_eq_none_iff 0).mpr h0] at hpos
      cases hpos
    have hle := sc.restPosition_le 0 n hpos
    simp only [countsTrace, hpos, Trace.bytesFit_append, Trace.bytesFit_byte, Option.getD_some]
    omega

lemma Expr.bytesFit_storeTrace (e : Expr) : e.storeTrace.BytesFit := by
  match e with
  | .range base _ _ => exact base.bytesFit_storeTrace
  | .index lhs _ => exact lhs.bytesFit_storeTrace
  | .id slot => exact bytesFit_slotTrace slot
  | .var _ | .prop _ _ | .verb _ _ _ | .asgn _ _ | .call _ _ | .binary _ _ _ | .unary _ _
  | .logical _ _ _ | .list _ | .cond _ _ _ | .catchExpr _ _ _ | .length | .scatter _ =>
    exact Trace.bytesFit_empty

lemma Scatter.bytesFit_slotsTrace (sc : Scatter) : sc.slotsTrace.BytesFit := by
  match sc with
  | .nil => exact Trace.bytesFit_empty
  | .required _ next | .optional _ _ next | .rest _ next =>
    simp [slotsTrace, next.bytesFit_slotsTrace]

mutual
lemma Expr.bytesFit_trace (e : Expr) {dollars : Bool} (hb : e.isBuilt dollars = true)
    (saved : Option Nat) (d : Nat) : (e.trace saved d).BytesFit ↔ e.countsFit = true := by
  match e with
  | .var _ | .id _ | .length => simp [Expr.trace, Expr.countsFit]
  | .logical _ lhs rhs | .binary _ lhs rhs | .prop lhs rhs | .index lhs rhs =>
    simp only [Expr.isBuilt, Bool.and_eq_true] at hb
    simp [Expr.trace, Expr.countsFit, lhs.bytesFit_trace hb.1, rhs.bytesFit_trace hb.2]
  | .unary _ e =>
    simp only [Expr.isBuilt, Bool.and_eq_true] at hb
    simp [Expr.trace, Expr.countsFit, e.bytesFit_trace hb.2]
  | .range base lo hi =>
    simp only [Expr.isBuilt, Bool.and_eq_true] at hb
    simp [Expr.trace, Expr.countsFit, base.bytesFit_trace hb.1.1, lo.bytesFit_trace hb.1.2,
      hi.bytesFit_trace hb.2, and_assoc]
  | .list args =>
    simp only [Expr.isBuilt] at hb
    simp [Expr.trace, Expr.countsFit, args.bytesFit_trace hb]
  | .call func args =>
    simp only [Expr.isBuilt, Bool.and_eq_true, decide_eq_true_eq] at hb
    have hfunc : func < 256 := hb.1
    simp [Expr.trace, Expr.countsFit, args.bytesFit_trace hb.2, hfunc]
  | .verb obj verb args =>
    simp only [Expr.isBuilt, Bool.and_eq_true] at hb
    simp [Expr.trace, Expr.countsFit, obj.bytesFit_trace hb.1.1, verb.bytesFit_trace hb.1.2,
      args.bytesFit_trace hb.2, and_assoc]
  | .cond c a b =>
    simp only [Expr.isBuilt, Bool.and_eq_true] at hb
    simp [Expr.trace, Expr.countsFit, c.bytesFit_trace hb.1.1, a.bytesFit_trace hb.1.2,
      b.bytesFit_trace hb.2, and_assoc]
  | .catchExpr e codes dflt =>
    simp only [Expr.isBuilt, Bool.and_eq_true] at hb
    simp only [Expr.trace, Expr.countsFit, Trace.bytesFit_append, Trace.bytesFit_push,
      codes.bytesFit_trace hb.1.2, e.bytesFit_trace hb.1.1, dflt.bytesFit_trace hb.2,
      Bool.and_eq_true]
    tauto
  | .asgn lhs rhs =>
    rcases Expr.isBuilt_asgn hb with
      ⟨hl, hlhs, hrhs⟩ | ⟨targets, rfl, -, -, hlen, htargets, hrhs⟩
    · rw [Expr.trace_asgn hl]
      simp [Expr.countsFit, lhs.bytesFit_pushTrace hl hlhs, lhs.bytesFit_storeTrace,
        rhs.bytesFit_trace hrhs]
    · simp only [Expr.trace, Expr.countsFit, Trace.bytesFit_append,
        targets.bytesFit_countsTrace hlen,
        targets.bytesFit_slotsTrace, rhs.bytesFit_trace hrhs, targets.bytesFit_trace htargets,
        Bool.and_eq_true, Bool.or_eq_true, decide_eq_true_eq]
      tauto
  | .scatter _ => simp [Expr.isBuilt] at hb

lemma Expr.bytesFit_pushTrace (e : Expr) (hl : e.isLvalue = true) {dollars : Bool}
    (hb : e.isBuilt dollars = true) (saved : Option Nat) (d : Nat) (above : Bool) :
    (e.pushTrace saved d above).BytesFit ↔ e.countsFit = true := by
  match e with
  | .range base lo hi =>
    simp only [Expr.isBuilt, Bool.and_eq_true] at hb
    simp [Expr.pushTrace, Expr.countsFit,
      base.bytesFit_pushTrace (Expr.isLvalue_of_isIndexTarget hl) hb.1.1,
      lo.bytesFit_trace hb.1.2, hi.bytesFit_trace hb.2, and_assoc]
  | .index lhs rhs =>
    simp only [Expr.isBuilt, Bool.and_eq_true] at hb
    cases above <;>
      simp [Expr.pushTrace, Expr.countsFit,
        lhs.bytesFit_pushTrace (Expr.isLvalue_of_isIndexTarget hl) hb.1, rhs.bytesFit_trace hb.2]
  | .id _ => cases above <;> simp [Expr.pushTrace, Expr.countsFit]
  | .prop lhs rhs =>
    simp only [Expr.isBuilt, Bool.and_eq_true] at hb
    cases above <;>
      simp [Expr.pushTrace, Expr.countsFit, lhs.bytesFit_trace hb.1, rhs.bytesFit_trace hb.2]

lemma ArgList.bytesFit_trace (args : ArgList) {dollars : Bool} (hb : args.isBuilt dollars = true)
    (saved : Option Nat) (d : Nat) : (args.trace saved d).BytesFit ↔ args.countsFit = true := by
  match args with
  | .nil => simp [ArgList.trace, ArgList.countsFit]
  | .cons _ e next =>
    simp only [ArgList.isBuilt, Bool.and_eq_true] at hb
    simp [ArgList.trace, ArgList.countsFit, e.bytesFit_trace hb.1, next.bytesFit_moreTrace hb.2]

lemma ArgList.bytesFit_moreTrace (args : ArgList) {dollars : Bool}
    (hb : args.isBuilt dollars = true) (saved : Option Nat) (d : Nat) :
    (args.moreTrace saved d).BytesFit ↔ args.countsFit = true := by
  match args with
  | .nil => simp [ArgList.moreTrace, ArgList.countsFit]
  | .cons _ e next =>
    simp only [ArgList.isBuilt, Bool.and_eq_true] at hb
    simp [ArgList.moreTrace, ArgList.countsFit, e.bytesFit_trace hb.1, next.bytesFit_moreTrace hb.2]

lemma Scatter.bytesFit_trace (sc : Scatter) {dollars : Bool} (hb : sc.isBuilt dollars = true)
    (saved : Option Nat) (d : Nat) : (sc.trace saved d).BytesFit ↔ sc.countsFit = true := by
  match sc with
  | .nil => simp [Scatter.trace, Scatter.countsFit]
  | .required _ next | .rest _ next =>
    simp only [Scatter.isBuilt] at hb
    simp [Scatter.trace, Scatter.countsFit, next.bytesFit_trace hb]
  | .optional _ .none next =>
    simp only [Scatter.isBuilt, Bool.and_eq_true] at hb
    simp [Scatter.trace, Scatter.countsFit, Default.countsFit, next.bytesFit_trace hb.2]
  | .optional _ (.some e) next =>
    simp only [Scatter.isBuilt, Default.isBuilt, Bool.and_eq_true] at hb
    simp [Scatter.trace, Scatter.countsFit, Default.countsFit, e.bytesFit_trace hb.1,
      next.bytesFit_trace hb.2]

lemma Default.bytesFit_trace (dflt : Default) {dollars : Bool} (hb : dflt.isBuilt dollars = true)
    (saved : Option Nat) (d : Nat) : (dflt.trace saved d).BytesFit ↔ dflt.countsFit = true := by
  match dflt with
  | .none => simp [Default.trace, Default.countsFit]
  | .some e =>
    simp only [Default.isBuilt] at hb
    simp [Default.trace, Default.countsFit, e.bytesFit_trace hb]
end

lemma bytesFit_exitTrace (exit height : Option Nat) : (exitTrace exit height).BytesFit := by
  simp [exitTrace]

/-- The trace of a fork: its body is a vector of its own. -/
lemma Trace.bytesFit_fork {inner : Trace} (body : StmtList) (h : inner = body.trace [] 0) :
    (Trace.mk [] 0 inner.refs (inner.bodies ++ [⟨body, inner.refs⟩])).BytesFit
      ↔ inner.BytesFit := by
  constructor
  · intro hfit
    refine ⟨fun x hx => ?_, fun b hb => hfit.bodies b (List.mem_append_left _ hb)⟩
    exact hfit.bodies ⟨body, inner.refs⟩ (List.mem_append_right _ (List.mem_singleton_self _)) x
      (h ▸ hx)
  · refine fun hfit => ⟨by rintro _ ⟨⟩, fun b hb => ?_⟩
    rcases List.mem_append.mp hb with hb | hb
    · exact hfit.bodies b hb
    · obtain rfl := List.mem_singleton.mp hb
      exact fun x hx => hfit.operands x (h ▸ hx)

mutual
lemma StmtList.bytesFit_trace (ss : StmtList) {loops : List (Option Nat)}
    (hb : ss.isBuilt loops = true) (lv : List LoopLevel) (d : Nat) :
    (ss.trace lv d).BytesFit ↔ ss.countsFit = true := by
  match ss with
  | .nil => simp [StmtList.trace, StmtList.countsFit]
  | .cons stmt next =>
    simp only [StmtList.isBuilt, Bool.and_eq_true] at hb
    simp [StmtList.trace, StmtList.countsFit, stmt.bytesFit_trace hb.1, next.bytesFit_trace hb.2]

lemma Stmt.bytesFit_trace (stmt : Stmt) {loops : List (Option Nat)}
    (hb : stmt.isBuilt loops = true) (lv : List LoopLevel) (d : Nat) :
    (stmt.trace lv d).BytesFit ↔ stmt.countsFit = true := by
  match stmt with
  | .expr e =>
    simp only [Stmt.isBuilt] at hb
    simp [Stmt.trace, Stmt.countsFit, e.bytesFit_trace hb]
  | .ret none => simp [Stmt.trace, Stmt.countsFit]
  | .ret (some e) =>
    simp only [Stmt.isBuilt, Option.all_some] at hb
    simp [Stmt.trace, Stmt.countsFit, e.bytesFit_trace hb]
  | .brk _ | .cont _ => simp [Stmt.trace, Stmt.countsFit, bytesFit_exitTrace]
  | .list _ e body =>
    simp only [Stmt.isBuilt, Bool.and_eq_true] at hb
    simp [Stmt.trace, Stmt.countsFit, e.bytesFit_trace hb.1, body.bytesFit_trace hb.2]
  | .range _ lo hi body =>
    simp only [Stmt.isBuilt, Bool.and_eq_true] at hb
    simp [Stmt.trace, Stmt.countsFit, lo.bytesFit_trace hb.1.1, hi.bytesFit_trace hb.1.2,
      body.bytesFit_trace hb.2, and_assoc]
  | .loop _ c body =>
    simp only [Stmt.isBuilt, Bool.and_eq_true] at hb
    simp [Stmt.trace, Stmt.countsFit, c.bytesFit_trace hb.1, body.bytesFit_trace hb.2]
  | .fork _ time body =>
    simp only [Stmt.isBuilt, Bool.and_eq_true] at hb
    simp [Stmt.trace, Stmt.countsFit, time.bytesFit_trace hb.1, Trace.bytesFit_fork body rfl,
      body.bytesFit_trace hb.2]
  | .cond arms otherwise =>
    simp only [Stmt.isBuilt, Bool.and_eq_true] at hb
    simp [Stmt.trace, Stmt.countsFit, arms.bytesFit_trace hb.1.2, otherwise.bytesFit_trace hb.2]
  | .tryExcept body excepts =>
    simp only [Stmt.isBuilt, Bool.and_eq_true, decide_eq_true_eq] at hb
    have hlen : excepts.length < 256 ↔ excepts.length ≠ 256 := by omega
    simp only [Stmt.trace, Stmt.countsFit, Trace.bytesFit_append, Trace.bytesFit_byte,
      Trace.bytesFit_push, body.bytesFit_trace hb.1.2, ← excepts.bytesFit_traces hb.2 lv d d,
      hlen, Bool.and_eq_true, decide_eq_true_eq]
    tauto
  | .tryFinally body handler =>
    simp only [Stmt.isBuilt, Bool.and_eq_true] at hb
    simp [Stmt.trace, Stmt.countsFit, body.bytesFit_trace hb.1, handler.bytesFit_trace hb.2]

lemma CondArms.bytesFit_trace (arms : CondArms) {loops : List (Option Nat)}
    (hb : arms.isBuilt loops = true) (lv : List LoopLevel) (d : Nat) :
    (arms.trace lv d).BytesFit ↔ arms.countsFit = true := by
  match arms with
  | .nil => simp [CondArms.trace, CondArms.countsFit]
  | .cons c ss next =>
    simp only [CondArms.isBuilt, Bool.and_eq_true] at hb
    simp [CondArms.trace, CondArms.countsFit, c.bytesFit_trace hb.1.1, ss.bytesFit_trace hb.1.2,
      next.bytesFit_trace hb.2, and_assoc]

/-- The codes of the arms come in front of the body, the handlers behind it. -/
lemma ExceptArms.bytesFit_traces (arms : ExceptArms) {loops : List (Option Nat)}
    (hb : arms.isBuilt loops = true) (lv : List LoopLevel) (d e : Nat) :
    (arms.codesTrace d).BytesFit ∧ (arms.trace lv e).BytesFit ↔ arms.countsFit = true := by
  match arms with
  | .nil => simp [ExceptArms.codesTrace, ExceptArms.trace, ExceptArms.countsFit]
  | .cons _ codes ss next =>
    simp only [ExceptArms.isBuilt, Bool.and_eq_true] at hb
    simp only [ExceptArms.codesTrace, ExceptArms.trace, ExceptArms.countsFit,
      Trace.bytesFit_append, Trace.bytesFit_push, bytesFit_exceptTrace,
      codes.bytesFit_trace hb.1.1.2, ss.bytesFit_trace hb.1.2,
      ← next.bytesFit_traces hb.2 lv (d + 2) e, Bool.and_eq_true]
    tauto
end

/-- All vectors of a program together. -/
lemma StmtList.bytesFit_iff (ss : StmtList) (hb : ss.isBuilt [] = true) :
    (∀ b ∈ ss.bodies, ∀ x, .byte x ∈ b.trace.operands → x < 256) ↔ ss.countsFit = true := by
  rw [← ss.bytesFit_trace hb [] 0, StmtList.bodies]
  constructor
  · intro h
    exact ⟨h ⟨ss, (ss.trace [] 0).refs⟩ (List.mem_append_right _ (List.mem_singleton_self _)),
      fun b hb => h b (List.mem_append_left _ hb)⟩
  · intro h b hb
    rcases List.mem_append.mp hb with hb | hb
    · exact h.bodies b hb
    · obtain rfl := List.mem_singleton.mp hb
      exact h.operands

/-- A try-except with `n` arms for the error that `{}` stands for. -/
def manyArms : Nat → ExceptArms
  | 0 => .nil
  | n + 1 => .cons none (.cons .normal (.list .nil) .nil) .nil (manyArms n)

def armsProgram (n : Nat) : StmtList := .cons (.tryExcept .nil (manyArms n)) .nil

end LambdaMOO
