import LambdaMOO.VM.Run
import LambdaMOO.CodeGen.Sizes
import LambdaMOO.Decompile.Scatter

/-!
# Scattering assignments

What `EOP_SCATTER` binds for a pattern and a list, compared with dealing the list out to
the targets in their order. The operands are those that `generate_expr` emits for the
pattern.
-/

namespace LambdaMOO

/-! ### The operands of a pattern -/

/-- A variable and a label for each target; `lab` is the offset of the code for a default,
and `k` the number of the next one. -/
def Scatter.operands (lab : Nat → Nat) : Nat → Scatter → List (Nat × Nat)
  | _, .nil => []
  | k, .required slot next | k, .rest slot next => (slot, 0) :: next.operands lab k
  | k, .optional slot .none next => (slot, 1) :: next.operands lab k
  | k, .optional slot (.some _) next => (slot, lab k) :: next.operands lab (k + 1)

namespace Scatter

variable (sc : Scatter)

/-- The three counts as they are read. -/
def nargsByte : Nat := sc.length % 256

def nreqByte : Nat := sc.numRequired % 256

def restByte : Nat := (sc.restPosition 0).getD (sc.length + 1) % 256

/-- The error for a list. -/
def error (vs : List Value) : Option ErrorCode :=
  scatterError sc.nargsByte sc.nreqByte sc.restByte (.list vs)

/-- `nrest`. -/
def nrest (vs : List Value) : Int :=
  if sc.restByte ≤ sc.nargsByte ∧ sc.nargsByte ≤ vs.length then vs.length - sc.nargsByte + 1 else 0

/-- The start of the loop. -/
def start (vs : List Value) (env : List Value) : ScatterState :=
  ⟨1, 0, vs.length - sc.nreqByte, 0, env⟩

end Scatter

/-- What is emitted so far, without the rest of each cell. -/
def State.contents (s : State) : List Content := s.cells.map (·.content)

lemma State.contents_addFixup (f : Fixup) (s : State) :
    (s.addFixup f).contents = s.contents ++ [.fixup f] := by
  change (s.emitCell (.fixup f) _ _).cells.map _ = _
  rw [State.emitCell_cells, List.map_append]
  rfl

/-- The operands as they are emitted. -/
lemma contents_generateTargets (sc : Scatter) (s : State) :
    ∃ fs : List Fixup, (generateTargets sc s).contents = s.contents ++ fs.map .fixup ∧
      ∀ w labels, fs.map (·.value w labels)
        = (sc.operands (fun id => (labelValue labels id).resolve w) s.labels.length).flatMap
            fun t => [t.1, t.2] := by
  have hvar (slot : Nat) : (s.addVarRef slot).contents = s.contents ++ [.fixup (.varRef slot)] :=
    s.contents_addFixup _
  have hknown (slot value : Nat) : ((s.addVarRef slot).addPseudoLabel value).contents
      = (s.addVarRef slot).contents ++ [.fixup (.known ⟨value, Counts.zero⟩)] :=
    (s.addVarRef slot).contents_addFixup _
  have hvalue (w : Widths) (labels : List (Option LabelValue)) (value : Nat) :
      (Fixup.known ⟨value, Counts.zero⟩).value w labels = value := by
    simp [Fixup.value, LabelValue.resolve, Counts.zero]
  cases sc with
  | nil => exact ⟨[], (List.append_nil _).symm, fun _ _ => rfl⟩
  | required slot next =>
    obtain ⟨fs, hcells, hvalues⟩ :=
      contents_generateTargets next ((s.addVarRef slot).addPseudoLabel 0)
    refine ⟨.varRef slot :: .known ⟨0, Counts.zero⟩ :: fs, ?_, fun w labels => ?_⟩
    · rw [generateTargets, hcells, hknown, hvar, List.append_assoc, List.append_assoc]
      rfl
    · rw [List.map_cons, List.map_cons, hvalues w labels, hvalue]
      rfl
  | rest slot next =>
    obtain ⟨fs, hcells, hvalues⟩ :=
      contents_generateTargets next ((s.addVarRef slot).addPseudoLabel 0)
    refine ⟨.varRef slot :: .known ⟨0, Counts.zero⟩ :: fs, ?_, fun w labels => ?_⟩
    · rw [generateTargets, hcells, hknown, hvar, List.append_assoc, List.append_assoc]
      rfl
    · rw [List.map_cons, List.map_cons, hvalues w labels, hvalue]
      rfl
  | optional slot dflt next =>
    cases dflt with
    | none =>
      obtain ⟨fs, hcells, hvalues⟩ :=
        contents_generateTargets next ((s.addVarRef slot).addPseudoLabel 1)
      refine ⟨.varRef slot :: .known ⟨1, Counts.zero⟩ :: fs, ?_, fun w labels => ?_⟩
      · rw [generateTargets, hcells, hknown, hvar, List.append_assoc, List.append_assoc]
        rfl
      · rw [List.map_cons, List.map_cons, hvalues w labels, hvalue]
        rfl
    | some e =>
      obtain ⟨fs, hcells, hvalues⟩ := contents_generateTargets next (s.addVarRef slot).addLabel
      have hlabel : (s.addVarRef slot).addLabel.contents
          = (s.addVarRef slot).contents ++ [.fixup (.label s.labels.length)] :=
        (s.addVarRef slot).contents_addFixup _
      have hlen : (s.addVarRef slot).addLabel.labels.length = s.labels.length + 1 := by
        rw [State.labels_addLabel, List.length_append]
        rfl
      refine ⟨.varRef slot :: .label s.labels.length :: fs, ?_, fun w labels => ?_⟩
      · rw [generateTargets, hcells, hlabel, hvar, List.append_assoc, List.append_assoc]
        rfl
      · rw [List.map_cons, List.map_cons, hvalues w labels, hlen]
        rfl

/-- What one round of the loop stores. -/
def boundBy (vs : List Value) (rest : Nat) (nrest : Int) (label : Nat) (st : ScatterState) :
    Option Value :=
  if st.i = rest then some (.list (sublist vs st.i (st.i + nrest - 1)))
  else if label = 0 ∨ 0 < st.nopt then some (elementAt vs (st.i + st.offset))
  else none

/-- What the loop stores, target by target. -/
def boundValues (vs : List Value) (rest : Nat) (nrest : Int) :
    List (Nat × Nat) → ScatterState → List (Option Value)
  | [], _ => []
  | t :: ts, st => boundBy vs rest nrest t.2 st
      :: boundValues vs rest nrest ts (bindTarget vs rest nrest t st)

/-- The stores in their order. -/
def storeAll (env : List Value) : List (Nat × Nat) → List (Option Value) → List Value
  | (slot, _) :: ts, some v :: bs => storeAll (env.set slot v) ts bs
  | _ :: ts, none :: bs => storeAll env ts bs
  | _, _ => env

lemma bindTarget_env (vs : List Value) (rest : Nat) (nrest : Int) (t : Nat × Nat)
    (st : ScatterState) :
    (bindTarget vs rest nrest t st).env
      = match boundBy vs rest nrest t.2 st with
        | some v => st.env.set t.1 v
        | none => st.env := by
  unfold bindTarget boundBy
  by_cases hrest : st.i = rest
  · simp [hrest]
  · by_cases hlabel : t.2 = 0
    · simp [hrest, hlabel]
    · by_cases hopt : 0 < st.nopt
      · simp [hrest, hlabel, hopt]
      · simp [hrest, hlabel, hopt]

/-- The loop does nothing to the variables but these stores. -/
lemma bindTargets_env (vs : List Value) (rest : Nat) (nrest : Int) (ts : List (Nat × Nat))
    (st : ScatterState) :
    (bindTargets vs rest nrest ts st).env
      = storeAll st.env ts (boundValues vs rest nrest ts st) := by
  induction ts generalizing st with
  | nil => rfl
  | cons t ts ih =>
    rw [bindTargets, List.foldl_cons]
    refine (ih _).trans ?_
    rw [bindTarget_env, boundValues]
    cases boundBy vs rest nrest t.2 st <;> rfl

/-- What is stored, and where the code goes on, does not depend on the variables. -/
lemma bindTarget_setEnv (vs : List Value) (rest : Nat) (nrest : Int) (t : Nat × Nat)
    (st : ScatterState) (env : List Value) :
    ∃ env', bindTarget vs rest nrest t { st with env := env }
      = { bindTarget vs rest nrest t st with env := env' } := by
  simp only [bindTarget]
  split_ifs <;> exact ⟨_, rfl⟩

lemma boundValues_setEnv (vs : List Value) (rest : Nat) (nrest : Int) (ts : List (Nat × Nat))
    (st : ScatterState) (env : List Value) :
    boundValues vs rest nrest ts { st with env := env } = boundValues vs rest nrest ts st := by
  induction ts generalizing st env with
  | nil => rfl
  | cons t ts ih =>
    obtain ⟨env', h⟩ := bindTarget_setEnv vs rest nrest t st env
    rw [boundValues, boundValues, h, ih]
    rfl

lemma goal_bindTargets_setEnv (vs : List Value) (rest : Nat) (nrest : Int)
    (ts : List (Nat × Nat)) (st : ScatterState) (env : List Value) :
    (bindTargets vs rest nrest ts { st with env := env }).goal
      = (bindTargets vs rest nrest ts st).goal := by
  induction ts generalizing st env with
  | nil => rfl
  | cons t ts ih =>
    obtain ⟨env', h⟩ := bindTarget_setEnv vs rest nrest t st env
    simp only [bindTargets, List.foldl_cons] at ih ⊢
    rw [h, ih]

/-! ### Dealing out a list -/

namespace Scatter

/-- The values of the targets when `opt` optional ones are filled. The rest target gets the
first `t` of `n` values. -/
def deal (t n : Nat) : Scatter → Nat → List Value → List (Option Value)
  | .nil, _, _ => []
  | .required _ next, opt, vs => some (vs.headD .none) :: next.deal t n opt vs.tail
  | .optional _ _ next, 0, vs => none :: next.deal t n 0 vs
  | .optional _ _ next, opt + 1, vs => some (vs.headD .none) :: next.deal t n opt vs.tail
  | .rest _ next, opt, vs => some (.list (vs.take t)) :: next.deal t n opt (vs.drop n)

/-- The bound values and the values in the rest list, in the order of the pattern. -/
def gather : Scatter → List (Option Value) → Option (List Value)
  | .nil, [] => some []
  | .required _ next, some v :: bs | .optional _ _ next, some v :: bs =>
    (next.gather bs).map (v :: ·)
  | .optional _ _ next, none :: bs => next.gather bs
  | .rest _ next, some (.list us) :: bs => (next.gather bs).map (us ++ ·)
  | _, _ => none

/-- Which optional targets are bound, in their order. -/
def fills : Scatter → List (Option Value) → List Bool
  | .optional _ _ next, b :: bs => b.isSome :: next.fills bs
  | .required _ next, _ :: bs | .rest _ next, _ :: bs => next.fills bs
  | _, _ => []

def numOptional : Scatter → Nat
  | .nil => 0
  | .required _ next | .rest _ next => next.numOptional
  | .optional _ _ next => next.numOptional + 1

lemma length_eq (sc : Scatter) :
    sc.length = sc.numRequired + sc.numOptional + sc.numRest := by
  match sc with
  | .nil => rfl
  | .required _ next | .optional _ _ next | .rest _ next =>
    have ih := next.length_eq
    simp only [length, numRequired, numOptional, numRest]
    omega

variable {t n : Nat}

/-- Enough values and no more are dealt out. -/
lemma gather_deal (sc : Scatter) {opt : Nat} {vs : List Value}
    (h : vs.length = sc.numRequired + min opt sc.numOptional + sc.numRest * n) :
    sc.gather (sc.deal n n opt vs) = some vs := by
  match sc, opt with
  | .nil, _ =>
    obtain rfl : vs = [] := List.eq_nil_of_length_eq_zero (by simpa [numRequired, numOptional,
      numRest] using h)
    rfl
  | .required _ next, opt =>
    simp only [numRequired, numOptional, numRest] at h
    obtain ⟨v, vs, rfl⟩ := List.exists_cons_of_length_pos (by omega : 0 < vs.length)
    rw [List.length_cons] at h
    rw [deal, gather, List.tail_cons, next.gather_deal (by omega)]
    rfl
  | .optional _ _ next, 0 =>
    simp only [numRequired, numOptional, numRest, Nat.zero_min] at h
    exact next.gather_deal (by rw [Nat.zero_min]; exact h)
  | .optional _ _ next, opt + 1 =>
    simp only [numRequired, numOptional, numRest] at h
    obtain ⟨v, vs, rfl⟩ := List.exists_cons_of_length_pos (by omega : 0 < vs.length)
    rw [List.length_cons] at h
    rw [deal, gather, List.tail_cons, next.gather_deal (by omega)]
    rfl
  | .rest _ next, opt =>
    simp only [numRequired, numOptional, numRest, Nat.add_mul, Nat.one_mul] at h
    rw [deal, gather, next.gather_deal (by rw [List.length_drop]; omega)]
    exact congrArg some (List.take_append_drop n vs)

/-- Short of `n - t` values for the rest target. -/
lemma length_gather_deal (sc : Scatter) (opt : Nat) (vs : List Value) (ht : t ≤ n)
    (h : vs.length = sc.numRequired + min opt sc.numOptional + sc.numRest * n) :
    ∃ ws, sc.gather (sc.deal t n opt vs) = some ws ∧
      ws.length + sc.numRest * (n - t) = vs.length := by
  match sc, opt with
  | .nil, _ => exact ⟨[], rfl, by simpa [numRequired, numOptional, numRest] using h.symm⟩
  | .required _ next, opt =>
    simp only [numRequired, numOptional, numRest] at h
    obtain ⟨v, vs, rfl⟩ := List.exists_cons_of_length_pos (by omega : 0 < vs.length)
    rw [List.length_cons] at h
    obtain ⟨ws, hws, hlen⟩ := next.length_gather_deal opt vs ht (by omega)
    refine ⟨v :: ws, ?_, ?_⟩
    · rw [deal, gather, List.tail_cons, hws]
      rfl
    · rw [List.length_cons, List.length_cons, numRest, ← hlen]
      omega
  | .optional _ _ next, 0 =>
    simp only [numRequired, numOptional, numRest, Nat.zero_min] at h
    exact next.length_gather_deal 0 vs ht (by rw [Nat.zero_min]; exact h)
  | .optional _ _ next, opt + 1 =>
    simp only [numRequired, numOptional, numRest] at h
    obtain ⟨v, vs, rfl⟩ := List.exists_cons_of_length_pos (by omega : 0 < vs.length)
    rw [List.length_cons] at h
    obtain ⟨ws, hws, hlen⟩ := next.length_gather_deal opt vs ht (by omega)
    refine ⟨v :: ws, ?_, ?_⟩
    · rw [deal, gather, List.tail_cons, hws]
      rfl
    · rw [List.length_cons, List.length_cons, numRest, ← hlen]
      omega
  | .rest _ next, opt =>
    simp only [numRequired, numOptional, numRest, Nat.add_mul, Nat.one_mul] at h
    obtain ⟨ws, hws, hlen⟩ := next.length_gather_deal opt (vs.drop n) ht (by
      rw [List.length_drop]
      omega)
    refine ⟨vs.take t ++ ws, ?_, ?_⟩
    · rw [deal, gather, hws]
      rfl
    · rw [List.length_drop] at hlen
      rw [List.length_append, List.length_take, numRest, Nat.add_mul]
      omega

lemma deal_of_numRest_eq_zero (sc : Scatter) (h : sc.numRest = 0) (t n t' n' opt : Nat)
    (vs : List Value) : sc.deal t n opt vs = sc.deal t' n' opt vs := by
  match sc, opt with
  | .nil, _ => rfl
  | .required _ next, opt => rw [deal, deal, next.deal_of_numRest_eq_zero h t n t' n']
  | .optional _ _ next, 0 => rw [deal, deal, next.deal_of_numRest_eq_zero h t n t' n']
  | .optional _ _ next, opt + 1 => rw [deal, deal, next.deal_of_numRest_eq_zero h t n t' n']
  | .rest _ _, _ => simp [numRest] at h

/-- The optional targets are filled from the left. -/
lemma fills_deal (sc : Scatter) (opt : Nat) (vs : List Value) :
    sc.fills (sc.deal t n opt vs)
      = List.replicate (min opt sc.numOptional) true
        ++ List.replicate (sc.numOptional - opt) false := by
  match sc, opt with
  | .nil, opt => simp [fills, numOptional]
  | .required _ next, opt | .rest _ next, opt =>
    rw [deal, fills, next.fills_deal, numOptional]
  | .optional _ _ next, 0 =>
    rw [deal, fills, next.fills_deal, numOptional]
    simp [List.replicate_succ]
  | .optional _ _ next, opt + 1 =>
    rw [deal, fills, next.fills_deal, numOptional, Nat.succ_min_succ, List.replicate_succ,
      Nat.succ_sub_succ]
    rfl

/-- The number of the first default that is needed. -/
def firstDefault : Scatter → Nat → Nat → Option Nat
  | .nil, _, _ => none
  | .required _ next, k, opt | .rest _ next, k, opt => next.firstDefault k opt
  | .optional _ .none next, k, opt => next.firstDefault k (opt - 1)
  | .optional _ (.some _) _, k, 0 => some k
  | .optional _ (.some _) next, k, opt + 1 => next.firstDefault (k + 1) opt

end Scatter

/-! ### The loop -/

section

variable {vs : List Value} {rest : Nat} {nrest : Int} {st : ScatterState}

lemma bindTarget_rest (slot : Nat) (h : st.i = rest) :
    bindTarget vs rest nrest (slot, 0) st
      = ⟨st.i + 1, st.offset + nrest - 1, st.nopt, st.goal,
          st.env.set slot (.list (sublist vs st.i (st.i + nrest - 1)))⟩ := by
  simp [bindTarget, h]

lemma bindTarget_required (slot : Nat) (h : st.i ≠ rest) :
    bindTarget vs rest nrest (slot, 0) st
      = ⟨st.i + 1, st.offset, st.nopt, st.goal,
          st.env.set slot (elementAt vs (st.i + st.offset))⟩ := by
  simp [bindTarget, h]

lemma bindTarget_filled (slot : Nat) {label : Nat} (h : st.i ≠ rest) (hl : label ≠ 0)
    (hopt : 0 < st.nopt) :
    bindTarget vs rest nrest (slot, label) st
      = ⟨st.i + 1, st.offset, st.nopt - 1, st.goal,
          st.env.set slot (elementAt vs (st.i + st.offset))⟩ := by
  simp [bindTarget, h, hl, hopt]

lemma bindTarget_unfilled (slot : Nat) {label : Nat} (h : st.i ≠ rest) (hl : label ≠ 0)
    (hopt : ¬ 0 < st.nopt) :
    bindTarget vs rest nrest (slot, label) st
      = ⟨st.i + 1, st.offset - 1, st.nopt, if st.goal = 0 ∧ label ≠ 1 then label else st.goal,
          st.env⟩ := by
  simp [bindTarget, h, hl, hopt]

lemma elementAt_eq_headD {c : Nat} {k : Int} (h : k = c + 1) :
    elementAt vs k = (vs.drop c).headD .none := by
  have hk : k.toNat - 1 = c := by omega
  rw [elementAt, hk, List.getD_eq_getElem?_getD, List.headD_eq_head?_getD, List.head?_drop]

/-- In front of the targets `sc`, `c` values are dealt out. When there are values for the
rest target, every optional target gets one, so that its number is also its place. -/
structure Dealt (sc : Scatter) (rest : Nat) (nrest : Int) (c : Nat) (st : ScatterState) : Prop where
  restAt : RestAt rest st.i sc
  place : st.i + st.offset = c + 1
  nopt : 0 ≤ st.nopt
  full : sc.numRest ≠ 0 → 0 < nrest → st.offset = 0 ∧ sc.numOptional ≤ st.nopt

/-- The labels of the defaults are neither 0 nor 1. -/
def LabelsFrom (lab : Nat → Nat) (k : Nat) (sc : Scatter) : Prop :=
  ∀ j, k ≤ j → j < k + sc.numDefaults → 2 ≤ lab j

lemma boundValues_eq (sc : Scatter) {lab : Nat → Nat} {k c : Nat} {st : ScatterState}
    (hnrest : 0 ≤ nrest) (hone : sc.numRest ≤ 1) (hlab : LabelsFrom lab k sc)
    (h : Dealt sc rest nrest c st) :
    boundValues vs rest nrest (sc.operands lab k) st
      = sc.deal (nrest - 1).toNat nrest.toNat st.nopt.toNat (vs.drop c) := by
  match sc with
  | .nil => rfl
  | .required slot next =>
    obtain ⟨hi, hat⟩ := h.restAt
    have hnext : Dealt next rest nrest (c + 1) (bindTarget vs rest nrest (slot, 0) st) := by
      rw [bindTarget_required slot hi]
      exact ⟨hat, by have := h.place; push_cast; omega, h.nopt, h.full⟩
    rw [Scatter.operands, boundValues, boundValues_eq next hnrest hone hlab hnext, Scatter.deal,
      List.tail_drop, bindTarget_required slot hi]
    congr 1
    rw [boundBy, if_neg hi, if_pos (.inl rfl), elementAt_eq_headD h.place]
  | .rest slot next =>
    obtain ⟨hi, hat⟩ := h.restAt
    have hzero : next.numRest = 0 := by
      simp only [Scatter.numRest] at hone
      omega
    have hplace := h.place
    have hnext : Dealt next rest nrest (c + nrest.toNat)
        (bindTarget vs rest nrest (slot, 0) st) := by
      rw [bindTarget_rest slot hi]
      refine ⟨hat, ?_, h.nopt, fun h => absurd hzero h⟩
      push_cast
      omega
    rw [Scatter.operands, boundValues, boundValues_eq next hnrest (by omega) hlab hnext,
      Scatter.deal, List.drop_drop, bindTarget_rest slot hi]
    congr 1
    rw [boundBy, if_pos hi, sublist]
    have hlen : ((st.i : Int) + nrest - 1 - st.i).toNat = (nrest - 1).toNat := by omega
    rw [hlen]
    rcases Nat.eq_zero_or_pos (nrest - 1).toNat with h0 | hpos
    · rw [h0, List.take_zero, List.take_zero]
    · -- all optional targets are filled, so the place is the number of the target
      obtain ⟨hoffset, -⟩ := h.full (by simp [Scatter.numRest]) (by omega)
      have hc : (st.i : Int).toNat - 1 = c := by omega
      rw [hc]
  | .optional slot dflt next =>
    obtain ⟨hi, hat⟩ := h.restAt
    have hplace := h.place
    obtain ⟨label, k', hlabel, hops, hlab'⟩ : ∃ label k', label ≠ 0 ∧
        (Scatter.optional slot dflt next).operands lab k = (slot, label) :: next.operands lab k' ∧
        LabelsFrom lab k' next := by
      cases dflt with
      | none => exact ⟨1, k, by decide, rfl, hlab⟩
      | some e =>
        refine ⟨lab k, k + 1, ?_, rfl, fun j hj hlt => hlab j (by omega) ?_⟩
        · have := hlab k (Nat.le_refl k) (by simp [Scatter.numDefaults])
          omega
        · simp only [Scatter.numDefaults]
          omega
    rw [hops, boundValues]
    by_cases hopt : 0 < st.nopt
    · have hnext : Dealt next rest nrest (c + 1) (bindTarget vs rest nrest (slot, label) st) := by
        rw [bindTarget_filled slot hi hlabel hopt]
        refine ⟨hat, by push_cast; omega, by simp only; omega, fun hr hn => ?_⟩
        obtain ⟨ho, hle⟩ := h.full hr hn
        simp only [Scatter.numOptional] at hle
        exact ⟨ho, by simp only; omega⟩
      rw [boundValues_eq next hnrest hone hlab' hnext, bindTarget_filled slot hi hlabel hopt]
      obtain ⟨m, hm⟩ : ∃ m, st.nopt.toNat = m + 1 := ⟨st.nopt.toNat - 1, by omega⟩
      have hm' : (st.nopt - 1).toNat = m := by omega
      rw [hm, Scatter.deal, List.tail_drop, hm']
      congr 1
      rw [boundBy, if_neg hi, if_pos (.inr hopt), elementAt_eq_headD hplace]
    · have hnext : Dealt next rest nrest c (bindTarget vs rest nrest (slot, label) st) := by
        rw [bindTarget_unfilled slot hi hlabel hopt]
        refine ⟨hat, by push_cast; omega, h.nopt, fun hr hn => ?_⟩
        have hle := (h.full hr hn).2
        simp only [Scatter.numOptional] at hle
        push_cast at hle
        omega
      have hm : st.nopt.toNat = 0 := by omega
      rw [boundValues_eq next hnrest hone hlab' hnext, bindTarget_unfilled slot hi hlabel hopt, hm,
        Scatter.deal]
      congr 1
      rw [boundBy, if_neg hi, if_neg (by simp [hlabel, hopt])]

lemma bindTargets_cons (t : Nat × Nat) (ts : List (Nat × Nat)) :
    bindTargets vs rest nrest (t :: ts) st
      = bindTargets vs rest nrest ts (bindTarget vs rest nrest t st) := rfl

lemma bindTarget_i (t : Nat × Nat) : (bindTarget vs rest nrest t st).i = st.i + 1 := by
  obtain ⟨slot, label⟩ := t
  simp only [bindTarget]
  split_ifs <;> rfl

/-- The loop remembers the label of the first default that is needed. -/
lemma bindTargets_goal (sc : Scatter) {lab : Nat → Nat} {k : Nat} {st : ScatterState}
    (hlab : LabelsFrom lab k sc) (hat : RestAt rest st.i sc) :
    (bindTargets vs rest nrest (sc.operands lab k) st).goal
      = if st.goal = 0 then ((sc.firstDefault k st.nopt.toNat).map lab).getD 0 else st.goal := by
  match sc with
  | .nil => simp [Scatter.operands, bindTargets, Scatter.firstDefault]
  | .required slot next =>
    have hat' : RestAt rest (bindTarget vs rest nrest (slot, 0) st).i next :=
      bindTarget_i _ ▸ hat.2
    rw [Scatter.operands, bindTargets_cons, bindTargets_goal next hlab hat',
      bindTarget_required slot hat.1]
    rfl
  | .rest slot next =>
    have hat' : RestAt rest (bindTarget vs rest nrest (slot, 0) st).i next :=
      bindTarget_i _ ▸ hat.2
    rw [Scatter.operands, bindTargets_cons, bindTargets_goal next hlab hat',
      bindTarget_rest slot hat.1]
    rfl
  | .optional slot .none next =>
    have hat' : RestAt rest (bindTarget vs rest nrest (slot, 1) st).i next :=
      bindTarget_i _ ▸ hat.2
    rw [Scatter.operands, bindTargets_cons, bindTargets_goal next hlab hat', Scatter.firstDefault]
    by_cases hopt : 0 < st.nopt
    · have hm : (st.nopt - 1).toNat = st.nopt.toNat - 1 := by omega
      rw [bindTarget_filled slot hat.1 (by decide) hopt, hm]
    · have hm : st.nopt.toNat - 1 = st.nopt.toNat := by omega
      rw [bindTarget_unfilled slot hat.1 (by decide) hopt, hm]
      simp
  | .optional slot (.some e) next =>
    have htwo : 2 ≤ lab k := hlab k (Nat.le_refl k) (by simp [Scatter.numDefaults])
    have hlab' : LabelsFrom lab (k + 1) next := fun j hj hlt => hlab j (by omega) (by
      simp only [Scatter.numDefaults]
      omega)
    have hat' : RestAt rest (bindTarget vs rest nrest (slot, lab k) st).i next :=
      bindTarget_i _ ▸ hat.2
    rw [Scatter.operands, bindTargets_cons, bindTargets_goal next hlab' hat']
    by_cases hopt : 0 < st.nopt
    · obtain ⟨m, hm⟩ : ∃ m, st.nopt.toNat = m + 1 := ⟨st.nopt.toNat - 1, by omega⟩
      have hm' : (st.nopt - 1).toNat = m := by omega
      rw [bindTarget_filled slot hat.1 (by omega) hopt, hm, hm']
      rfl
    · have hm : st.nopt.toNat = 0 := by omega
      rw [bindTarget_unfilled slot hat.1 (by omega) hopt, hm, Scatter.firstDefault,
        Option.map_some, Option.getD_some]
      have hne : lab k ≠ 1 := by omega
      have hne0 : lab k ≠ 0 := by omega
      by_cases hgoal : st.goal = 0
      · simp [hgoal, hne, hne0]
      · simp [hgoal]

end

/-! ### The defaults -/

namespace Scatter

/-- The defaults with their variables. -/
def defaults : Scatter → List (Nat × Expr)
  | .nil => []
  | .required _ next | .rest _ next | .optional _ .none next => next.defaults
  | .optional slot (.some e) next => (slot, e) :: next.defaults

/-- The defaults of the targets that are not bound. -/
def unfilled : Scatter → List (Option Value) → List (Nat × Expr)
  | .optional slot (.some e) next, none :: bs => (slot, e) :: next.unfilled bs
  | .required _ next, _ :: bs | .rest _ next, _ :: bs | .optional _ _ next, _ :: bs =>
    next.unfilled bs
  | _, _ => []

lemma unfilled_zero (sc : Scatter) (t n : Nat) (vs : List Value) :
    sc.unfilled (sc.deal t n 0 vs) = sc.defaults := by
  match sc with
  | .nil => rfl
  | .required _ next | .rest _ next => rw [deal, unfilled, next.unfilled_zero, defaults]
  | .optional _ .none next =>
    rw [deal, unfilled, next.unfilled_zero, defaults]
    rintro _ ⟨⟩
  | .optional _ (.some _) next => rw [deal, unfilled, next.unfilled_zero, defaults]

end Scatter

section

variable {r : Bool} {dollars : Bool} {saved : Option Nat} {d : Nat}

/-- One default: its label is placed, and later ones are left alone. -/
lemma generateDefaults_some {slot : Nat} {e : Expr} {next : Scatter} {label : Nat} {s u : State}
    (hb : (Scatter.optional slot (.some e) next).isBuilt dollars = true)
    (hs : s.savedStack = saved) (hc : s.curStack = d)
    (hd : dollars = true → saved.isSome = true)
    (hlabels : ∀ i < next.numDefaults + 1, s.labels[label + i]? = some none)
    (hgen : generateDefaults r (.optional slot (.some e) next) label s = .ok u) :
    ∃ t, generateDefaults r next (label + 1) t = .ok u ∧ s.cells <+: t.cells ∧
      t.savedStack = saved ∧ t.curStack = d ∧ next.isBuilt dollars = true ∧
      t.labels[label]? = some (some s.captureLabel) ∧
      (∀ i < next.numDefaults, t.labels[label + 1 + i]? = some none) ∧
      (∀ pre v, generateDefaults r pre (label + 1) t = .ok v →
        generateDefaults r (.optional slot (.some e) pre) label s = .ok v) := by
  simp only [Scatter.isBuilt, Default.isBuilt, Bool.and_eq_true] at hb
  obtain ⟨s₁, h₁, f₁⟩ := generateExpr_laid (r := r) e hb.1 (s.defineLabel label) hs hc hd
  have k₂ := f₁.trans ((Lays.emitPut slot).trans ((Lays.emitOp .opPop).trans (Lays.popStack 1)))
  have hstep (pre : Scatter) : generateDefaults r (.optional slot (.some e) pre) label s
      = generateDefaults r pre (label + 1) (((s₁.emitPut slot).emitOp .opPop).popStack 1) := by
    simp only [generateDefaults, h₁, bind, Except.bind]
  refine ⟨((s₁.emitPut slot).emitOp .opPop).popStack 1, ?_, k₂.cells, k₂.savedStack.trans hs, ?_,
    hb.2, ?_, fun i hi => ?_, fun pre v hv => (hstep pre).trans hv⟩
  · rw [← hstep]
    exact hgen
  · change (s₁.emitPut slot).curStack - 1 = _
    rw [State.curStack_emitPut, f₁.curStack, State.defineLabel_curStack, hc, Nat.add_sub_cancel]
  · have hlt : label < s.labels.length :=
      (List.getElem?_eq_some_iff.mp (hlabels 0 (Nat.succ_pos _))).1
    apply k₂.getElem?_labels
    rw [State.defineLabel_labels, List.getElem?_set_self hlt]
  · apply k₂.getElem?_labels
    rw [State.getElem?_defineLabel_ne (by omega), Nat.add_right_comm]
    exact hlabels (i + 1) (Nat.succ_lt_succ hi)

/-- A label below those of the defaults stays where it is. -/
lemma getElem?_generateDefaults {sc : Scatter} {label id : Nat} {v : Option LabelValue}
    {s u : State} (hb : sc.isBuilt dollars = true) (hs : s.savedStack = saved)
    (hc : s.curStack = d) (hd : dollars = true → saved.isSome = true)
    (hlabels : ∀ i < sc.numDefaults, s.labels[label + i]? = some none)
    (hgen : generateDefaults r sc label s = .ok u)
    (hid : id < label ∨ label + sc.numDefaults ≤ id) (h : s.labels[id]? = some v) :
    u.labels[id]? = some v ∧ s.cells <+: u.cells := by
  obtain ⟨u', hu, k, -, -⟩ := generateDefaults_lays (r := r) sc hb label s hs hc hd hlabels
  obtain rfl := Except.ok.inj (hgen.symm.trans hu)
  exact ⟨k.labels id v (fun hp => by have := hp.1; have := hp.2; omega) h, k.cells⟩

/-- Every default has a place behind the targets. -/
lemma exists_label_generateDefaults (sc : Scatter) {label : Nat} {s u : State}
    (hb : sc.isBuilt dollars = true) (hs : s.savedStack = saved) (hc : s.curStack = d)
    (hd : dollars = true → saved.isSome = true)
    (hlabels : ∀ i < sc.numDefaults, s.labels[label + i]? = some none)
    (hgen : generateDefaults r sc label s = .ok u) {i : Nat} (hi : i < sc.numDefaults) :
    ∃ v, u.labels[label + i]? = some (some v) ∧ s.cells.length ≤ v.value := by
  match sc with
  | .nil => simp [Scatter.numDefaults] at hi
  | .required _ next | .rest _ next =>
    simp only [Scatter.isBuilt] at hb
    exact exists_label_generateDefaults next hb hs hc hd hlabels hgen hi
  | .optional _ .none next =>
    simp only [Scatter.isBuilt, Bool.and_eq_true] at hb
    exact exists_label_generateDefaults next hb.2 hs hc hd hlabels hgen hi
  | .optional slot (.some e) next =>
    obtain ⟨t, ht, hcells, hst, hct, hbt, hlabel, hnone, -⟩ :=
      generateDefaults_some hb hs hc hd hlabels hgen
    cases i with
    | zero =>
      obtain ⟨hu, -⟩ := getElem?_generateDefaults hbt hst hct hd hnone ht
        (.inl (Nat.lt_succ_self _)) hlabel
      exact ⟨s.captureLabel, hu, Nat.le_refl _⟩
    | succ i =>
      obtain ⟨v, hv, hle⟩ := exists_label_generateDefaults next hbt hst hct hd hnone ht
        (Nat.lt_of_succ_lt_succ hi)
      refine ⟨v, ?_, Nat.le_trans hcells.length_le hle⟩
      rw [← hv]
      congr 1
      omega

/-- The code from the first default that is needed on is the code of the defaults that are
needed. -/
lemma generateDefaults_split (sc : Scatter) {label : Nat} {s u : State}
    (hb : sc.isBuilt dollars = true) (hs : s.savedStack = saved) (hc : s.curStack = d)
    (hd : dollars = true → saved.isSome = true)
    (hlabels : ∀ i < sc.numDefaults, s.labels[label + i]? = some none)
    (hgen : generateDefaults r sc label s = .ok u) (t n opt : Nat) (vs : List Value) :
    ∃ pre suf v, sc = pre.append suf ∧ generateDefaults r pre label s = .ok v ∧
      generateDefaults r suf (label + pre.numDefaults) v = .ok u ∧
      suf.defaults = sc.unfilled (sc.deal t n opt vs) ∧ s.cells <+: v.cells ∧
      match sc.firstDefault label opt with
      | some id => u.labels[id]? = some (some v.captureLabel)
      | none => v = u := by
  match sc, opt with
  | .nil, _ => exact ⟨.nil, .nil, s, rfl, rfl, hgen, rfl, List.prefix_rfl, Except.ok.inj hgen⟩
  | .required slot next, opt =>
    simp only [Scatter.isBuilt] at hb
    obtain ⟨pre, suf, v, rfl, hpre, hsuf, hdef, hcells, hfirst⟩ :=
      generateDefaults_split next hb hs hc hd hlabels hgen t n opt vs.tail
    exact ⟨.required slot pre, suf, v, rfl, hpre, hsuf, hdef, hcells, hfirst⟩
  | .rest slot next, opt =>
    simp only [Scatter.isBuilt] at hb
    obtain ⟨pre, suf, v, rfl, hpre, hsuf, hdef, hcells, hfirst⟩ :=
      generateDefaults_split next hb hs hc hd hlabels hgen t n opt (vs.drop n)
    exact ⟨.rest slot pre, suf, v, rfl, hpre, hsuf, hdef, hcells, hfirst⟩
  | .optional slot .none next, 0 =>
    simp only [Scatter.isBuilt, Bool.and_eq_true] at hb
    obtain ⟨pre, suf, v, rfl, hpre, hsuf, hdef, hcells, hfirst⟩ :=
      generateDefaults_split next hb.2 hs hc hd hlabels hgen t n 0 vs
    exact ⟨.optional slot .none pre, suf, v, rfl, hpre, hsuf, hdef, hcells, hfirst⟩
  | .optional slot .none next, opt + 1 =>
    simp only [Scatter.isBuilt, Bool.and_eq_true] at hb
    obtain ⟨pre, suf, v, rfl, hpre, hsuf, hdef, hcells, hfirst⟩ :=
      generateDefaults_split next hb.2 hs hc hd hlabels hgen t n opt vs.tail
    exact ⟨.optional slot .none pre, suf, v, rfl, hpre, hsuf, hdef, hcells, hfirst⟩
  | .optional slot (.some e) next, 0 =>
    obtain ⟨w, hw, -, hsw, hcw, hbw, hlabel, hnone, -⟩ :=
      generateDefaults_some hb hs hc hd hlabels hgen
    obtain ⟨hu, -⟩ := getElem?_generateDefaults hbw hsw hcw hd hnone hw
      (.inl (Nat.lt_succ_self _)) hlabel
    exact ⟨.nil, _, s, rfl, rfl, hgen, (Scatter.unfilled_zero _ t n vs).symm, List.prefix_rfl, hu⟩
  | .optional slot (.some e) next, opt + 1 =>
    obtain ⟨w, hw, hcells, hsw, hcw, hbw, -, hnone, hstep⟩ :=
      generateDefaults_some hb hs hc hd hlabels hgen
    obtain ⟨pre, suf, v, rfl, hpre, hsuf, hdef, hcells', hfirst⟩ :=
      generateDefaults_split next hbw hsw hcw hd hnone hw t n opt vs.tail
    refine ⟨.optional slot (.some e) pre, suf, v, rfl, hstep pre v hpre, ?_, hdef,
      hcells.trans hcells', hfirst⟩
    rw [Scatter.numDefaults, ← hsuf]
    congr 1
    omega

end

/-! ### The instruction -/

namespace Scatter

variable (sc : Scatter) (w : Widths) (s u : State) (vs : List Value)

/-- The label behind the code of the defaults. `s` is the state in which `generate_expr`
emits `EOP_SCATTER`. -/
def doneLabel : Nat := (generateTargets sc (s.emitScatter sc)).labels.length

/-- The code of the defaults goes from the state behind the targets to `u`. -/
def Compiled (r : Bool) : Prop :=
  generateDefaults r sc s.labels.length (generateTargets sc (s.emitScatter sc)).addLabel = .ok u

/-- Where a label of the finished expression is in the vector. -/
def offsetOf (id : Nat) : Nat := (u.defineLabel (sc.doneLabel s)).labelPos w id

def ops : List (Nat × Nat) := sc.operands (sc.offsetOf w s u) s.labels.length

def done : Nat := sc.offsetOf w s u (sc.doneLabel s)

/-- What the instruction stores for a list, target by target. -/
def bound : List (Option Value) :=
  boundValues vs sc.restByte (sc.nrest vs) (sc.ops w s u) (sc.start vs [])

/-- Where it jumps to. -/
def jump : Nat :=
  let st := bindTargets vs sc.restByte (sc.nrest vs) (sc.ops w s u) (sc.start vs [])
  if st.goal = 0 then sc.done w s u else st.goal

/-- What a scattering assignment of a list is to do: an error exactly for a list that is too
short or too long; otherwise the values bound, in the order of the pattern, make up the
list, the optional targets are filled from the left, and what is executed next is the code
of the defaults of those that are not filled. -/
structure Scatters (r : Bool) : Prop where
  error : sc.error vs = some .eArgs
    ↔ vs.length < sc.numRequired ∨ (sc.numRest = 0 ∧ sc.length < vs.length)
  bound : sc.error vs = none → sc.gather (sc.bound w s u vs) = some vs
  order : sc.error vs = none →
    ∃ m n, sc.fills (sc.bound w s u vs) = List.replicate m true ++ List.replicate n false
  defaults : sc.error vs = none → ∃ pre suf v, sc = pre.append suf ∧
    generateDefaults r pre s.labels.length (generateTargets sc (s.emitScatter sc)).addLabel
      = .ok v ∧
    generateDefaults r suf (s.labels.length + pre.numDefaults) v = .ok u ∧
    suf.defaults = sc.unfilled (sc.bound w s u vs) ∧
    sc.jump w s u vs = v.captureLabel.resolve w

end Scatter

lemma le_resolve (w : Widths) (v : LabelValue) : v.value ≤ v.resolve w := by
  unfold LabelValue.resolve
  omega

section

variable {r : Bool} {sc : Scatter} {dollars : Bool} {s : State}

/-- The labels behind the targets: those of the defaults, and the one behind them. -/
lemma labels_generateTargets (sc : Scatter) (s : State) :
    sc.doneLabel s = s.labels.length + sc.numDefaults ∧
      (∀ i < sc.numDefaults, (generateTargets sc (s.emitScatter sc)).addLabel.labels[
        s.labels.length + i]? = some none) ∧
      (generateTargets sc (s.emitScatter sc)).addLabel.labels[sc.doneLabel s]? = some none ∧
      5 ≤ (generateTargets sc (s.emitScatter sc)).addLabel.cells.length := by
  obtain ⟨k, -, hl⟩ := generateTargets_lays (r := false) sc (s.emitScatter sc)
  have hs : (s.emitScatter sc).labels = s.labels := rfl
  rw [hs] at hl
  have hdone : sc.doneLabel s = s.labels.length + sc.numDefaults := by
    rw [Scatter.doneLabel, hl, List.length_append, List.length_replicate]
  refine ⟨hdone, fun i hi => ?_, State.getElem?_addLabel _, ?_⟩
  · rw [State.labels_addLabel, hl, List.append_assoc,
      List.getElem?_append_right (Nat.le_add_right _ _), Nat.add_sub_cancel_left,
      List.getElem?_append_left (by simpa using hi), List.getElem?_replicate_of_lt hi]
  · have h₁ : (s.emitScatter sc).cells.length = s.cells.length + 5 := by
      simp [State.emitScatter, State.emitByte, State.emitExtended, State.emitOp]
    have h₂ := k.cells.length_le
    have h₃ := (Lays.addLabel (r := false) (P := ∅)
      (s := generateTargets sc (s.emitScatter sc))).cells.length_le
    omega

/-- The position of a rest target, or a number that no target has. -/
lemma restAt_restByte (hone : sc.numRest ≤ 1) (hlen : sc.length ≤ 255) :
    RestAt sc.restByte 1 sc ∧ (sc.numRest = 1 → sc.restByte ≤ sc.length) ∧
      (sc.numRest = 0 → (sc.length < 255 → sc.length < sc.restByte) ∧
        (sc.length = 255 → sc.restByte = 0)) := by
  have hat := restAt_restPosition sc 0 hone
  rw [Nat.zero_add] at hat
  unfold Scatter.restByte
  cases hpos : sc.restPosition 0 with
  | some p =>
    have hp := sc.restPosition_le 0 p hpos
    have hne : sc.numRest ≠ 0 := fun h0 => by
      rw [sc.restPosition_eq_none 0 h0] at hpos
      cases hpos
    rw [hpos, Option.getD_some] at hat
    rw [Option.getD_some, Nat.mod_eq_of_lt (by omega)]
    exact ⟨hat, fun _ => by omega, fun h => absurd h hne⟩
  | none =>
    have hzero : sc.numRest = 0 := (sc.restPosition_eq_none_iff 0).mp hpos
    rw [hpos, Option.getD_none] at hat
    rw [Option.getD_none]
    rcases Nat.lt_or_ge sc.length 255 with hlt | hge
    · rw [Nat.mod_eq_of_lt (by omega)]
      exact ⟨hat, fun h => by omega, fun _ => ⟨fun _ => Nat.lt_succ_self _, fun h => by omega⟩⟩
    · have h255 : sc.length = 255 := by omega
      rw [h255]
      exact ⟨restAt_of_lt sc hzero (by decide), fun h => by omega,
        fun _ => ⟨fun h => by omega, fun _ => rfl⟩⟩

lemma Scatter.bytes_eq (hlen : sc.length ≤ 255) :
    sc.nargsByte = sc.length ∧ sc.nreqByte = sc.numRequired := by
  have hreq := sc.numRequired_le
  exact ⟨Nat.mod_eq_of_lt (by omega), Nat.mod_eq_of_lt (by omega)⟩

lemma Scatter.error_eq_none_iff (vs : List Value) :
    sc.error vs = none ↔ sc.error vs ≠ some .eArgs := by
  simp only [Scatter.error, scatterError]
  split_ifs <;> simp

/-- The counters of the loop at its start. -/
lemma dealt_start (hone : sc.numRest ≤ 1) (hlen : sc.length ≤ 255) {vs : List Value}
    (henough : sc.numRequired ≤ vs.length) (env : List Value) :
    Dealt sc sc.restByte (sc.nrest vs) 0 (sc.start vs env) := by
  obtain ⟨hargs, hreq⟩ := Scatter.bytes_eq hlen
  refine ⟨(restAt_restByte hone hlen).1, rfl, ?_, fun hrest hpos => ⟨rfl, ?_⟩⟩
  · simp only [Scatter.start, hreq]
    omega
  · have hnrest : sc.length ≤ vs.length := by
      rw [Scatter.nrest, hargs] at hpos
      split_ifs at hpos with h
      · exact h.2
      · omega
    have hsum := sc.length_eq
    simp only [Scatter.start, hreq]
    omega

/-- Without an error, and apart from 255 targets without a rest, the list is used up. -/
lemma length_dealt (hone : sc.numRest ≤ 1) (hlen : sc.length ≤ 255) {vs : List Value}
    (herr : sc.error vs = none)
    (hmax : sc.numRest = 0 ∧ sc.length = 255 → vs.length ≤ 255) :
    sc.numRequired ≤ vs.length ∧ 0 ≤ sc.nrest vs ∧
      vs.length = sc.numRequired + min (vs.length - sc.numRequired) sc.numOptional
        + sc.numRest * (sc.nrest vs).toNat := by
  obtain ⟨hargs, hreq⟩ := Scatter.bytes_eq hlen
  obtain ⟨-, hrest, hnone⟩ := restAt_restByte hone hlen
  have hsum := sc.length_eq
  simp only [Scatter.error, scatterError, hargs, hreq] at herr
  split_ifs at herr with hshort
  simp only [Scatter.nrest, hargs]
  rcases Nat.eq_zero_or_pos sc.numRest with h0 | hpos
  · obtain ⟨hlt, h255⟩ := hnone h0
    rw [h0, Nat.zero_mul]
    refine ⟨by omega, by split_ifs <;> omega, ?_⟩
    have hle : vs.length ≤ sc.length := by
      rcases Nat.lt_or_ge sc.length 255 with h | h
      · have := hlt h
        omega
      · have := hmax ⟨h0, by omega⟩
        omega
    omega
  · have h1 : sc.numRest = 1 := by omega
    have hle := hrest h1
    rw [h1, Nat.one_mul]
    refine ⟨by omega, by split_ifs <;> omega, ?_⟩
    split_ifs <;> omega

/-- What the loop stores, for the operands that are emitted. -/
lemma bound_eq (hone : sc.numRest ≤ 1) (hlen : sc.length ≤ 255) {w : Widths} {u : State}
    {vs : List Value} (hlab : LabelsFrom (sc.offsetOf w s u) s.labels.length sc)
    (henough : sc.numRequired ≤ vs.length) (hnrest : 0 ≤ sc.nrest vs) (env : List Value) :
    boundValues vs sc.restByte (sc.nrest vs) (sc.ops w s u) (sc.start vs env)
      = sc.deal (sc.nrest vs - 1).toNat (sc.nrest vs).toNat (vs.length - sc.numRequired) vs := by
  rw [Scatter.ops, boundValues_eq sc hnrest hone hlab (dealt_start hone hlen henough env),
    List.drop_zero]
  congr 1
  simp only [Scatter.start, (Scatter.bytes_eq hlen).2]
  omega

lemma error_iff (hone : sc.numRest ≤ 1) (hlen : sc.length ≤ 255) (vs : List Value) :
    (sc.error vs = some .eArgs
        ↔ vs.length < sc.numRequired ∨ (sc.numRest = 0 ∧ sc.length < vs.length))
      ↔ (sc.numRest = 0 ∧ sc.length = 255 → vs.length ≤ 255) := by
  obtain ⟨hargs, hreq⟩ := Scatter.bytes_eq hlen
  obtain ⟨-, hrest, hnone⟩ := restAt_restByte hone hlen
  have hreqle := sc.numRequired_le
  have herr : sc.error vs = some .eArgs
      ↔ vs.length < sc.numRequired ∨ (sc.length < sc.restByte ∧ sc.length < vs.length) := by
    simp only [Scatter.error, scatterError, hargs, hreq]
    split_ifs with h <;> simp [h]
  rw [herr]
  rcases Nat.eq_zero_or_pos sc.numRest with h0 | hpos
  · obtain ⟨hlt, h255⟩ := hnone h0
    rcases Nat.lt_or_ge sc.length 255 with h | h
    · have := hlt h
      omega
    · have := h255 (by omega)
      omega
  · have := hrest (by omega)
    omega

/-- The labels of the finished expression. -/
lemma offsets_of_compiled {u : State} {saved : Option Nat} {d : Nat}
    (hb : sc.isBuilt dollars = true) (hs : s.savedStack = saved) (hc : s.curStack = d)
    (hd : dollars = true → saved.isSome = true) (hgen : sc.Compiled s u r) (w : Widths) :
    LabelsFrom (sc.offsetOf w s u) s.labels.length sc ∧
      sc.done w s u = u.captureLabel.resolve w ∧
      ∀ id v, u.labels[id]? = some (some v) → sc.offsetOf w s u id = v.resolve w := by
  obtain ⟨hdone, hnone, hlast, hcells⟩ := labels_generateTargets sc s
  obtain ⟨k, hct, -⟩ := generateTargets_lays (r := r) sc (s.emitScatter sc)
  have hst : (generateTargets sc (s.emitScatter sc)).addLabel.savedStack = saved :=
    k.savedStack.trans hs
  have hct : (generateTargets sc (s.emitScatter sc)).addLabel.curStack = d := hct.trans hc
  obtain ⟨hu, -⟩ := getElem?_generateDefaults hb hst hct hd hnone hgen (.inr hdone.ge) hlast
  have hoffset (id : Nat) (v : LabelValue) (hv : u.labels[id]? = some (some v)) :
      sc.offsetOf w s u id = v.resolve w := by
    have hne : sc.doneLabel s ≠ id := by
      rintro rfl
      rw [hu] at hv
      cases hv
    have hget := State.getElem?_defineLabel_ne hne (s := u)
    rw [hv] at hget
    rw [Scatter.offsetOf, State.labelPos, labelValue, hget]
    rfl
  refine ⟨fun j hj hlt => ?_, ?_, hoffset⟩
  · obtain ⟨v, hv, hle⟩ := exists_label_generateDefaults sc hb hst hct hd hnone hgen
      (i := j - s.labels.length) (by omega)
    rw [Nat.add_sub_cancel' hj] at hv
    rw [hoffset j v hv]
    have := le_resolve w v
    omega
  · have hlt := (List.getElem?_eq_some_iff.mp hu).1
    have hget : (u.defineLabel (sc.doneLabel s)).labels[sc.doneLabel s]?
        = some (some u.captureLabel) := by
      rw [State.defineLabel_labels, List.getElem?_set_self hlt]
    rw [Scatter.done, Scatter.offsetOf, State.labelPos, labelValue, hget]
    rfl

/-- Where the code goes on. -/
lemma jump_spec (hone : sc.numRest ≤ 1) (hlen : sc.length ≤ 255) (hb : sc.isBuilt dollars = true)
    (hd : dollars = true → s.savedStack.isSome = true) {u : State} (hgen : sc.Compiled s u r)
    (w : Widths) {vs : List Value} (henough : sc.numRequired ≤ vs.length)
    (hnrest : 0 ≤ sc.nrest vs) :
    ∃ pre suf v, sc = pre.append suf ∧
      generateDefaults r pre s.labels.length (generateTargets sc (s.emitScatter sc)).addLabel
        = .ok v ∧
      generateDefaults r suf (s.labels.length + pre.numDefaults) v = .ok u ∧
      suf.defaults = sc.unfilled (sc.bound w s u vs) ∧
      sc.jump w s u vs = v.captureLabel.resolve w := by
  obtain ⟨hlab, hdone, hoffset⟩ := offsets_of_compiled hb rfl rfl hd hgen w
  obtain ⟨-, hnone, -, hcells⟩ := labels_generateTargets sc s
  obtain ⟨k, hct, -⟩ := generateTargets_lays (r := r) sc (s.emitScatter sc)
  have hst : (generateTargets sc (s.emitScatter sc)).addLabel.savedStack = s.savedStack :=
    k.savedStack
  have hct : (generateTargets sc (s.emitScatter sc)).addLabel.curStack = s.curStack := hct
  obtain ⟨pre, suf, v, hsc, hpre, hsuf, hdef, hle, hfirst⟩ := generateDefaults_split sc hb
    hst hct hd hnone hgen (sc.nrest vs - 1).toNat (sc.nrest vs).toNat
    (vs.length - sc.numRequired) vs
  refine ⟨pre, suf, v, hsc, hpre, hsuf, ?_, ?_⟩
  · rw [hdef, Scatter.bound, bound_eq hone hlen hlab henough hnrest]
  · have hopt : (sc.start vs []).nopt.toNat = vs.length - sc.numRequired := by
      simp only [Scatter.start, (Scatter.bytes_eq hlen).2]
      omega
    have hgoal : (bindTargets vs sc.restByte (sc.nrest vs) (sc.ops w s u) (sc.start vs [])).goal
        = ((sc.firstDefault s.labels.length (sc.start vs []).nopt.toNat).map
            (sc.offsetOf w s u)).getD 0 :=
      bindTargets_goal sc hlab (restAt_restByte hone hlen).1
    rw [hopt] at hgoal
    rw [Scatter.jump, hgoal]
    cases hdefault : sc.firstDefault s.labels.length (vs.length - sc.numRequired) with
    | none =>
      rw [hdefault] at hfirst
      obtain rfl : v = u := hfirst
      exact hdone
    | some id =>
      rw [hdefault] at hfirst
      have hpos : (sc.offsetOf w s u id) ≠ 0 := by
        have := le_resolve w v.captureLabel
        have : 5 ≤ v.captureLabel.value := hcells.trans hle.length_le
        rw [hoffset id _ hfirst]
        omega
      rw [Option.map_some, Option.getD_some, if_neg hpos, hoffset id _ hfirst]

/-- In all cases the values bound are those that are dealt out, the rest target getting all
of its values but the last one. -/
lemma bound_spec (hone : sc.numRest ≤ 1) (hlen : sc.length ≤ 255)
    (hb : sc.isBuilt dollars = true) (hd : dollars = true → s.savedStack.isSome = true)
    {u : State} (hgen : sc.Compiled s u r) (w : Widths) {vs : List Value}
    (herr : sc.error vs = none) (hmax : sc.numRest = 0 ∧ sc.length = 255 → vs.length ≤ 255) :
    sc.gather (sc.bound w s u vs) = some vs ↔ (sc.numRest = 1 → vs.length < sc.length) := by
  obtain ⟨hlab, -, -⟩ := offsets_of_compiled hb rfl rfl hd hgen w
  obtain ⟨henough, hnrest, hdealt⟩ := length_dealt hone hlen herr hmax
  have hbound : sc.bound w s u vs
      = sc.deal (sc.nrest vs - 1).toNat (sc.nrest vs).toNat (vs.length - sc.numRequired) vs :=
    bound_eq hone hlen hlab henough hnrest []
  have hargs := (Scatter.bytes_eq hlen).1
  rw [hbound]
  rcases Nat.eq_zero_or_pos sc.numRest with h0 | hpos
  · rw [sc.deal_of_numRest_eq_zero h0 (sc.nrest vs - 1).toNat (sc.nrest vs).toNat
      (sc.nrest vs).toNat (sc.nrest vs).toNat, sc.gather_deal hdealt]
    simp [h0]
  · have h1 : sc.numRest = 1 := by omega
    obtain ⟨-, hrest, -⟩ := restAt_restByte hone hlen
    have hle := hrest h1
    rcases Nat.lt_or_ge vs.length sc.length with hlt | hge
    · have hzero : sc.nrest vs = 0 := by
        rw [Scatter.nrest, hargs, if_neg (by omega)]
      rw [hzero] at hdealt ⊢
      exact ⟨fun _ _ => hlt, fun _ => sc.gather_deal hdealt⟩
    · have hnrest' : sc.nrest vs = vs.length - sc.length + 1 := by
        rw [Scatter.nrest, hargs, if_pos ⟨hle, hge⟩]
      have ht : (sc.nrest vs - 1).toNat ≤ (sc.nrest vs).toNat := by omega
      obtain ⟨ws, hws, hlost⟩ := sc.length_gather_deal _ vs ht hdealt
      rw [h1, Nat.one_mul] at hlost
      rw [hws, h1]
      constructor
      · intro h
        obtain rfl := Option.some.inj h
        omega
      · intro h
        have := h rfl
        omega

lemma scatters_iff_of_compiled (hone : sc.numRest ≤ 1) (hlen : sc.length ≤ 255)
    (hb : sc.isBuilt dollars = true) (hd : dollars = true → s.savedStack.isSome = true)
    {u : State} (hgen : sc.Compiled s u r) (w : Widths) (vs : List Value) :
    sc.Scatters w s u vs r
      ↔ (sc.numRest = 1 → vs.length < sc.length) ∧
        (sc.numRest = 0 ∧ sc.length = 255 → vs.length ≤ 255) := by
  constructor
  · intro h
    have hmax := (error_iff hone hlen vs).mp h.error
    refine ⟨fun h1 => ?_, hmax⟩
    by_contra hge
    have herr : sc.error vs = none := by
      rw [Scatter.error_eq_none_iff, Ne, h.error]
      have := sc.length_eq
      omega
    exact hge ((bound_spec hone hlen hb hd hgen w herr hmax).mp (h.bound herr) h1)
  · rintro ⟨hlast, hmax⟩
    refine ⟨(error_iff hone hlen vs).mpr hmax, fun herr => ?_, fun herr => ?_, fun herr => ?_⟩
    · exact (bound_spec hone hlen hb hd hgen w herr hmax).mpr hlast
    · obtain ⟨hlab, -, -⟩ := offsets_of_compiled hb rfl rfl hd hgen w
      obtain ⟨henough, hnrest, -⟩ := length_dealt hone hlen herr hmax
      rw [Scatter.bound, bound_eq hone hlen hlab henough hnrest, sc.fills_deal]
      exact ⟨_, _, rfl⟩
    · obtain ⟨henough, hnrest, -⟩ := length_dealt hone hlen herr hmax
      exact jump_spec hone hlen hb hd hgen w henough hnrest

end

/-- A scattering assignment as it is generated. The instruction is emitted in the state `s`,
and `u` is the state behind the defaults. -/
structure Scatter.Emitted (r : Bool) (sc : Scatter) (rhs : Expr) (s₀ s u : State) : Prop where
  value : generateExpr r rhs s₀ = .ok s
  defaults : sc.Compiled s u r
  expr : generateExpr r (.asgn (.scatter sc) rhs) s₀ = .ok (u.defineLabel (sc.doneLabel s))
  operands : ∃ fs : List Fixup, s.contents ++ [.op .opExtended, .eop .eopScatter, .byte sc.length,
      .byte sc.numRequired, .byte ((sc.restPosition 0).getD (sc.length + 1))]
        ++ fs.map .fixup <+: u.contents ∧
    ∀ w, fs.map (·.value w (u.defineLabel (sc.doneLabel s)).labels)
      = (sc.ops w s u).flatMap (fun t => [t.1, t.2]) ++ [sc.done w s u]

/-- What the instruction does with a list, in terms of `error`, `bound` and `jump`. -/
lemma execScatter_eq {W : World} (sc : Scatter) (w : Widths) (s u : State) (vs : List Value)
    (a : Activation W.Data W.Info) (fs : Frames W) (db : W.Db) {stack : List StackSlot}
    (h : a.stack = .val (.list vs) :: stack) :
    execScatter sc.nargsByte sc.nreqByte sc.restByte (sc.ops w s u) (sc.done w s u) a fs db
      = match sc.error vs with
        | some e => pushError { a with stack := stack, pc := sc.done w s u } fs db e
        | none => .ok (.go ({ a with
            env := storeAll a.env (sc.ops w s u) (sc.bound w s u vs)
            pc := sc.jump w s u vs } :: fs) db) := by
  have hbound : boundValues vs sc.restByte (sc.nrest vs) (sc.ops w s u) (sc.start vs a.env)
      = sc.bound w s u vs := boundValues_setEnv _ _ _ _ (sc.start vs []) a.env
  have hgoal : (bindTargets vs sc.restByte (sc.nrest vs) (sc.ops w s u) (sc.start vs a.env)).goal
      = (bindTargets vs sc.restByte (sc.nrest vs) (sc.ops w s u) (sc.start vs [])).goal :=
    goal_bindTargets_setEnv _ _ _ _ (sc.start vs []) a.env
  have henv : (bindTargets vs sc.restByte (sc.nrest vs) (sc.ops w s u) (sc.start vs a.env)).env
      = storeAll a.env (sc.ops w s u) (sc.bound w s u vs) :=
    (bindTargets_env vs sc.restByte (sc.nrest vs) (sc.ops w s u) (sc.start vs a.env)).trans
      (congrArg _ hbound)
  simp only [execScatter, h, pop1, bind, Except.bind]
  cases herr : sc.error vs with
  | some e =>
    rw [Scatter.error] at herr
    rw [herr]
  | none =>
    rw [Scatter.error] at herr
    rw [herr, Scatter.jump, ← hgoal]
    simp only [pure, Except.pure, ← h]
    rw [← henv]
    rfl

/-- The code of a scattering assignment, and what is behind the targets. -/
lemma exists_emitted {r : Bool} {dollars : Bool} (sc : Scatter) (rhs : Expr) {s₀ : State}
    (hb : (Expr.asgn (.scatter sc) rhs).isBuilt dollars = true)
    (hd : dollars = true → s₀.savedStack.isSome = true) :
    ∃ s u, sc.Emitted r rhs s₀ s u ∧ (dollars = true → s.savedStack.isSome = true) := by
  simp only [Expr.isBuilt, Bool.and_eq_true, decide_eq_true_eq] at hb
  obtain ⟨s, hs, f⟩ := generateExpr_laid (r := r) rhs hb.2 s₀ rfl rfl hd
  have hd' : dollars = true → s.savedStack.isSome = true := f.savedStack ▸ hd
  obtain ⟨hdone, hnone, hlast, -⟩ := labels_generateTargets sc s
  obtain ⟨k, hct, -⟩ := generateTargets_lays (r := r) sc (s.emitScatter sc)
  obtain ⟨u, hu, l, -, -⟩ := generateDefaults_lays (r := r) sc hb.1.2 s.labels.length
    (generateTargets sc (s.emitScatter sc)).addLabel k.savedStack hct hd' hnone
  refine ⟨s, u, ⟨hs, hu, ?_, ?_⟩, hd'⟩
  · simp only [generateExpr, Except.bind_eq_ok]
    exact ⟨s, hs, u, hu, rfl⟩
  · obtain ⟨fs, hcells, hvalues⟩ := contents_generateTargets sc (s.emitScatter sc)
    refine ⟨fs ++ [.label (sc.doneLabel s)], ?_, fun w => ?_⟩
    · have hlabel : (generateTargets sc (s.emitScatter sc)).addLabel.contents
          = (generateTargets sc (s.emitScatter sc)).contents ++ [.fixup (.label (sc.doneLabel s))] :=
        State.contents_addFixup _ _
      have hscatter : (s.emitScatter sc).contents = s.contents ++ [.op .opExtended,
          .eop .eopScatter, .byte sc.length, .byte sc.numRequired,
          .byte ((sc.restPosition 0).getD (sc.length + 1))] := by
        simp [State.contents, State.emitScatter, State.emitByte, State.emitExtended, State.emitOp]
      have hpre : (generateTargets sc (s.emitScatter sc)).addLabel.contents <+: u.contents :=
        List.IsPrefix.map Cell.content l.cells
      rw [hlabel, hcells, hscatter, List.append_assoc] at hpre
      rw [List.map_append]
      exact hpre
    · rw [List.map_append, hvalues]
      rfl

/-- A scattering assignment does what it is to do, unless the rest target gets an element or
there are 255 targets, none of them a rest, and too many elements. -/
theorem Scatter.scatters_iff {r : Bool} {dollars : Bool} (sc : Scatter) (rhs : Expr)
    (s₀ : State) (hb : (Expr.asgn (.scatter sc) rhs).isBuilt dollars = true)
    (hd : dollars = true → s₀.savedStack.isSome = true) :
    ∃ s u, sc.Emitted r rhs s₀ s u ∧ ∀ w vs,
      (∀ (W : World) (a : Activation W.Data W.Info) (fs : Frames W) (db : W.Db) stack,
        a.stack = .val (.list vs) :: stack →
        execScatter sc.nargsByte sc.nreqByte sc.restByte (sc.ops w s u) (sc.done w s u) a fs db
          = match sc.error vs with
            | some e => pushError { a with stack := stack, pc := sc.done w s u } fs db e
            | none => .ok (.go ({ a with
                env := storeAll a.env (sc.ops w s u) (sc.bound w s u vs)
                pc := sc.jump w s u vs } :: fs) db)) ∧
      (sc.Scatters w s u vs r
        ↔ (sc.numRest = 1 → vs.length < sc.length) ∧
          (sc.numRest = 0 ∧ sc.length = 255 → vs.length ≤ 255)) := by
  obtain ⟨s, u, hemit, hd'⟩ := exists_emitted (r := r) sc rhs hb hd
  simp only [Expr.isBuilt, Bool.and_eq_true, decide_eq_true_eq] at hb
  refine ⟨s, u, hemit, fun w vs => ⟨fun W a fs db stack h => ?_, ?_⟩⟩
  · exact execScatter_eq sc w s u vs a fs db h
  · exact scatters_iff_of_compiled hb.1.1.1.2 hb.1.1.2 hb.1.2 hd' hemit.defaults w vs

/-- `{a, ?b = 1, @c} = {5, 6}` leaves `c` empty, as it is to do. -/
theorem Scatter.scatters_iff_optional :
    ∃ s u, (required 0 (.optional 1 (.some (.var (.int 1))) (.rest 2 .nil))).Emitted true (.id 3)
        (State.init initGState) s u ∧
      ∀ w, (required 0 (.optional 1 (.some (.var (.int 1))) (.rest 2 .nil))).Scatters w s u
        [.int 5, .int 6] true := by
  have hb : (Expr.asgn (.scatter (required 0 (.optional 1 (.some (.var (.int 1)))
      (.rest 2 .nil)))) (.id 3)).isBuilt false = true := by decide
  obtain ⟨s, u, hemit, h⟩ := scatters_iff (r := true) _ _ (State.init initGState) hb (by rintro ⟨⟩)
  exact ⟨s, u, hemit, fun w => (h w [.int 5, .int 6]).2.mpr (by decide)⟩

/-- `{a, @b} = {1, 2}` leaves `b` empty, too. -/
theorem Scatter.not_scatters_last :
    (Expr.asgn (.scatter (.required 0 (.rest 1 .nil))) (.id 2)).isBuilt false = true ∧
    ∀ r w s u, (required 0 (.rest 1 .nil)).bound w s u [.int 1, .int 2]
        = [some (.int 1), some (.list [])] ∧
      ¬ (required 0 (.rest 1 .nil)).Scatters w s u [.int 1, .int 2] r := by
  refine ⟨by decide, fun r w s u => ⟨rfl, fun h => ?_⟩⟩
  have hbound : some [Value.int 1] = some [Value.int 1, Value.int 2] := h.bound rfl
  simp at hbound

end LambdaMOO
