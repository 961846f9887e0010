import LambdaMOO.Lib.Distinct
import LambdaMOO.Lists.Insert
import LambdaMOO.VM.Value

/-!
# Lists as sets

`setadd` and `setremove`, for which the values of a list are those that `equality` finds in it. It
takes strings for equal that differ in the case of letters only.
-/

namespace LambdaMOO

/-- `ismember` with `case_matters` off. -/
def ismember (lhs : Value) (rhs : List Value) : Nat :=
  match rhs.findIdx? lhs.equality with
  | some i => i + 1
  | none => 0

/-- `listdelete`. -/
def listdelete (list : List Value) (pos : Nat) : List Value := list.take (pos - 1) ++ list.drop pos

/-- `setadd`. -/
def setadd (list : List Value) (value : Value) : List Value :=
  if ismember value list ≠ 0 then list else list ++ [value]

/-- `setremove`. -/
def setremove (list : List Value) (value : Value) : List Value :=
  let i := ismember value list
  if i ≠ 0 then listdelete list i else list

/-- `bf_setadd`. The list is the same array only if it has the value: it is referred to by the
arguments, so that an addition is always to a copy. `max` is the server option
`max_list_concat`. -/
def bfSetadd (max : Nat) (catchable : Bool) (list : List Value) (value : Value) :
    ValuePackage (List Value) :=
  let r := setadd list value
  if ismember value list ≠ 0 ∨ r.length ≤ max then .ret r else makeSpacePack catchable

/-- `bf_setremove`. -/
def bfSetremove (list : List Value) (value : Value) : ValuePackage (List Value) :=
  .ret (setremove list value)

/-- A call of one of the two. -/
inductive SetOp where
  | add (value : Value)
  | remove (value : Value)

/-- What the call returns. -/
def SetOp.call (max : Nat) (catchable : Bool) (list : List Value) :
    SetOp → ValuePackage (List Value)
  | .add value => bfSetadd max catchable list value
  | .remove value => bfSetremove list value

/-- The list after calls that all return one. -/
def SetOp.run (max : Nat) (catchable : Bool) : List SetOp → List Value → Option (List Value)
  | [], list => some list
  | op :: ops, list =>
    match op.call max catchable list with
    | .ret r => SetOp.run max catchable ops r
    | _ => none

/-- What the call says about whether a value is in the set. -/
def SetOp.tells (w : Value) : SetOp → Option Bool
  | .add value => if w.equality value then some true else none
  | .remove value => if w.equality value then some false else none

/-- What the last of the calls that say anything about a value says, `b` if none does. -/
def SetOp.last (w : Value) (ops : List SetOp) (b : Bool) : Bool :=
  ops.foldl (fun b op => (op.tells w).getD b) b

/-! ## Equality -/

mutual
lemma Value.equality_symm : ∀ v w : Value, v.equality w = w.equality v
  | .int m, w => by cases w <;> simp [Value.equality, eq_comm]
  | .obj m, w => by cases w <;> simp [Value.equality, eq_comm]
  | .str s, w => by cases w <;> simp [Value.equality, strEqual, eq_comm]
  | .err e, w => by cases w <;> simp [Value.equality, eq_comm]
  | .float f, w => by cases w <;> simp [Value.equality, FlNum.ceq_comm]
  | .list us, w => by
    cases w with
    | list vs => rw [Value.equality, Value.equality, Value.equalities_symm us vs]
    | _ => simp [Value.equality]
  | .waif m, w => by cases w <;> simp [Value.equality, eq_comm]
  | .clear, w => by cases w <;> simp [Value.equality]
  | .none, w => by cases w <;> simp [Value.equality]

lemma Value.equalities_symm : ∀ us vs : List Value,
    Value.equalities us vs = Value.equalities vs us
  | [], [] => rfl
  | [], _ :: _ => rfl
  | _ :: _, [] => rfl
  | u :: us, v :: vs => by
    rw [Value.equalities, Value.equalities, Value.equality_symm u v, Value.equalities_symm us vs]
end

mutual
lemma Value.equality_trans : ∀ u v w : Value,
    u.equality v = true → v.equality w = true → u.equality w = true
  | .int m, v, w => by cases v <;> cases w <;> simp +contextual [Value.equality]
  | .obj m, v, w => by cases v <;> cases w <;> simp +contextual [Value.equality]
  | .str s, v, w => by cases v <;> cases w <;> simp +contextual [Value.equality, strEqual]
  | .err e, v, w => by cases v <;> cases w <;> simp +contextual [Value.equality]
  | .float f, v, w => by
    intro huv hvw
    cases v with
    | float g =>
      cases w with
      | float k => exact FlNum.ceq_trans huv hvw
      | _ => simp [Value.equality] at hvw
    | _ => simp [Value.equality] at huv
  | .list us, v, w => by
    intro huv hvw
    cases v with
    | list vs =>
      cases w with
      | list ws =>
        rw [Value.equality] at huv hvw ⊢
        exact Value.equalities_trans us vs ws huv hvw
      | _ => simp [Value.equality] at hvw
    | _ => simp [Value.equality] at huv
  | .waif m, v, w => by cases v <;> cases w <;> simp +contextual [Value.equality]
  | .clear, v, w => by simp [Value.equality]
  | .none, v, w => by simp [Value.equality]

lemma Value.equalities_trans : ∀ us vs ws : List Value,
    Value.equalities us vs = true → Value.equalities vs ws = true →
      Value.equalities us ws = true
  | [], [], _ => fun _ h => h
  | [], _ :: _, _ => fun h _ => absurd h Bool.false_ne_true
  | _ :: _, [], _ => fun h _ => absurd h Bool.false_ne_true
  | _ :: _, _ :: _, [] => fun _ h => absurd h Bool.false_ne_true
  | u :: us, v :: vs, w :: ws => by
    rw [Value.equalities, Value.equalities, Value.equalities, Bool.and_eq_true, Bool.and_eq_true,
      Bool.and_eq_true]
    rintro ⟨huv, husvs⟩ ⟨hvw, hvsws⟩
    exact ⟨Value.equality_trans u v w huv hvw, Value.equalities_trans us vs ws husvs hvsws⟩
end

lemma Value.isEquality : Distinct.IsEquality Value.equality :=
  ⟨Value.equality_symm, Value.equality_trans⟩

/-! ## Sets -/

section

open Distinct

variable {l l' : List Value} {v w : Value} {max : Nat} {catchable : Bool}

lemma ismember_ne_zero : ismember v l ≠ 0 ↔ v ∈ members Value.equality l := by
  have hsome : (l.findIdx? v.equality).isSome = l.any v.equality := List.findIdx?_isSome
  rw [ismember]
  cases hfind : l.findIdx? v.equality with
  | none =>
    rw [hfind, Option.isSome_none, eq_comm, List.any_eq_false] at hsome
    refine iff_of_false (fun h => h rfl) ?_
    rintro ⟨x, hx, heq⟩
    exact hsome x hx heq
  | some i =>
    rw [hfind, Option.isSome_some, eq_comm, List.any_eq_true] at hsome
    exact iff_of_true (Nat.succ_ne_zero i) hsome

lemma setremove_eq : setremove l v = l.eraseP v.equality := by
  rw [setremove, ismember, List.eraseP_eq_eraseIdx]
  cases l.findIdx? v.equality with
  | none => rfl
  | some i => exact (List.eraseIdx_eq_take_drop_succ l i).symm

lemma holds_setadd (h : Holds Value.equality l) : Holds Value.equality (setadd l v) := by
  rw [setadd]
  split_ifs with hmem
  · exact h
  · exact Value.isEquality.holds_concat h (fun hv => hmem (ismember_ne_zero.mpr hv))

lemma mem_members_setadd :
    w ∈ members Value.equality (setadd l v)
      ↔ w ∈ members Value.equality l ∨ w.equality v = true := by
  rw [setadd]
  split_ifs with hmem
  · rw [ismember_ne_zero] at hmem
    refine ⟨.inl, fun h => h.elim id fun heq => ?_⟩
    exact (Value.isEquality.mem_members_congr heq).mpr hmem
  · exact mem_members_concat

lemma length_setadd_le (h : l.length ≤ max) (hr : ismember v l ≠ 0 ∨ (setadd l v).length ≤ max) :
    (setadd l v).length ≤ max := by
  rcases hr with hmem | hr
  · rw [setadd, if_pos hmem]
    exact h
  · exact hr

/-- One call does to the set what it says. -/
lemma SetOp.call_spec {op : SetOp} (hl : Holds Value.equality l) (hmax : l.length ≤ max)
    (hcall : op.call max catchable l = .ret l') :
    Holds Value.equality l' ∧ l'.length ≤ max ∧
      ∀ w, ismember w l' ≠ 0 ↔ (op.tells w).getD (ismember w l != 0) = true := by
  cases op with
  | add v =>
    rw [SetOp.call, bfSetadd] at hcall
    split_ifs at hcall with hr
    · obtain rfl := ValuePackage.ret.inj hcall
      refine ⟨holds_setadd hl, length_setadd_le hmax hr, fun w => ?_⟩
      rw [ismember_ne_zero, mem_members_setadd, SetOp.tells]
      by_cases heq : w.equality v = true
      · simp [heq]
      · simp [heq, ← ismember_ne_zero]
    · cases catchable with
      | false => cases hcall
      | true => cases hcall
  | remove v =>
    obtain rfl := ValuePackage.ret.inj hcall
    rw [setremove_eq]
    refine ⟨hl.eraseP, (List.length_eraseP_le).trans hmax, fun w => ?_⟩
    rw [ismember_ne_zero, Value.isEquality.mem_members_eraseP hl, SetOp.tells]
    by_cases heq : w.equality v = true
    · simp [heq]
    · simp [heq, ← ismember_ne_zero]

lemma SetOp.run_holds {ops : List SetOp} (hl : Holds Value.equality l) (hmax : l.length ≤ max)
    (hrun : SetOp.run max catchable ops l = some l') :
    Holds Value.equality l' ∧ l'.length ≤ max ∧
      ∀ w, ismember w l' ≠ 0 ↔ SetOp.last w ops (ismember w l != 0) = true := by
  induction ops generalizing l with
  | nil =>
    obtain rfl := Option.some.inj hrun
    refine ⟨hl, hmax, fun w => ?_⟩
    rw [SetOp.last, List.foldl_nil, bne_iff_ne]
  | cons op ops ih =>
    rw [SetOp.run] at hrun
    cases hcall : op.call max catchable l with
    | ret r =>
      rw [hcall] at hrun
      obtain ⟨hr, hrmax, hmem⟩ := op.call_spec hl hmax hcall
      obtain ⟨hl', hmax', hmem'⟩ := ih hr hrmax hrun
      refine ⟨hl', hmax', fun w => ?_⟩
      have hstart : (ismember w r != 0) = (op.tells w).getD (ismember w l != 0) := by
        rw [Bool.eq_iff_iff, bne_iff_ne]
        exact hmem w
      rw [hmem', hstart]
      rfl
    | error e =>
      rw [hcall] at hrun
      cases hrun
    | abort =>
      rw [hcall] at hrun
      cases hrun

end

/-- After any calls of `setadd` and `setremove`, beginning with the empty list, no two elements are
equal, a value is in the list exactly if the last call with an equal one was an addition, and the
next addition is refused exactly if the list is full and the value is not in it. -/
theorem SetOp.run_sets {max : Nat} {catchable : Bool} {ops : List SetOp} {l : List Value}
    (hrun : SetOp.run max catchable ops [] = some l) :
    (l.Pairwise fun x y => x.equality y = false) ∧
      (∀ w, ismember w l ≠ 0 ↔ SetOp.last w ops false = true) ∧
      ∀ v, bfSetadd max catchable l v = makeSpacePack catchable
        ↔ SetOp.last v ops false = false ∧ l.length = max := by
  obtain ⟨hl, hmax, hmem⟩ := SetOp.run_holds List.Pairwise.nil (Nat.zero_le max) hrun
  have hspace (r : List Value) : .ret r ≠ makeSpacePack catchable := by
    intro h
    cases catchable with
    | false => cases h
    | true => cases h
  refine ⟨hl, hmem, fun v => ?_⟩
  have hlast : SetOp.last v ops false = false ↔ ¬ismember v l ≠ 0 := by
    rw [hmem v]
    exact Bool.not_eq_true _ |>.symm ▸ Iff.rfl
  rw [hlast, bfSetadd, setadd]
  by_cases hv : ismember v l ≠ 0
  · rw [if_pos hv, if_pos (.inl hv)]
    exact iff_of_false (hspace l) fun h => h.1 hv
  · rw [if_neg hv, List.length_append, List.length_singleton]
    split_ifs with hfull
    · refine iff_of_false (hspace _) fun h => ?_
      have := hfull.resolve_left hv
      omega
    · rw [not_or] at hfull
      refine iff_of_true rfl ⟨hv, ?_⟩
      omega

theorem SetOp.run_sets_case :
    ismember (.int 1) [.list [.int 1]] ≠ 0 ↔ SetOp.last (.int 1)
      [.add (.int 1), .add (.list [.int 1]), .add (.int 1), .remove (.int 1)] false = true :=
  (SetOp.run_sets (rfl : SetOp.run 2 true _ [] = some [.list [.int 1]])).2.1 (.int 1)

end LambdaMOO
