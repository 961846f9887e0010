import LambdaMOO.Numbers.CTypes

/-!
# Ranges of lists

`l[from..to]` and `l[from..to] = v` for a list `l`, with each operation of C in its type. An
operation that overflows has no result.
-/

namespace LambdaMOO

/-- `MAX_LIST`. -/
def maxList : IntType → Nat
  | .int16 => 0x7fff - 1
  | _ => 0x7fffffff / 16 - 2

/-- A list, which is no longer than `MAX_LIST`. -/
structure MooList (t : IntType) (α : Type) where
  elems : List α
  length_le : elems.length ≤ maxList t

section

variable {t : IntType} {α : Type}

/-- The computations of `new_list`: the size is an `int`, and the block has room for one
value more, in a number of bytes that is `unsigned`. -/
def newList (size : Int) : Option Unit := do
  let n ← CType.int.result size
  let n ← CType.int.result (n + 1)
  let _ ← CType.unsigned.result (n * 16)
  return ()

/-- `for (i = first; i < after; i++)` where `i` is an `int` and `first < after`: `after` is
the last of its values. -/
def intLoop (first after : Int) : Option Unit := do
  let _ ← CType.int.result first
  let _ ← CType.int.result after
  return ()

/-- `to.v.num + 1` as the value of a `Num`. -/
def Num.incr (x : Num t) : Option Int :=
  ((CType.promoted t).result (x.toInt + 1)).map fun y => (BitVec.ofInt t.bits y).toInt

/-- `rangeref_fails`. -/
def rangerefFails (t : IntType) (length start after : Int) : Option Bool :=
  if start ≥ after then some false
  else if 1 ≤ start then do
    let n ← (CType.promoted t).result (length + 1)
    return !decide (after ≤ n)
  else some true

/-- `sublist`. -/
def MooList.sublist (list : MooList t α) (first after : Int) : Option (List α) := do
  let length ← if after > first then (CType.promoted t).result (after - first) else some 0
  newList length
  if length ≠ 0 then intLoop first after
  return (list.elems.drop (first - 1).toNat).take length.toNat

/-- `OP_RANGE_REF` for a list. -/
def opRangeRef (base : MooList t α) (start stop : Num t) :
    Option (Except ErrorCode (List α)) := do
  let after ← stop.incr
  if ← rangerefFails t base.elems.length start.toInt after then return .error .eRange
  return .ok (← base.sublist start.toInt after)

/-- The number of elements in front of the range. -/
def lenLeft (t : IntType) (start : Int) : Option Int :=
  if start > 1 then (CType.promoted t).result (start - 1) else some 0

/-- The number of elements behind it. -/
def lenRight (blen after : Int) : Option Int :=
  if blen ≥ after then CType.sizeT.result (blen - after + 1) else some 0

/-- The length of the new list. -/
def newSize (t : IntType) (blen ilen start after : Int) : Option Int := do
  let n ← CType.sizeT.result ((← lenLeft t start) + ilen)
  CType.sizeT.result (n + (← lenRight blen after))

/-- `rangeset_error`, where `E_NONE` is none. -/
def rangesetError (t : IntType) (max blen ilen start after : Int) :
    Option (Option ErrorCode) := do
  let n ← CType.sizeT.result (blen + 1)
  if ¬ (1 ≤ after ∧ (start ≤ 0 ∨ start ≤ n)) then return some .eRange
  if max < (← newSize t blen ilen start after) then return some .eQuota
  return none

/-- `listrangeset`. -/
def MooList.listrangeset (base : MooList t α) (start after : Int) (value : MooList t α) :
    Option (List α) := do
  let left ← lenLeft t start
  let right ← lenRight base.elems.length after
  newList (← newSize t base.elems.length value.elems.length start after)
  return base.elems.take left.toNat ++ value.elems
    ++ (base.elems.drop (after - 1).toNat).take right.toNat

/-- `EOP_RANGESET` for a list. `max` is the server option `max_list_concat`. -/
def opRangeset (max : Fin (maxList t + 1)) (base : MooList t α) (start stop : Num t)
    (value : MooList t α) : Option (Except ErrorCode (List α)) := do
  let after ← stop.incr
  match ← rangesetError t max.val base.elems.length value.elems.length start.toInt after with
  | some e => return .error e
  | none => return .ok (← base.listrangeset start.toInt after value)

/-! ## What the operations are for -/

/-- `l[from..to]`. -/
def listRange (l : List α) (start stop : Int) : Except ErrorCode (List α) :=
  if stop < start then .ok []
  else if 1 ≤ start ∧ stop ≤ l.length then
    .ok ((l.drop (start - 1).toNat).take (stop - start + 1).toNat)
  else .error .eRange

/-- `l[from..to] = v`, apart from the quota. -/
def listSetRange (l v : List α) (start stop : Int) : Except ErrorCode (List α) :=
  if start > l.length + 1 ∨ stop < 0 then .error .eRange
  else .ok (l.take (start - 1).toNat ++ v ++ l.drop stop.toNat)

/-- The operations on a range have the results they are for, and all of their computations
are defined. -/
structure RangesWork (max : Fin (maxList t + 1)) (l v : MooList t α) (start stop : Num t) :
    Prop where
  ref : opRangeRef l start stop = some (listRange l.elems start.toInt stop.toInt)
  set : opRangeset max l start stop v =
    match listSetRange l.elems v.elems start.toInt stop.toInt with
    | .error e => some (.error e)
    | .ok r => if max.val < r.length then some (.error .eQuota) else some (.ok r)

/-! ## Bounds -/

lemma Num.toInt_bounds (x : Num t) :
    (CType.promoted t).min ≤ x.toInt ∧ x.toInt ≤ (Num.numMax t).toInt ∧
      (Num.numMax t).toInt ≤ (CType.promoted t).max := by
  have hle := BitVec.le_toInt x
  have hlt := BitVec.toInt_lt (x := x)
  cases t with
  | int16 =>
    change -0x80000000 ≤ x.toInt ∧ x.toInt ≤ 2 ^ 15 - 1 ∧ (2 ^ 15 - 1 : Int) ≤ 0x7fffffff
    change -2 ^ 15 ≤ x.toInt at hle
    change x.toInt < 2 ^ 15 at hlt
    omega
  | int32 =>
    change -0x80000000 ≤ x.toInt ∧ x.toInt ≤ 2 ^ 31 - 1 ∧ (2 ^ 31 - 1 : Int) ≤ 0x7fffffff
    change -2 ^ 31 ≤ x.toInt at hle
    change x.toInt < 2 ^ 31 at hlt
    omega
  | int64 =>
    change -0x8000000000000000 ≤ x.toInt ∧ x.toInt ≤ 2 ^ 63 - 1 ∧
      (2 ^ 63 - 1 : Int) ≤ 0x7fffffffffffffff
    change -2 ^ 63 ≤ x.toInt at hle
    change x.toInt < 2 ^ 63 at hlt
    omega

lemma maxList_bounds (t : IntType) :
    (maxList t : Int) + 1 < (Num.numMax t).toInt + 1 ∧ (maxList t : Int) ≤ 134217725 := by
  cases t <;> decide

lemma Num.incr_eq {x : Num t} (h : x ≠ Num.numMax t) : x.incr = some (x.toInt + 1) := by
  obtain ⟨hmin, hmax, hpromoted⟩ := x.toInt_bounds
  have hlt : x.toInt < (Num.numMax t).toInt :=
    lt_of_le_of_ne hmax fun heq => h (BitVec.eq_of_toInt_eq heq)
  have hfits : (BitVec.ofInt t.bits (x.toInt + 1)).toInt = x.toInt + 1 := by
    have hle := BitVec.le_toInt x
    have hpos := t.bits_pos
    apply BitVec.toInt_ofInt_eq_self hpos
    · omega
    · have hnum : (Num.numMax t).toInt = 2 ^ (t.bits - 1) - 1 := by cases t <;> rfl
      omega
  rw [Num.incr, CType.result_eq (by omega) (by omega), Option.map_some, hfits]

/-- After the greatest number comes none, or the least where C computes in a wider type. -/
lemma Num.incr_numMax (t : IntType) :
    (Num.numMax t).incr = if t = .int16 then some (-2 ^ 15) else none := by
  cases t <;> decide

lemma int_result {x : Int} (hmin : -0x80000000 ≤ x) (hmax : x ≤ 0x7fffffff) :
    CType.int.result x = some x :=
  CType.result_eq hmin hmax

lemma unsigned_result {x : Int} (hmin : 0 ≤ x) (hmax : x ≤ 0xffffffff) :
    CType.unsigned.result x = some x :=
  CType.result_eq hmin hmax

lemma sizeT_result {x : Int} (hmin : 0 ≤ x) (hmax : x ≤ 0xffffffffffffffff) :
    CType.sizeT.result x = some x :=
  CType.result_eq hmin hmax

/-- What lies between two values of a `Num` can be computed. -/
lemma promoted_result {x : Int} {a b : Num t} (hmin : a.toInt ≤ x) (hmax : x ≤ b.toInt) :
    (CType.promoted t).result x = some x := by
  have ha := a.toInt_bounds
  have hb := b.toInt_bounds
  exact CType.result_eq (by omega) (by omega)

lemma newList_eq {n : Int} (hpos : 0 ≤ n) (h : n ≤ maxList t) : newList n = some () := by
  have hmax := (maxList_bounds t).2
  simp only [newList, int_result (x := n) (by omega) (by omega),
    int_result (x := n + 1) (by omega) (by omega),
    unsigned_result (x := (n + 1) * 16) (by omega) (by omega), Option.bind_eq_bind,
    Option.bind_some, pure]

lemma intLoop_eq {first after : Int} (hpos : 0 ≤ first) (hle : first ≤ after)
    (h : after ≤ maxList t + 1) : intLoop first after = some () := by
  have hmax := (maxList_bounds t).2
  simp only [intLoop, int_result (x := first) (by omega) (by omega),
    int_result (x := after) (by omega) (by omega), Option.bind_eq_bind, Option.bind_some, pure]

/-! ## References -/

variable (l v : MooList t α)

lemma MooList.length_bounds :
    (l.elems.length : Int) ≤ maxList t ∧ (l.elems.length : Int) + 1 ≤ (Num.numMax t).toInt := by
  have hle := l.length_le
  have hmax := (maxList_bounds t).1
  omega

lemma rangerefFails_eq (start after : Int) :
    rangerefFails t l.elems.length start after
      = some !decide (start ≥ after ∨ (1 ≤ start ∧ after ≤ l.elems.length + 1)) := by
  unfold rangerefFails
  split_ifs with hge hpos
  · simp [hge]
  · have hlen := l.length_bounds
    have hzero : (0 : Num t).toInt = 0 := BitVec.toInt_zero
    rw [promoted_result (a := 0) (b := Num.numMax t) (by omega) hlen.2]
    simp [hge, hpos]
  · simp [hge, hpos]

/-- A range that does not fail is copied. -/
lemma sublist_eq {start after : Int}
    (h : start ≥ after ∨ (1 ≤ start ∧ after ≤ l.elems.length + 1)) :
    l.sublist start after
      = some ((l.elems.drop (start - 1).toNat).take (after - start).toNat) := by
  have hlen := l.length_bounds
  unfold MooList.sublist
  by_cases hge : after > start
  · have hin := h.resolve_left (Int.not_le_of_gt hge)
    have hzero : (0 : Num t).toInt = 0 := BitVec.toInt_zero
    rw [if_pos hge, promoted_result (a := 0) (b := Num.numMax t) (by omega) (by omega)]
    simp only [Option.bind_eq_bind, Option.bind_some]
    rw [newList_eq (t := t) (by omega) (by omega), Option.bind_some, if_pos (by omega),
      intLoop_eq (t := t) (by omega) (by omega) (by omega)]
    rfl
  · have hlength : (after - start).toNat = 0 := by omega
    rw [if_neg hge, hlength]
    simp only [Option.bind_eq_bind, Option.bind_some]
    rw [newList_eq (t := t) (by omega) (by omega)]
    rfl

lemma opRangeRef_eq (start : Num t) {stop : Num t} (h : stop ≠ Num.numMax t) :
    opRangeRef l start stop = some (listRange l.elems start.toInt stop.toInt) := by
  unfold opRangeRef listRange
  rw [Num.incr_eq h]
  simp only [Option.bind_eq_bind, Option.bind_some, rangerefFails_eq]
  by_cases hin : start.toInt ≥ stop.toInt + 1 ∨
      (1 ≤ start.toInt ∧ stop.toInt + 1 ≤ l.elems.length + 1)
  · have hlength : stop.toInt + 1 - start.toInt = stop.toInt - start.toInt + 1 := by omega
    rw [decide_eq_true hin, Bool.not_true, if_neg Bool.false_ne_true, sublist_eq l hin, hlength]
    simp only [Option.bind_some, pure]
    split_ifs with hlt hwithin
    · have hzero : (stop.toInt - start.toInt + 1).toNat = 0 := by omega
      rw [hzero, List.take_zero]
    · rfl
    · omega
  · rw [decide_eq_false hin, Bool.not_false, if_pos rfl, if_neg (by omega), if_neg (by omega)]
    rfl

/-! ## Assignments -/

lemma lenLeft_eq (start : Num t) :
    lenLeft t start.toInt = some ((start.toInt - 1).toNat : Int) := by
  unfold lenLeft
  split_ifs with hgt
  · have hzero : (0 : Num t).toInt = 0 := BitVec.toInt_zero
    rw [promoted_result (a := 0) (b := start) (by omega) (by omega), Int.toNat_of_nonneg (by omega)]
  · have hzero : (start.toInt - 1).toNat = 0 := by omega
    rw [hzero]
    rfl

lemma lenRight_eq {after : Int} (hpos : 1 ≤ after) :
    lenRight l.elems.length after = some ((l.elems.drop (after - 1).toNat).length : Int) := by
  have hlen := l.length_bounds.1
  have hmax := (maxList_bounds t).2
  rw [List.length_drop]
  unfold lenRight
  split_ifs with hge
  · rw [sizeT_result (by omega) (by omega)]
    congr 1
    omega
  · have hzero : l.elems.length - (after - 1).toNat = 0 := by omega
    rw [hzero]
    rfl

/-- The list with the range replaced, before its length is looked at. -/
def spliced (l v : List α) (start after : Int) : List α :=
  l.take (start - 1).toNat ++ v ++ l.drop (after - 1).toNat

lemma newSize_eq (start : Num t) (hstart : start.toInt ≤ l.elems.length + 1) {after : Int}
    (hpos : 1 ≤ after) :
    newSize t l.elems.length v.elems.length start.toInt after
      = some ((spliced l.elems v.elems start.toInt after).length : Int) := by
  have hl := l.length_bounds.1
  have hv := v.length_bounds.1
  have hmax := (maxList_bounds t).2
  have htake : (l.elems.take (start.toInt - 1).toNat).length = (start.toInt - 1).toNat := by
    rw [List.length_take]
    omega
  have hdrop : (l.elems.drop (after - 1).toNat).length ≤ l.elems.length := by
    rw [List.length_drop]
    omega
  unfold newSize spliced
  simp only [lenLeft_eq, lenRight_eq l hpos, Option.bind_eq_bind, Option.bind_some]
  rw [sizeT_result (by omega) (by omega)]
  simp only [Option.bind_some]
  rw [sizeT_result (by omega) (by omega), List.length_append, List.length_append, htake]
  simp

lemma rangesetError_eq (max : Nat) (start : Num t) (after : Int) :
    rangesetError t max l.elems.length v.elems.length start.toInt after =
      if start.toInt > l.elems.length + 1 ∨ after < 1 then some (some .eRange)
      else if max < (spliced l.elems v.elems start.toInt after).length then some (some .eQuota)
      else some none := by
  have hl := l.length_bounds.1
  have hmax := (maxList_bounds t).2
  unfold rangesetError
  rw [sizeT_result (by omega) (by omega), Option.bind_eq_bind, Option.bind_some]
  by_cases hin : start.toInt > l.elems.length + 1 ∨ after < 1
  · rw [if_pos (by omega), if_pos hin]
    rfl
  · have hpos : 1 ≤ after := by omega
    have hsize := newSize_eq l v start (by omega) hpos
    rw [if_neg (by omega), if_neg hin, hsize]
    by_cases hquota : max < (spliced l.elems v.elems start.toInt after).length
    · rw [if_pos hquota]
      exact if_pos (Int.ofNat_lt.mpr hquota)
    · rw [if_neg hquota]
      exact if_neg fun hlt => hquota (Int.ofNat_lt.mp hlt)

lemma listrangeset_eq (start : Num t) (hstart : start.toInt ≤ l.elems.length + 1) {after : Int}
    (hpos : 1 ≤ after)
    (hfits : (spliced l.elems v.elems start.toInt after).length ≤ maxList t) :
    l.listrangeset start.toInt after v = some (spliced l.elems v.elems start.toInt after) := by
  unfold MooList.listrangeset
  rw [lenLeft_eq, lenRight_eq l hpos, newSize_eq l v start hstart hpos]
  simp only [Option.bind_eq_bind, Option.bind_some]
  rw [newList_eq (t := t) (Int.natCast_nonneg _) (Int.ofNat_le.mpr hfits), Option.bind_some,
    Int.toNat_natCast, Int.toNat_natCast, List.take_length]
  rfl

lemma opRangeset_eq (max : Fin (maxList t + 1)) (start : Num t) {stop : Num t}
    (h : stop ≠ Num.numMax t) : opRangeset max l start stop v =
      match listSetRange l.elems v.elems start.toInt stop.toInt with
      | .error e => some (.error e)
      | .ok r => if max.val < r.length then some (.error .eQuota) else some (.ok r) := by
  have hspliced : spliced l.elems v.elems start.toInt (stop.toInt + 1)
      = l.elems.take (start.toInt - 1).toNat ++ v.elems ++ l.elems.drop stop.toInt.toNat := by
    rw [spliced, Int.add_sub_cancel]
  unfold opRangeset listSetRange
  rw [Num.incr_eq h, Option.bind_eq_bind, Option.bind_some, rangesetError_eq]
  by_cases hin : start.toInt > l.elems.length + 1 ∨ stop.toInt < 0
  · rw [if_pos (by omega), if_pos hin]
    rfl
  · rw [if_neg (by omega), if_neg hin, ← hspliced]
    dsimp only
    by_cases hquota : max.val < (spliced l.elems v.elems start.toInt (stop.toInt + 1)).length
    · rw [if_pos hquota, if_pos hquota]
      rfl
    · have hfits := Nat.le_trans (Nat.le_of_not_lt hquota) (Nat.le_of_lt_succ max.isLt)
      rw [if_neg hquota, if_neg hquota, Option.bind_eq_bind, Option.bind_some]
      dsimp only
      rw [listrangeset_eq l v start (by omega) (by omega) hfits]
      rfl

/-- The operations on ranges work if and only if the upper end is not the greatest number. -/
theorem ranges_iff (max : Fin (maxList t + 1)) (start stop : Num t) :
    RangesWork max l v start stop ↔ stop ≠ Num.numMax t := by
  constructor
  · rintro ⟨href, -⟩ rfl
    have hstart := start.toInt_bounds.2.1
    have hlen := l.length_bounds.2
    have hout : ¬ (1 ≤ start.toInt ∧ (Num.numMax t).toInt ≤ l.elems.length) := by omega
    unfold opRangeRef listRange at href
    rw [if_neg (Int.not_lt_of_ge hstart), if_neg hout, Num.incr_numMax] at href
    split_ifs at href with ht
    · -- the successor is the least number, and nothing lies before it
      subst ht
      have hge : start.toInt ≥ -2 ^ 15 := BitVec.le_toInt start
      simp only [Option.bind_eq_bind, Option.bind_some, rangerefFails_eq,
        decide_eq_true (Or.inl hge), sublist_eq l (Or.inl hge)] at href
      cases href
    · cases href
  · intro h
    exact ⟨opRangeRef_eq l start h, opRangeset_eq l v max start h⟩

end

/-- `{7, 8}`. -/
def samplePair (t : IntType) : MooList t Nat := ⟨[7, 8], by cases t <;> decide⟩

/-- The upper end 9223372036854775807 has no successor, in a reference as in an assignment. -/
theorem not_rangesWork_numMax :
    opRangeRef (samplePair .int64) 1 0x7fffffffffffffff = none ∧
      opRangeset ⟨1000, by decide⟩ (samplePair .int64) 1 0x7fffffffffffffff (samplePair .int64)
        = none ∧
      ¬ RangesWork ⟨1000, by decide⟩ (samplePair .int64) (samplePair .int64) 1
        0x7fffffffffffffff := by
  have href : opRangeRef (samplePair .int64) 1 0x7fffffffffffffff = none := rfl
  refine ⟨href, rfl, fun h => ?_⟩
  rw [h.ref] at href
  cases href

end LambdaMOO
