import LambdaMOO.Lists.Range

/-!
# Insertion into lists

`listinsert` and `listappend`, with the position in the types it passes through: a `Num`, the
type C adds in, and the `int` of the insertion.
-/

namespace LambdaMOO

/-- `package`, of a built-in function that hands back a value. -/
inductive ValuePackage (α : Type) where
  | ret (v : α)
  | error (e : ErrorCode)
  | abort
  deriving DecidableEq, Repr

/-- `make_space_pack`. `catchable` is the server option `max_concat_catchable`. -/
def makeSpacePack {α : Type} (catchable : Bool) : ValuePackage α :=
  if catchable then .error .eQuota else .abort

section

variable {t : IntType} {α : Type}

/-- `doinsert`. `unique` tells that nothing else refers to the list. An insertion outside the
new list has no result. -/
def MooList.doinsert (list : MooList t α) (value : α) (pos : Int) (unique : Bool) :
    Option (List α) := do
  let size ← (CType.promoted t).result (list.elems.length + 1)
  let size ← CType.int.result size
  if unique && pos == size then
    -- `realloc` and one assignment
    let n ← CType.int.result (size + 1)
    let _ ← CType.sizeT.result (n * 16)
    return list.elems ++ [value]
  else
    newList size
    if pos < 1 ∨ size < pos then none
    intLoop 1 size
    return list.elems.take (pos - 1).toNat ++ value :: list.elems.drop (pos - 1).toNat

/-- `listinsert` of the server, whose callers have an `int`. -/
def MooList.listinsert (list : MooList t α) (value : α) (pos : Int) (unique : Bool) :
    Option (List α) := do
  if pos ≤ 0 then list.doinsert value 1 unique
  else if list.elems.length < pos then do
    let n ← (CType.promoted t).result (list.elems.length + 1)
    list.doinsert value (CType.toInt32 n) unique
  else list.doinsert value pos unique

/-- `listappend` of the server. -/
def MooList.listappend (list : MooList t α) (value : α) (unique : Bool) : Option (List α) := do
  let n ← (CType.promoted t).result (list.elems.length + 1)
  list.doinsert value (CType.toInt32 n) unique

/-- The position that `insert_or_append` computes from its third argument, if there is one. -/
def insertPos (t : IntType) (length : Int) (pos : Option (Num t)) (append1 : Bool) :
    Option Int := do
  let n ← (CType.promoted t).result (length + 1)
  match pos with
  | none => return if append1 then CType.toInt32 n else 1
  | some p =>
    let x ← (CType.promoted t).result (p.toInt + if append1 then 1 else 0)
    let pos := CType.toInt32 x
    return if pos ≤ 0 then 1 else if n < pos then CType.toInt32 n else pos

/-- `insert_or_append`: `bf_listappend` with `append1`, `bf_listinsert` without. `max` is the
server option `max_list_concat`. -/
def insertOrAppend (max : Fin (maxList t + 1)) (catchable : Bool) (lst : MooList t α) (elt : α)
    (pos : Option (Num t)) (append1 unique : Bool) : Option (ValuePackage (List α)) := do
  if max.val ≤ lst.elems.length then return makeSpacePack catchable
  return .ret (← lst.doinsert elt (← insertPos t lst.elems.length pos append1) unique)

end

/-! ## What the operations are for -/

section

variable {α : Type}

/-- The list with a value behind its first `k` elements. -/
def insertAfter (l : List α) (v : α) (k : Nat) : List α := l.take k ++ v :: l.drop k

/-- `listinsert(l, v [, pos])`. -/
def listInsert (l : List α) (v : α) : Option Int → List α
  | none => v :: l
  | some pos => insertAfter l v (max 1 (min pos (l.length + 1)) - 1).toNat

/-- `listappend(l, v [, pos])`. -/
def listAppend (l : List α) (v : α) : Option Int → List α
  | none => l ++ [v]
  | some pos => insertAfter l v (max 0 (min pos l.length)).toNat

end

/-- The built-in function puts every value into every list of `n` elements where it should. -/
def PutsElement {t : IntType} (max : Fin (maxList t + 1)) (n : Nat) (pos : Option (Num t))
    (append1 : Bool) : Prop :=
  ∀ ⦃α : Type⦄ (lst : MooList t α) (elt : α) (catchable unique : Bool), lst.elems.length = n →
    insertOrAppend max catchable lst elt pos append1 unique = some
      (if max.val ≤ n then makeSpacePack catchable
      else .ret ((if append1 then listAppend else listInsert) lst.elems elt
        (pos.map BitVec.toInt)))

/-- The position `x` in front of which an element goes can be computed, and its low 32 bits are
on the same side of a list of `n` elements. -/
def KeepsSide (t : IntType) (n : Nat) (x : Int) : Prop :=
  x ≤ (CType.promoted t).max ∧
    (n = 0 ∨ (x ≤ 0 → CType.toInt32 x ≤ 1) ∧ (n < x → n < CType.toInt32 x))

instance {t : IntType} {n : Nat} {x : Int} : Decidable (KeepsSide t n x) :=
  inferInstanceAs (Decidable (_ ∧ _))

/-! ## Insertion -/

section

variable {t : IntType} {α : Type} (l : MooList t α) (v : α)

lemma insertAfter_length (l : List α) (v : α) : insertAfter l v l.length = l ++ [v] := by
  simp [insertAfter]

/-- The size of the new list, as a `Num` and as an `int`. -/
lemma MooList.size_result :
    (CType.promoted t).result (l.elems.length + 1) = some ((l.elems.length : Int) + 1) ∧
      CType.toInt32 ((l.elems.length : Int) + 1) = (l.elems.length : Int) + 1 := by
  obtain ⟨hle, hnum⟩ := l.length_bounds
  have hmax := (maxList_bounds t).2
  have hzero : (0 : Num t).toInt = 0 := BitVec.toInt_zero
  constructor
  · exact promoted_result (a := 0) (b := Num.numMax t) (by omega) hnum
  · exact CType.toInt32_eq (by omega) (by omega)

/-- Both branches of `doinsert` make the same list. -/
lemma MooList.doinsert_eq {pos : Int} (unique : Bool) (hfits : l.elems.length < maxList t)
    (hpos : 1 ≤ pos) (hle : pos ≤ l.elems.length + 1) :
    l.doinsert v pos unique = some (insertAfter l.elems v (pos - 1).toNat) := by
  have hmax := (maxList_bounds t).2
  unfold MooList.doinsert
  have hint := int_result (x := (l.elems.length : Int) + 1) (by omega) (by omega)
  rw [l.size_result.1, Option.bind_eq_bind, Option.bind_some, hint, Option.bind_eq_bind,
    Option.bind_some]
  split_ifs with hunique
  · rw [Bool.and_eq_true, beq_iff_eq] at hunique
    have hlast : (pos - 1).toNat = l.elems.length := by omega
    have hbytes : CType.sizeT.result (((l.elems.length : Int) + 1 + 1) * 16)
        = some (((l.elems.length : Int) + 1 + 1) * 16) :=
      sizeT_result (by omega) (by omega)
    rw [int_result (x := (l.elems.length : Int) + 1 + 1) (by omega) (by omega),
      Option.bind_some, hbytes, Option.bind_some, hlast, insertAfter_length]
    rfl
  · omega
  · rw [newList_eq (t := t) (n := (l.elems.length : Int) + 1) (by omega) (by omega),
      Option.bind_some, intLoop_eq (t := t) (by omega) (by omega) (by omega)]
    rfl

/-- The insertion of the server clamps its `int` as the built-in function clamps a `Num`. -/
lemma MooList.listinsert_eq (pos : Int) (unique : Bool) (hfits : l.elems.length < maxList t) :
    l.listinsert v pos unique = some (listInsert l.elems v (some pos)) := by
  obtain ⟨hsize, hint⟩ := l.size_result
  unfold MooList.listinsert listInsert
  dsimp only
  split_ifs with hlow hhigh
  · have hclamp : max 1 (min pos (l.elems.length + 1)) = 1 := by omega
    rw [hclamp, l.doinsert_eq v unique hfits (by omega) (by omega)]
  · have hclamp : max 1 (min pos (l.elems.length + 1)) = (l.elems.length : Int) + 1 := by omega
    rw [hsize, Option.bind_eq_bind, Option.bind_some, hint, hclamp,
      l.doinsert_eq v unique hfits (by omega) (by omega)]
  · have hclamp : max 1 (min pos (l.elems.length + 1)) = pos := by omega
    rw [hclamp, l.doinsert_eq v unique hfits (by omega) (by omega)]

lemma MooList.listappend_eq (unique : Bool) (hfits : l.elems.length < maxList t) :
    l.listappend v unique = some (listAppend l.elems v none) := by
  obtain ⟨hsize, hint⟩ := l.size_result
  have hlast : ((l.elems.length : Int) + 1 - 1).toNat = l.elems.length := by omega
  unfold MooList.listappend listAppend
  rw [hsize, Option.bind_eq_bind, Option.bind_some, hint,
    l.doinsert_eq v unique hfits (by omega) (by omega), hlast, insertAfter_length]

/-! ## The position -/

lemma CType.toInt32_bounds (x : Int) :
    -0x80000000 ≤ CType.toInt32 x ∧ CType.toInt32 x ≤ 0x7fffffff := by
  have hpow : (2 : Int) ^ (32 - 1) = 0x80000000 := by decide
  have hle := BitVec.le_toInt (BitVec.ofInt 32 x)
  have hlt := BitVec.toInt_lt (x := BitVec.ofInt 32 x)
  rw [hpow] at hle hlt
  exact ⟨hle, Int.le_of_lt_add_one hlt⟩

/-- The index behind which the element goes that is to go in front of position `x`. -/
def clampTo (n : Nat) (x : Int) : Nat := (max 1 (min x (n + 1)) - 1).toNat

lemma insertPos_none (append1 : Bool) :
    insertPos t l.elems.length none append1
      = some (if append1 then (l.elems.length : Int) + 1 else 1) := by
  obtain ⟨hsize, hint⟩ := l.size_result
  unfold insertPos
  rw [hsize, Option.bind_eq_bind, Option.bind_some, hint]
  rfl

/-- The position is clamped after it has lost its upper bits. -/
lemma insertPos_some (p : Num t) (append1 : Bool) :
    insertPos t l.elems.length (some p) append1 =
      if p.toInt + (if append1 then 1 else 0) ≤ (CType.promoted t).max then
        some ((clampTo l.elems.length
          (CType.toInt32 (p.toInt + if append1 then 1 else 0)) : Int) + 1)
      else none := by
  obtain ⟨hsize, hint⟩ := l.size_result
  obtain ⟨hmin, -, -⟩ := p.toInt_bounds
  have hnonneg : (0 : Int) ≤ if append1 then 1 else 0 := by split_ifs <;> omega
  unfold insertPos
  rw [hsize, Option.bind_eq_bind, Option.bind_some, hint]
  dsimp only
  generalize (if append1 then 1 else 0 : Int) = d at *
  by_cases hmax : p.toInt + d ≤ (CType.promoted t).max
  · rw [if_pos hmax, CType.result_eq (by omega) hmax, Option.bind_some]
    unfold clampTo
    split_ifs <;> simp only [pure, Option.some.injEq] <;> omega
  · rw [if_neg hmax, CType.result_eq_none (by omega)]
    rfl

/-- The list the built-in function is for. -/
lemma inserted_some (pos : Int) (append1 : Bool) :
    (if append1 then listAppend else listInsert) l.elems v (some pos)
      = insertAfter l.elems v (clampTo l.elems.length (pos + if append1 then 1 else 0)) := by
  cases append1 with
  | false => rw [if_neg Bool.false_ne_true, if_neg Bool.false_ne_true, Int.add_zero]; rfl
  | true =>
    have hindex : (max 0 (min pos l.elems.length)).toNat
        = clampTo l.elems.length (pos + 1) := by
      unfold clampTo
      omega
    rw [if_pos rfl, if_pos rfl, listAppend, hindex]

/-- The low 32 bits give the index of the position itself as long as they keep its side. -/
lemma clampTo_toInt32_iff {n : Nat} (hn : n ≤ 134217725) (x : Int) :
    clampTo n (CType.toInt32 x) = clampTo n x ↔
      n = 0 ∨ (x ≤ 0 → CType.toInt32 x ≤ 1) ∧ (n < x → n < CType.toInt32 x) := by
  by_cases hfits : -0x80000000 ≤ x ∧ x ≤ 0x7fffffff
  · rw [CType.toInt32_eq hfits.1 hfits.2]
    constructor
    · intro
      omega
    · intro
      rfl
  · unfold clampTo
    omega

end

/-- A list of `n` zeros. -/
def zeros (t : IntType) {n : Nat} (hn : n ≤ maxList t) : MooList t Nat :=
  ⟨List.replicate n 0, by rwa [List.length_replicate]⟩

/-- The position of an element that is nowhere else in the list is told by the list. -/
lemma insertAfter_replicate_inj {n j k : Nat} (hj : j ≤ n) (hk : k ≤ n)
    (h : insertAfter (List.replicate n 0) 1 j = insertAfter (List.replicate n 0) 1 k) : j = k := by
  have hidx : ∀ i ≤ n, (insertAfter (List.replicate n 0) 1 i).idxOf 1 = i := by
    intro i hi
    unfold insertAfter
    rw [List.take_replicate, List.idxOf_append_of_notMem]
    · simp [Nat.min_eq_left hi]
    · simp
  rw [← hidx j hj, h, hidx k hk]

lemma clampTo_le (n : Nat) (x : Int) : clampTo n x ≤ n := by
  unfold clampTo
  omega

section

variable {t : IntType} {α : Type} {max : Fin (maxList t + 1)} (l : MooList t α) (v : α)

lemma insertOrAppend_full (h : max.val ≤ l.elems.length) (catchable : Bool)
    (pos : Option (Num t)) (append1 unique : Bool) :
    insertOrAppend max catchable l v pos append1 unique = some (makeSpacePack catchable) :=
  if_pos h

lemma insertOrAppend_none (h : ¬ max.val ≤ l.elems.length) (catchable append1 unique : Bool) :
    insertOrAppend max catchable l v none append1 unique
      = some (.ret ((if append1 then listAppend else listInsert) l.elems v none)) := by
  have hfits : l.elems.length < maxList t := by omega
  unfold insertOrAppend
  rw [if_neg h, insertPos_none, Option.bind_eq_bind, Option.bind_some]
  cases append1 with
  | false =>
    rw [if_neg Bool.false_ne_true, l.doinsert_eq v unique hfits (by omega) (by omega)]
    rfl
  | true =>
    have hlast : ((l.elems.length : Int) + 1 - 1).toNat = l.elems.length := by omega
    rw [if_pos rfl, l.doinsert_eq v unique hfits (by omega) (by omega), hlast,
      insertAfter_length]
    rfl

lemma insertOrAppend_some (h : ¬ max.val ≤ l.elems.length) (catchable : Bool) (p : Num t)
    (append1 unique : Bool) {x : Int} (hx : p.toInt + (if append1 then 1 else 0) = x) :
    insertOrAppend max catchable l v (some p) append1 unique =
      if x ≤ (CType.promoted t).max then
        some (.ret (insertAfter l.elems v (clampTo l.elems.length (CType.toInt32 x))))
      else none := by
  have hfits : l.elems.length < maxList t := by omega
  unfold insertOrAppend
  rw [if_neg h, insertPos_some, hx]
  split_ifs with hmax
  · have hle := clampTo_le l.elems.length (CType.toInt32 x)
    rw [Option.bind_eq_bind, Option.bind_some,
      l.doinsert_eq v unique hfits (by omega) (by omega), Int.add_sub_cancel, Int.toNat_natCast]
    rfl
  · rfl

end

/-- `listinsert` and `listappend` put values where they should if and only if the list is at
the limit, no position is given, or it keeps its side when it loses its upper bits. -/
theorem putsElement_iff {t : IntType} (max : Fin (maxList t + 1)) (n : Fin (maxList t + 1))
    (pos : Option (Num t)) (append1 : Bool) :
    PutsElement max n pos append1 ↔ max.val ≤ n.val ∨
      ∀ p ∈ pos, KeepsSide t n (p.toInt + if append1 then 1 else 0) := by
  have hn := Nat.le_of_lt_succ n.isLt
  have hmax := (maxList_bounds t).2
  by_cases hfull : max.val ≤ n.val
  · refine iff_of_true ?_ (Or.inl hfull)
    intro α lst elt catchable unique hlen
    rw [if_pos hfull, insertOrAppend_full lst elt (hlen ▸ hfull)]
  rw [or_iff_right hfull]
  cases pos with
  | none =>
    refine iff_of_true ?_ (fun p hp => absurd hp (Option.not_mem_none p))
    intro α lst elt catchable unique hlen
    rw [if_neg hfull, insertOrAppend_none lst elt (hlen ▸ hfull)]
    rfl
  | some p =>
    simp only [Option.mem_some_iff, forall_eq']
    generalize hx : p.toInt + (if append1 then 1 else 0) = x
    constructor
    · -- a list of zeros tells where a one has gone
      intro h
      have hlen : (zeros t hn).elems.length = n := List.length_replicate
      have hres := h (zeros t hn) 1 false false hlen
      rw [if_neg hfull, Option.map_some, inserted_some, hx,
        insertOrAppend_some (zeros t hn) 1 (by omega) false p append1 false hx, hlen] at hres
      split_ifs at hres with hfits
      · simp only [Option.some.injEq, ValuePackage.ret.injEq] at hres
        have hindex := insertAfter_replicate_inj (clampTo_le n _) (clampTo_le n _) hres
        exact ⟨hfits, (clampTo_toInt32_iff (by omega) _).mp hindex⟩
    · rintro ⟨hfits, hside⟩ α lst elt catchable unique hlen
      have hindex := (clampTo_toInt32_iff (by omega) x).mpr hside
      rw [if_neg hfull, Option.map_some, inserted_some, hx,
        insertOrAppend_some lst elt (by omega) catchable p append1 unique hx,
        if_pos hfits, hlen, hindex]

/-- `listappend({7, 8}, 9, 2147483647)` puts the 9 in front of the list. -/
theorem not_putsElement_intMax :
    insertOrAppend ⟨1000, by decide⟩ true (samplePair .int64) 9 (some 0x7fffffff) true false
        = some (.ret [9, 7, 8]) ∧
      listAppend [7, 8] 9 (some 0x7fffffff) = [7, 8, 9] ∧
      ¬ PutsElement (t := .int64) ⟨1000, by decide⟩ 2 (some 0x7fffffff) true := by
  have hres : insertOrAppend ⟨1000, by decide⟩ true (samplePair .int64) 9 (some 0x7fffffff) true
      false = some (.ret [9, 7, 8]) := by decide
  refine ⟨hres, by decide, fun h => ?_⟩
  have hput := h (samplePair .int64) 9 true false rfl
  rw [hres] at hput
  exact absurd hput (by decide)

end LambdaMOO
