import LambdaMOO.Db.WaifBits
import LambdaMOO.Db.WaifGraph
import Mathlib.Data.List.TakeWhile

/-!
# The values of a waif by index

The loops of `update_waif_propdefs` over the two property lists and the packed values find
for each new name the value it had. Storing, making room for a slot, packing and reconciling
are told by the values that `unpack` finds in the storage.
-/

namespace LambdaMOO

variable {P : Type} {map : BitVec nMappableProps}

/-! ## The loops of `update_waif_propdefs` -/

/-- The loops that free the values of the `n` old properties from `i` on: the values behind
them. -/
def freeValues (map : BitVec nMappableProps) : Nat → Nat → List Var → Option (List Var)
  | _, 0, ov => some ov
  | i, n + 1, ov =>
    if hasSlot map i then
      match ov with
      | [] => none
      | _ :: ov => freeValues map (i + 1) n ov
    else freeValues map (i + 1) n ov

/-- The loop over the rest of the old and the new property list, where `i` is
`a - old->defs`, and the loop behind it: the values for the new ones. Nothing where `ov`
passes the end of the values. -/
def xferLoop (map : BitVec nMappableProps) (i : Nat) :
    List Propdef → List Propdef → List Var → Option (List Var)
  | as, [], ov => (freeValues map i as.length ov).map fun _ => []
  | [], b :: bs, _ => some (List.replicate (b :: bs).length .clear)
  | a :: as, b :: bs, ov =>
    if a = b then
      if hasSlot map i then
        match ov with
        | [] => none
        | v :: ov => (xferLoop map (i + 1) as bs ov).map (v :: ·)
      else (xferLoop map (i + 1) as bs ov).map (.clear :: ·)
    else if b ∈ as then
      -- what stands before `b` has been deleted
      (freeValues map i (as.idxOf b + 1) ov).bind fun ov =>
        xferLoop map (i + (as.idxOf b + 1)) (as.drop (as.idxOf b)) (b :: bs) ov
    else (xferLoop map i (a :: as) bs ov).map (.clear :: ·)
termination_by as bs => as.length + bs.length
decreasing_by
  all_goals simp only [List.length_cons, List.length_drop]
  all_goals omega

/-- The map and the values of a waif with the loop of the source in place of `transfer`. -/
def Waif.reconcileLoop (w : Waif) (oldDefs : Option (List Propdef)) (defs : List Propdef) :
    Option (BitVec nMappableProps × Option (List Var)) :=
  match w.propvals with
  | none => some (w.pmap, allocWaifPropvals defs.length w.pmap)
  | some ov => do
    let oldDefs ← oldDefs
    let xfer ← xferLoop w.pmap 0 oldDefs defs ov
    some (mapOf xfer, allocated (pack (mapOf xfer) 0 xfer))

lemma freeValues_eq (i n : Nat) (ov : List Var) :
    freeValues map i n ov = (unpack map i n ov).map fun _ => ov.drop (slotCount map i n) := by
  induction n generalizing i ov with
  | zero => rfl
  | succ n ih =>
    unfold freeValues
    by_cases hs : hasSlot map i
    · cases ov with
      | nil => simp [unpack, hs]
      | cons v ov =>
        rw [if_pos hs, unpack_of_hasSlot hs, slotCount, if_pos hs, Nat.add_comm 1]
        simp [ih, Function.comp_def]
    · rw [if_neg hs, unpack_of_not_hasSlot hs, slotCount, if_neg hs, Nat.zero_add, ih]
      simp [Function.comp_def]

lemma length_unpack {i n : Nat} {ov us : List Var} (h : unpack map i n ov = some us) :
    us.length = n := by
  induction n generalizing i ov us with
  | zero =>
    obtain rfl : [] = us := by simpa [unpack] using h
    rfl
  | succ n ih =>
    by_cases hs : hasSlot map i
    · cases ov with
      | nil => simp [unpack, hs] at h
      | cons v ov =>
        rw [unpack_of_hasSlot hs] at h
        obtain ⟨us', hus, rfl⟩ := Option.map_eq_some_iff.mp h
        rw [List.length_cons, ih hus]
    · rw [unpack_of_not_hasSlot hs] at h
      obtain ⟨us', hus, rfl⟩ := Option.map_eq_some_iff.mp h
      rw [List.length_cons, ih hus]

/-- The values of some properties, then those of the ones behind them. -/
lemma unpack_add (i n m : Nat) (ov : List Var) :
    unpack map i (n + m) ov = (unpack map i n ov).bind fun us =>
      (unpack map (i + n) m (ov.drop (slotCount map i n))).map (us ++ ·) := by
  induction n generalizing i ov with
  | zero => simp [unpack, slotCount]
  | succ n ih =>
    have hadd : i + 1 + n = i + (n + 1) := by omega
    rw [Nat.succ_add]
    by_cases hs : hasSlot map i
    · cases ov with
      | nil => simp [unpack, hs]
      | cons v ov =>
        rw [unpack_of_hasSlot hs, unpack_of_hasSlot hs, slotCount, if_pos hs, Nat.add_comm 1, ih,
          hadd]
        cases unpack map (i + 1) n ov <;> simp [Function.comp_def]
    · rw [unpack_of_not_hasSlot hs, unpack_of_not_hasSlot hs, slotCount, if_neg hs, Nat.zero_add,
        ih, hadd]
      cases unpack map (i + 1) n ov <;> simp [Function.comp_def]

lemma unpack_take {i n m : Nat} {ov us : List Var} (h : unpack map i (n + m) ov = some us) :
    unpack map i n ov = some (us.take n) := by
  rw [unpack_add] at h
  obtain ⟨us₁, hus₁, h⟩ := Option.bind_eq_some_iff.mp h
  obtain ⟨us₂, -, rfl⟩ := Option.map_eq_some_iff.mp h
  rw [hus₁, ← length_unpack hus₁, List.take_left]

lemma transfer_nil (bs : List Propdef) : transfer [] bs = List.replicate bs.length .clear := by
  induction bs with
  | nil => rfl
  | cons b bs ih => simpa [transfer, List.replicate_succ] using ih

/-- What stands before a name has been deleted. -/
lemma transfer_append {pre : List (Propdef × Var)} {b : Propdef} (h : ∀ p ∈ pre, p.1 ≠ b)
    (v : Var) (a : List (Propdef × Var)) (bs : List Propdef) :
    transfer (pre ++ (b, v) :: a) (b :: bs) = v :: transfer a bs := by
  have hdrop : (pre ++ (b, v) :: a).dropWhile (fun p => p.1 ≠ b) = (b, v) :: a := by
    rw [List.dropWhile_append_of_pos (by simpa using h), List.dropWhile_cons_of_neg (by simp)]
  rw [transfer, hdrop]

/-- A name that is not among the old ones is an insertion. -/
lemma transfer_of_forall_ne {a : List (Propdef × Var)} {b : Propdef} (h : ∀ p ∈ a, p.1 ≠ b)
    (bs : List Propdef) : transfer a (b :: bs) = .clear :: transfer a bs := by
  have hdrop : a.dropWhile (fun p => p.1 ≠ b) = [] := by
    rw [List.dropWhile_eq_nil_iff]
    simpa using h
  rw [transfer, hdrop]

lemma xferLoop_eq (i : Nat) (as bs : List Propdef) (ov : List Var) :
    xferLoop map i as bs ov
      = (unpack map i as.length ov).map fun us => transfer (as.zip us) bs := by
  fun_induction xferLoop map i as bs ov with
  | case1 i as ov =>
    rw [freeValues_eq, Option.map_map]
    rfl
  | case2 i b bs ov =>
    simp only [List.length_nil, unpack, Option.map_some, List.zip_nil_left, transfer_nil]
  | case3 i as b bs hs =>
    simp [unpack, hs]
  | case4 i as b bs hs v ov ih =>
    rw [ih, List.length_cons, unpack_of_hasSlot hs, Option.map_map, Option.map_map]
    congr 1
    funext us
    exact (transfer_append (List.forall_mem_nil _) v _ bs).symm
  | case5 i as b bs ov hs ih =>
    rw [ih, List.length_cons, unpack_of_not_hasSlot hs, Option.map_map, Option.map_map]
    congr 1
    funext us
    exact (transfer_append (List.forall_mem_nil _) _ _ bs).symm
  | case6 i a as b bs ov hne hmem ih =>
    obtain ⟨pre, post, rfl, hpre⟩ := List.eq_append_cons_of_mem hmem
    have hidx : (pre ++ b :: post).idxOf b = pre.length := by
      rw [List.idxOf_append_of_notMem hpre, List.idxOf_cons_self, Nat.add_zero]
    have hlen : (a :: (pre ++ b :: post)).length = pre.length + 1 + (b :: post).length := by
      rw [List.length_cons, List.length_append]
      omega
    rw [hidx, List.drop_left] at ih
    rw [hidx, List.drop_left, freeValues_eq, hlen, unpack_add i (pre.length + 1)]
    cases hus : unpack map i (pre.length + 1) ov with
    | none => rfl
    | some us =>
      simp only [Option.map_some, Option.bind_some, Option.map_map]
      rw [ih]
      apply Option.map_congr
      intro us' hus'
      obtain ⟨v, us', rfl⟩ : ∃ v vs, us' = v :: vs :=
        List.exists_cons_of_length_eq_add_one (length_unpack hus')
      have hlen' : (a :: pre).length = us.length := (length_unpack hus).symm
      have hzip : (a :: (pre ++ b :: post)).zip (us ++ v :: us')
          = (a :: pre).zip us ++ (b, v) :: post.zip us' := by
        rw [← List.cons_append, List.zip_append hlen', List.zip_cons_cons]
      rw [Function.comp_apply, hzip, transfer_append]
      · exact transfer_append (List.forall_mem_nil _) v _ bs
      · intro p hp heq
        rcases List.mem_cons.mp (List.of_mem_zip hp).1 with h | h
        · exact hne (h ▸ heq)
        · exact hpre (heq ▸ h)
  | case7 i a as b bs ov hne hnot ih =>
    rw [ih, Option.map_map]
    congr 1
    funext us
    refine (transfer_of_forall_ne ?_ bs).symm
    intro p hp heq
    rcases List.mem_cons.mp (List.of_mem_zip hp).1 with h | h
    · exact hne (h ▸ heq)
    · exact hnot (heq ▸ h)

/-- The loop of the source does what `transfer` does. -/
lemma Waif.reconcileLoop_eq (w : Waif) (oldDefs : Option (List Propdef)) (defs : List Propdef) :
    w.reconcileLoop oldDefs defs = w.reconcile oldDefs defs := by
  unfold Waif.reconcileLoop Waif.reconcile
  cases w.propvals with
  | none => rfl
  | some ov =>
    cases oldDefs with
    | none => rfl
    | some old =>
      simp only [Option.bind_eq_bind, Option.bind_some, xferLoop_eq, Option.bind_map]
      rfl

/-! ## Values by index -/

lemma propvalOffset_eq_slotCount (map : BitVec nMappableProps) (i : Nat) :
    propvalOffset map i = if hasSlot map i then some (slotCount map 0 i) else none := by
  rw [propvalOffset_eq, hasSlot]
  by_cases hi : nMappableProps ≤ i
  · have hcount := slotCount_max map i
    rw [Nat.max_eq_left hi, countWaifPropvals] at hcount
    simp [hi, hcount]
  · rw [slotCount_eq_countP (by omega), ← List.range_eq_range']
    simp [hi]

lemma slotCount_lt {i n k : Nat} (hk : k < n) (hs : hasSlot map (i + k)) :
    slotCount map i k < slotCount map i n := by
  obtain ⟨d, rfl⟩ := Nat.exists_eq_add_of_lt hk
  rw [Nat.add_assoc, slotCount_add, Nat.add_comm d, Nat.add_comm 1 d, slotCount, if_pos hs]
  omega

lemma getElem?_unpack {i n k : Nat} {ov us : List Var} (h : unpack map i n ov = some us)
    (hk : k < n) : us[k]? = if hasSlot map (i + k) then ov[slotCount map i k]? else some .clear := by
  induction n generalizing i k ov us with
  | zero => exact absurd hk (Nat.not_lt_zero k)
  | succ n ih =>
    have hadd (k : Nat) : i + 1 + k = i + (k + 1) := by omega
    by_cases hs : hasSlot map i
    · cases ov with
      | nil => simp [unpack, hs] at h
      | cons v ov =>
        rw [unpack_of_hasSlot hs] at h
        obtain ⟨us', hus, rfl⟩ := Option.map_eq_some_iff.mp h
        cases k with
        | zero => simp [hs, slotCount]
        | succ k =>
          rw [List.getElem?_cons_succ, ih hus (Nat.lt_of_succ_lt_succ hk), hadd, slotCount,
            if_pos hs, Nat.add_comm 1, List.getElem?_cons_succ]
    · rw [unpack_of_not_hasSlot hs] at h
      obtain ⟨us', hus, rfl⟩ := Option.map_eq_some_iff.mp h
      cases k with
      | zero => simp [hs]
      | succ k =>
        rw [List.getElem?_cons_succ, ih hus (Nat.lt_of_succ_lt_succ hk), hadd, slotCount,
          if_neg hs, Nat.zero_add]

/-- Storing into the slot of a property. -/
lemma unpack_set {i n k : Nat} {ov us : List Var} (h : unpack map i n ov = some us) (hk : k < n)
    (hs : hasSlot map (i + k)) (v : Var) :
    unpack map i n (ov.set (slotCount map i k) v) = some (us.set k v) := by
  induction n generalizing i k ov us with
  | zero => exact absurd hk (Nat.not_lt_zero k)
  | succ n ih =>
    have hadd (k : Nat) : i + 1 + k = i + (k + 1) := by omega
    by_cases hsi : hasSlot map i
    · cases ov with
      | nil => simp [unpack, hsi] at h
      | cons u ov =>
        rw [unpack_of_hasSlot hsi] at h
        obtain ⟨us', hus, rfl⟩ := Option.map_eq_some_iff.mp h
        cases k with
        | zero => simp [slotCount, unpack_of_hasSlot hsi, hus]
        | succ k =>
          rw [slotCount, if_pos hsi, Nat.add_comm 1, List.set_cons_succ, unpack_of_hasSlot hsi,
            ih hus (Nat.lt_of_succ_lt_succ hk) (by rwa [hadd])]
          rfl
    · rw [unpack_of_not_hasSlot hsi] at h
      obtain ⟨us', hus, rfl⟩ := Option.map_eq_some_iff.mp h
      cases k with
      | zero => exact absurd hs hsi
      | succ k =>
        rw [slotCount, if_neg hsi, Nat.zero_add, unpack_of_not_hasSlot hsi,
          ih hus (Nat.lt_of_succ_lt_succ hk) (by rwa [hadd])]
        rfl

lemma hasSlot_mapProp {idx : Nat} (hidx : idx < nMappableProps) (i : Nat) :
    hasSlot (mapProp map idx) i = (hasSlot map i || decide (idx = i)) := by
  rw [hasSlot, hasSlot, propMapped_mapProp map hidx, Bool.or_assoc]

/-- The array with one more slot has the values of the one before. -/
lemma exists_spread {idx i n : Nat} {ov us : List Var} (hidx : idx < nMappableProps)
    (hnone : ¬ hasSlot map idx) (h : unpack map i n ov = some us) :
    ∃ vals, spread (mapProp map idx) idx i n ov = some vals ∧
      unpack (mapProp map idx) i n vals = some us := by
  induction n generalizing i ov us with
  | zero => exact ⟨[], rfl, h⟩
  | succ n ih =>
    have hslot : hasSlot (mapProp map idx) i = _ := hasSlot_mapProp hidx i
    by_cases hs : hasSlot map i
    · have hne : i ≠ idx := fun heq => hnone (heq ▸ hs)
      rw [hs, Bool.true_or] at hslot
      cases ov with
      | nil => simp [unpack, hs] at h
      | cons v ov =>
        rw [unpack_of_hasSlot hs] at h
        obtain ⟨us', hus, rfl⟩ := Option.map_eq_some_iff.mp h
        obtain ⟨vals, hvals, hback⟩ := ih hus
        refine ⟨v :: vals, ?_, ?_⟩
        · simp [spread, hslot, hne, hvals]
        · rw [unpack_of_hasSlot hslot, hback, Option.map_some]
    · rw [unpack_of_not_hasSlot hs] at h
      obtain ⟨us', hus, rfl⟩ := Option.map_eq_some_iff.mp h
      obtain ⟨vals, hvals, hback⟩ := ih hus
      rw [Bool.not_eq_true] at hs
      rw [hs, Bool.false_or] at hslot
      by_cases heq : idx = i
      · subst heq
        rw [decide_eq_true rfl] at hslot
        refine ⟨.clear :: vals, ?_, ?_⟩
        · simp [spread, hslot, hvals]
        · rw [unpack_of_hasSlot hslot, hback, Option.map_some]
      · rw [decide_eq_false heq] at hslot
        refine ⟨vals, ?_, ?_⟩
        · simp [spread, hslot, hvals]
        · rw [unpack_of_not_hasSlot (by simp [hslot]), hback, Option.map_some]

/-- Packing loses nothing if every value that gets no slot is clear. -/
lemma unpack_pack {i : Nat} {vs : List Var}
    (h : ∀ k, ¬ hasSlot map (i + k) → ∀ v, vs[k]? = some v → v = .clear) :
    unpack map i vs.length (pack map i vs) = some vs := by
  induction vs generalizing i with
  | nil => rfl
  | cons v vs ih =>
    have hrest : unpack map (i + 1) vs.length (pack map (i + 1) vs) = some vs := by
      apply ih
      intro k hk u hu
      apply h (k + 1)
      · rwa [Nat.add_comm k, ← Nat.add_assoc]
      · rwa [List.getElem?_cons_succ]
    rw [pack, List.length_cons]
    by_cases hs : hasSlot map i
    · rw [if_pos hs, unpack_of_hasSlot hs, hrest, Option.map_some]
    · rw [if_neg hs, unpack_of_not_hasSlot hs, hrest, h 0 hs v rfl, Option.map_some]

lemma propMapped_mapOf (xfer : List Var) (i : Nat) :
    propMapped (mapOf xfer) i = decide (i < nMappableProps ∧ xfer[i]?.any fun v => !v.isClear) := by
  unfold mapOf
  rw [propMapped_foldl_mapProp, propMapped_zero, Bool.false_or]
  · simp only [List.mem_filter, List.mem_range]
  · intro k hk
    simpa using List.mem_of_mem_filter hk

/-- The new map gives a slot to every value that is not clear. -/
lemma unpack_pack_mapOf (xfer : List Var) :
    unpack (mapOf xfer) 0 xfer.length (pack (mapOf xfer) 0 xfer) = some xfer := by
  apply unpack_pack
  intro k hk v hv
  rw [Nat.zero_add, hasSlot, propMapped_mapOf] at hk
  by_cases hle : nMappableProps ≤ k
  · simp [hle] at hk
  · have hlt := Nat.not_le.mp hle
    simp only [hle, hlt, hv, Option.any_some, decide_false, Bool.false_or, true_and,
      decide_eq_true_eq, Bool.not_eq_true', Bool.not_eq_false] at hk
    cases v <;> first | rfl | cases hk

/-! ## Reconciling by name -/

/-- The names of each list are distinct and their common names are in one order. -/
def SameOrder (old new : List Propdef) : Prop :=
  old.Nodup ∧ new.Nodup ∧ old.filter (· ∈ new) = new.filter (· ∈ old)

instance (old new : List Propdef) : Decidable (SameOrder old new) :=
  inferInstanceAs (Decidable (_ ∧ _ ∧ _))

/-- The value that goes with a name, clear for a name that is not there. -/
def valueOf (defs : List Propdef) (us : List Var) (pd : Propdef) : Var :=
  ((defs.idxOf? pd).bind (us[·]?)).getD .clear

lemma valueOf_cons_self (pd : Propdef) (defs : List Propdef) (v : Var) (us : List Var) :
    valueOf (pd :: defs) (v :: us) pd = v := by
  simp [valueOf, List.idxOf?_cons]

lemma valueOf_append {pre defs : List Propdef} {pd : Propdef} (h : pd ∉ pre) (us : List Var)
    {us' : List Var} (hlen : us.length = pre.length) :
    valueOf (pre ++ defs) (us ++ us') pd = valueOf defs us' pd := by
  induction pre generalizing us with
  | nil =>
    rw [List.eq_nil_of_length_eq_zero hlen]
    rfl
  | cons a pre ih =>
    obtain ⟨v, us, rfl⟩ := List.exists_cons_of_length_eq_add_one hlen
    obtain ⟨hne, hnot⟩ := not_or.mp (mt List.mem_cons.mpr h)
    rw [← ih hnot us (Nat.succ.inj hlen)]
    simp [valueOf, List.idxOf?_cons, Ne.symm hne, Option.bind_map]

lemma valueOf_of_notMem {defs : List Propdef} {pd : Propdef} (h : pd ∉ defs) (us : List Var) :
    valueOf defs us pd = .clear := by
  rw [valueOf, List.idxOf?_eq_none_iff.mpr h]
  rfl

/-- An insertion keeps the order. -/
lemma SameOrder.insert {old bs : List Propdef} {b : Propdef} (h : SameOrder old (b :: bs))
    (hb : b ∉ old) : SameOrder old bs := by
  obtain ⟨hold, hnew, heq⟩ := h
  refine ⟨hold, (List.nodup_cons.mp hnew).2, ?_⟩
  rw [List.filter_cons_of_neg (by simpa using hb)] at heq
  rw [← heq]
  apply List.filter_congr
  intro x hx
  have hne : x ≠ b := fun h => hb (h ▸ hx)
  simp [hne]

/-- Removing what stands before the first common name keeps the order, and nothing of it is
wanted later. -/
lemma SameOrder.tail {pre post bs : List Propdef} {b : Propdef}
    (h : SameOrder (pre ++ b :: post) (b :: bs)) (hpre : b ∉ pre) :
    SameOrder post bs ∧ ∀ pd ∈ bs, pd ∉ pre ++ [b] := by
  obtain ⟨hold, hnew, heq⟩ := h
  obtain ⟨hb, hbs⟩ := List.nodup_cons.mp hnew
  obtain ⟨-, hpost, -⟩ := List.nodup_append.mp hold
  obtain ⟨hbpost, hpost⟩ := List.nodup_cons.mp hpost
  rw [List.filter_append, List.filter_cons_of_pos (by simp), List.filter_cons_of_pos (by simp)]
    at heq
  have hnone : pre.filter (· ∈ b :: bs) = [] := by
    cases hf : pre.filter (· ∈ b :: bs) with
    | nil => rfl
    | cons c cs =>
      have hc : c ∈ pre := (List.mem_filter.mp (hf ▸ List.mem_cons_self)).1
      rw [hf, List.cons_append] at heq
      exact absurd ((List.cons.inj heq).1 ▸ hc) hpre
  have hnot : ∀ pd ∈ bs, pd ∉ pre ++ [b] := by
    intro pd hpd hmem
    rcases List.mem_append.mp hmem with hmem | hmem
    · have := List.filter_eq_nil_iff.mp hnone pd hmem
      simp [hpd] at this
    · exact hb (List.mem_singleton.mp hmem ▸ hpd)
  rw [hnone, List.nil_append] at heq
  refine ⟨⟨hpost, hbs, ?_⟩, hnot⟩
  calc post.filter (· ∈ bs)
      = post.filter (· ∈ b :: bs) := by
        apply List.filter_congr
        intro x hx
        have hne : x ≠ b := fun h => hbpost (h ▸ hx)
        simp [hne]
    _ = bs.filter (· ∈ pre ++ b :: post) := (List.cons.inj heq).2
    _ = bs.filter (· ∈ post) := by
        apply List.filter_congr
        intro x hx
        have hx := hnot x hx
        simp only [List.mem_append, List.mem_singleton, not_or] at hx
        simp [hx.1, hx.2]

/-- Every new name gets the value it had. -/
lemma transfer_eq_map {old new : List Propdef} {us : List Var} (h : SameOrder old new)
    (hlen : us.length = old.length) : transfer (old.zip us) new = new.map (valueOf old us) := by
  induction new generalizing old us with
  | nil => rfl
  | cons b bs ih =>
    rw [List.map_cons]
    by_cases hmem : b ∈ old
    · obtain ⟨pre, post, rfl, hpre⟩ := List.eq_append_cons_of_mem hmem
      obtain ⟨hrest, hnot⟩ := h.tail hpre
      -- the values split where the names do
      obtain ⟨us₁, us₂, rfl, hlen₁⟩ : ∃ us₁ us₂, us = us₁ ++ us₂ ∧ us₁.length = pre.length :=
        ⟨us.take pre.length, us.drop pre.length, (List.take_append_drop _ _).symm, by
          rw [List.length_append] at hlen
          rw [List.length_take]
          omega⟩
      rw [List.length_append, List.length_append, hlen₁] at hlen
      obtain ⟨v, us₂, rfl⟩ := List.exists_cons_of_length_eq_add_one (Nat.add_left_cancel hlen)
      have hlen₂ : us₂.length = post.length := Nat.succ.inj (Nat.add_left_cancel hlen)
      rw [List.zip_append hlen₁.symm, List.zip_cons_cons, transfer_append, ih hrest hlen₂,
        valueOf_append hpre _ hlen₁, valueOf_cons_self]
      · congr 1
        apply List.map_congr_left
        intro pd hpd
        rw [List.append_cons pre b post, List.append_cons us₁ v us₂,
          valueOf_append (hnot pd hpd) _ (by simp [hlen₁])]
      · intro p hp heq
        exact hpre (heq ▸ (List.of_mem_zip hp).1)
    · rw [transfer_of_forall_ne, ih (h.insert hmem) hlen, valueOf_of_notMem hmem]
      intro p hp heq
      exact hmem (heq ▸ (List.of_mem_zip hp).1)

end LambdaMOO
