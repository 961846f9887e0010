import LambdaMOO.Db.LoadSpec
import LambdaMOO.Db.Record

/-!
# The storage of a waif

The values of a waif lie packed behind its map. A waif whose storage is as long as its map
says is reconciled, written and read without an access outside of it, and the values found
in it by index are the same before and after.
-/

namespace LambdaMOO

variable {P : Type} {map : BitVec nMappableProps}

/-- The slots of the `n` properties from `i` on. -/
def slotCount (map : BitVec nMappableProps) : Nat → Nat → Nat
  | _, 0 => 0
  | i, n + 1 => (if hasSlot map i then 1 else 0) + slotCount map (i + 1) n

/-- The storage fits a property list of the given length: no property behind its end is
mapped, and there is a value for each slot. -/
structure Waif.Packed (length : Nat) (w : Waif) : Prop where
  mapped : ∀ i, propMapped w.pmap i → i < length
  stored : (w.propvals.getD []).length = countWaifPropvals length w.pmap

lemma slotCount_of_le {i : Nat} (hi : nMappableProps ≤ i) (n : Nat) : slotCount map i n = n := by
  induction n generalizing i with
  | zero => rfl
  | succ n ih =>
    rw [slotCount, ih (Nat.le_succ_of_le hi), hasSlot]
    simp [hi, Nat.add_comm]

lemma slotCount_eq_countP {i n : Nat} (h : i + n ≤ nMappableProps) :
    slotCount map i n = (List.range' i n).countP (propMapped map) := by
  induction n generalizing i with
  | zero => rfl
  | succ n ih =>
    have hi : ¬ nMappableProps ≤ i := by omega
    rw [slotCount, ih (by omega), List.range'_succ, List.countP_cons, hasSlot]
    simp [hi, Nat.add_comm]

lemma slotCount_add (i n m : Nat) :
    slotCount map i (n + m) = slotCount map i n + slotCount map (i + n) m := by
  induction n generalizing i with
  | zero => simp [slotCount]
  | succ n ih =>
    rw [Nat.succ_add, slotCount, slotCount, ih, Nat.add_right_comm i 1 n,
      Nat.add_assoc i n 1, Nat.add_assoc]

lemma countP_range'_eq_zero {i n : Nat} (h : ∀ j, i ≤ j → propMapped map j = false) :
    (List.range' i n).countP (propMapped map) = 0 := by
  rw [List.countP_eq_zero]
  intro j hj
  simp [h j (List.mem_range'_1.mp hj).1]

lemma unpack_of_hasSlot {i : Nat} (h : hasSlot map i) (n : Nat) (v : Var) (ov : List Var) :
    unpack map i (n + 1) (v :: ov) = (unpack map (i + 1) n ov).map (v :: ·) := by
  simp [unpack, h]

lemma unpack_of_not_hasSlot {i : Nat} (h : ¬ hasSlot map i) (n : Nat) (ov : List Var) :
    unpack map i (n + 1) ov = (unpack map (i + 1) n ov).map (.clear :: ·) := by
  cases ov <;> simp [unpack, h]

/-- There are as many slots as `count_waif_propvals` says. -/
lemma slotCount_eq_countWaifPropvals {length : Nat} (h : ∀ i, propMapped map i → i < length) :
    slotCount map 0 length = countWaifPropvals length map := by
  unfold countWaifPropvals countSetBits
  rw [List.range_eq_range']
  by_cases hlen : length ≤ nMappableProps
  · obtain ⟨k, hk⟩ := Nat.exists_eq_add_of_le hlen
    rw [slotCount_eq_countP (by omega), hk, ← List.range'_append_1, List.countP_append]
    have hnone : ∀ j, 0 + length ≤ j → propMapped map j = false := by
      intro j hj
      by_contra hm
      have := h j (by simpa using hm)
      omega
    rw [countP_range'_eq_zero hnone]
    omega
  · obtain ⟨k, rfl⟩ := Nat.exists_eq_add_of_le (Nat.le_of_not_le hlen)
    rw [slotCount_add, slotCount_eq_countP (by omega), slotCount_of_le (by omega)]
    omega

/-! ## Values by index -/

/-- The value that `props` has for the property `j`, or clear. -/
def valueAt (props : List (Nat × Var)) (j : Nat) : Var :=
  ((props.find? fun p => p.1 = j).map Prod.snd).getD .clear

/-- The values of the `n` properties from `i` on. -/
def flat (props : List (Nat × Var)) (i n : Nat) : List Var := (List.range' i n).map (valueAt props)

lemma valueAt_of_forall_ne {props : List (Nat × Var)} {j : Nat} (h : ∀ p ∈ props, p.1 ≠ j) :
    valueAt props j = .clear := by
  have hnone : props.find? (fun p => p.1 = j) = none := by
    simpa [List.find?_eq_none] using h
  rw [valueAt, hnone]
  rfl

/-- No property is at `i` itself. -/
lemma flat_succ {props : List (Nat × Var)} {i : Nat} (h : ∀ p ∈ props, i + 1 ≤ p.1) (n : Nat) :
    flat props i (n + 1) = .clear :: flat props (i + 1) n := by
  rw [flat, List.range'_succ, List.map_cons, valueAt_of_forall_ne fun p hp => by
    have := h p hp
    omega]
  rfl

/-- The first property is at `i`. -/
lemma flat_cons (v : Var) (props : List (Nat × Var)) (i n : Nat) :
    flat ((i, v) :: props) i (n + 1) = v :: flat props (i + 1) n := by
  rw [flat, List.range'_succ, List.map_cons]
  congr 1
  · simp [valueAt]
  · apply List.map_congr_left
    intro j hj
    have hne : i ≠ j := by
      have := (List.mem_range'_1.mp hj).1
      omega
    simp [valueAt, hne]

/-- What is written of a storage: the properties in order, each with its value. -/
lemma exists_writtenProps {i n : Nat} {val : List Var} (h : val.length = slotCount map i n) :
    ∃ props, writtenProps map i n val = some props ∧
      (props.Pairwise fun p q => p.1 < q.1) ∧
      (∀ p ∈ props, i ≤ p.1 ∧ p.1 < i + n ∧ p.2 ∈ val) ∧
      unpack map i n val = some (flat props i n) := by
  induction n generalizing i val with
  | zero => exact ⟨[], rfl, List.Pairwise.nil, by simp, rfl⟩
  | succ n ih =>
    unfold slotCount at h
    unfold writtenProps unpack
    by_cases hslot : hasSlot map i
    · simp only [hslot, if_true] at h ⊢
      cases val with
      | nil =>
        simp only [List.length_nil] at h
        omega
      | cons v val =>
        rw [List.length_cons] at h
        have hval : val.length = slotCount map (i + 1) n := by omega
        obtain ⟨props, hp, hsorted, hmem, hu⟩ := ih hval
        have hgt : ∀ p ∈ props, i + 1 ≤ p.1 := fun p hq => (hmem p hq).1
        simp only [hp, hu, Option.map_some]
        refine ⟨_, rfl, ?_, ?_, ?_⟩
        · split
          · exact List.pairwise_cons.mpr ⟨fun q hq => hgt q hq, hsorted⟩
          · exact hsorted
        · intro p hq
          have hrest : p ∈ props → i ≤ p.1 ∧ p.1 < i + (n + 1) ∧ p.2 ∈ v :: val := by
            intro hq
            obtain ⟨h₁, h₂, h₃⟩ := hmem p hq
            exact ⟨by omega, by omega, List.mem_cons_of_mem _ h₃⟩
          split at hq
          · rcases List.mem_cons.mp hq with rfl | hq
            · exact ⟨Nat.le_refl _, by simp, by simp⟩
            · exact hrest hq
          · exact hrest hq
        · split
          · rw [flat_cons]
          · -- a property behind the mappable ones that is clear
            rename_i hw
            have hclear : v = .clear := by
              unfold isWritten at hw
              split at hw
              · rename_i hi
                simp [hasSlot, Nat.not_le.mpr hi] at hslot
                exact absurd hslot hw
              · cases v <;> simp_all [Var.isClear]
            rw [flat_succ hgt, hclear]
    · simp only [hslot, Bool.false_eq_true, if_false, Nat.zero_add] at h ⊢
      obtain ⟨props, hp, hsorted, hmem, hu⟩ := ih h
      refine ⟨props, hp, hsorted, ?_, ?_⟩
      · intro p hq
        obtain ⟨h₁, h₂, h₃⟩ := hmem p hq
        exact ⟨by omega, by omega, h₃⟩
      · rw [hu, flat_succ fun p hq => (hmem p hq).1]
        rfl

/-! ## Reconciling -/

lemma length_transfer (a : List (Propdef × Var)) (bs : List Propdef) :
    (transfer a bs).length = bs.length := by
  induction bs generalizing a with
  | nil => rfl
  | cons b bs ih =>
    unfold transfer
    split <;> simp [ih]

lemma length_pack (i : Nat) (vs : List Var) :
    (pack map i vs).length = slotCount map i vs.length := by
  induction vs generalizing i with
  | nil => rfl
  | cons v vs ih =>
    unfold pack
    rw [List.length_cons, slotCount, ← ih]
    split <;> simp [Nat.add_comm]

lemma propMapped_mapProp (map : BitVec nMappableProps) {i : Nat} (hi : i < nMappableProps)
    (j : Nat) : propMapped (mapProp map i) j = (propMapped map j || decide (i = j)) := by
  unfold propMapped mapProp
  rw [BitVec.getLsbD_or, BitVec.getLsbD_twoPow]
  simp [hi]

lemma propMapped_foldl_mapProp {is : List Nat} (his : ∀ i ∈ is, i < nMappableProps)
    (map : BitVec nMappableProps) (j : Nat) :
    propMapped (is.foldl mapProp map) j = (propMapped map j || decide (j ∈ is)) := by
  induction is generalizing map with
  | nil => simp
  | cons i is ih =>
    rw [List.foldl_cons, ih (fun k hk => his k (by simp [hk])),
      propMapped_mapProp map (his i (by simp)), Bool.or_assoc]
    simp [eq_comm, Bool.decide_or]

lemma propMapped_zero (j : Nat) : propMapped 0 j = false := BitVec.getLsbD_zero

/-- A property that the new map has is one of the new ones. -/
lemma lt_of_propMapped_mapOf {xfer : List Var} {i : Nat} (h : propMapped (mapOf xfer) i) :
    i < xfer.length := by
  unfold mapOf at h
  rw [propMapped_foldl_mapProp (by
    intro k hk
    simpa using List.mem_of_mem_filter hk), propMapped_zero] at h
  simp only [Bool.false_or, decide_eq_true_eq, List.mem_filter] at h
  by_contra hlt
  simp [List.getElem?_eq_none (Nat.not_lt.mp hlt)] at h

/-- Reconciling a waif whose storage fits gives one whose storage fits. -/
lemma Waif.Packed.reconcile {w : Waif} {oldDefs : List Propdef} (h : w.Packed oldDefs.length)
    (defs : List Propdef) :
    ∃ map vals, w.reconcile (some oldDefs) defs = some (map, vals) ∧
      Waif.Packed defs.length { w with propvals := vals, pmap := map } := by
  unfold Waif.reconcile
  cases hv : w.propvals with
  | none =>
    refine ⟨_, _, rfl, ?_, ?_⟩
    · -- nothing is stored, so nothing is mapped
      intro i hi
      have hzero := h.stored
      rw [hv, Option.getD_none, List.length_nil, countWaifPropvals] at hzero
      have hcount : countSetBits w.pmap = 0 := by omega
      rw [countSetBits, List.countP_eq_zero] at hcount
      by_cases hin : i < nMappableProps
      · exact absurd hi (hcount i (List.mem_range.mpr hin))
      · simp [propMapped, BitVec.getLsbD_of_ge w.pmap i (Nat.not_lt.mp hin)] at hi
    · rw [allocWaifPropvals, getD_allocated, List.length_replicate]
  | some ov =>
    have hlen : ov.length = slotCount w.pmap 0 oldDefs.length := by
      rw [slotCount_eq_countWaifPropvals h.mapped, ← h.stored, hv]
      rfl
    obtain ⟨_, _, _, _, hu⟩ := exists_writtenProps hlen
    simp only [Option.bind_eq_bind, Option.bind_some, hu]
    refine ⟨_, _, rfl, ?_, ?_⟩
    · intro i hi
      have := lt_of_propMapped_mapOf hi
      rwa [length_transfer] at this
    · rw [getD_allocated, length_pack, length_transfer, slotCount_eq_countWaifPropvals]
      intro i hi
      have := lt_of_propMapped_mapOf hi
      rwa [length_transfer] at this

/-! ## Reading -/

/-- The storage the reader builds for the `n` properties from `i` on. -/
def slotsFrom (i n : Nat) (props : List (Nat × Var)) : List Var :=
  (props.filter fun p => p.1 < nMappableProps).map Prod.snd ++
    fill (i + n) (max i nMappableProps) (props.filter fun p => nMappableProps ≤ p.1)

lemma fill_succ {length i : Nat} {props : List (Nat × Var)} (h : ∀ p ∈ props, i + 1 ≤ p.1)
    (hi : i < length) : fill length i props = .clear :: fill length (i + 1) props := by
  cases props with
  | nil =>
    rw [fill, fill, ← List.replicate_succ]
    congr 1
    omega
  | cons p props =>
    obtain ⟨c, v⟩ := p
    have hc : i + 1 ≤ c := h (c, v) (by simp)
    rw [fill, fill, ← List.cons_append, ← List.replicate_succ]
    congr 2
    omega

/-- The values in the storage that is built are those that were read. -/
lemma unpack_slotsFrom {i n : Nat} {props : List (Nat × Var)}
    (hsorted : props.Pairwise fun p q => p.1 < q.1)
    (hprops : ∀ p ∈ props, i ≤ p.1 ∧ p.1 < i + n)
    (hmap : ∀ j, i ≤ j → j < nMappableProps → (propMapped map j ↔ ∃ p ∈ props, p.1 = j)) :
    unpack map i n (slotsFrom i n props) = some (flat props i n) := by
  induction n generalizing i props with
  | zero => rfl
  | succ n ih =>
    have hadd : i + 1 + n = i + (n + 1) := by omega
    by_cases hhead : ∃ v ps, props = (i, v) :: ps
    · obtain ⟨v, ps, rfl⟩ := hhead
      rw [List.pairwise_cons] at hsorted
      have hps : ∀ p ∈ ps, i + 1 ≤ p.1 := fun p hp => hsorted.1 p hp
      have hslot : hasSlot map i := by
        by_cases hi : i < nMappableProps
        · simp [hasSlot, (hmap i (Nat.le_refl i) hi).mpr ⟨(i, v), by simp, rfl⟩]
        · simp [hasSlot, Nat.not_lt.mp hi]
      have hslots : slotsFrom i (n + 1) ((i, v) :: ps) = v :: slotsFrom (i + 1) n ps := by
        unfold slotsFrom
        rw [hadd]
        by_cases hi : i < nMappableProps
        · have hmax : max i nMappableProps = max (i + 1) nMappableProps := by omega
          simp [hi, Nat.not_le.mpr hi, hmax]
        · have hle := Nat.not_lt.mp hi
          have hnone : ps.filter (fun p => decide (p.1 < nMappableProps)) = [] := by
            rw [List.filter_eq_nil_iff]
            intro p hp
            have := hps p hp
            simp
            omega
          have hmax : max (i + 1) nMappableProps = i + 1 := by omega
          simp [hi, hle, hnone, hmax, fill]
      rw [hslots, unpack_of_hasSlot hslot, flat_cons, ih hsorted.2]
      · rfl
      · intro p hp
        have := hprops p (by simp [hp])
        exact ⟨hps p hp, by omega⟩
      · intro j hj hlt
        rw [hmap j (by omega) hlt]
        have hne : i ≠ j := by omega
        simp [hne]
    · -- the property `i` is clear
      have hps : ∀ p ∈ props, i + 1 ≤ p.1 := by
        cases props with
        | nil => simp
        | cons p ps =>
          have hp : p.1 ≠ i := by
            rintro rfl
            exact hhead ⟨p.2, ps, rfl⟩
          have hle := (hprops p (by simp)).1
          rw [List.pairwise_cons] at hsorted
          intro q hq
          rcases List.mem_cons.mp hq with rfl | hq
          · omega
          · have := hsorted.1 q hq
            omega
      have hrest : unpack map (i + 1) n (slotsFrom (i + 1) n props)
          = some (flat props (i + 1) n) := by
        apply ih hsorted
        · intro p hp
          have := hprops p hp
          exact ⟨hps p hp, by omega⟩
        · intro j hj hlt
          exact hmap j (by omega) hlt
      rw [flat_succ hps]
      by_cases hi : i < nMappableProps
      · have hslot : ¬ hasSlot map i := by
          simp only [hasSlot, Nat.not_le.mpr hi, decide_false, Bool.false_or]
          rw [hmap i (Nat.le_refl i) hi]
          rintro ⟨p, hp, rfl⟩
          have := hps p hp
          omega
        have hslots : slotsFrom i (n + 1) props = slotsFrom (i + 1) n props := by
          have hmax : max i nMappableProps = max (i + 1) nMappableProps := by omega
          rw [slotsFrom, slotsFrom, hadd, hmax]
        rw [hslots, unpack_of_not_hasSlot hslot, hrest]
        rfl
      · have hslot : hasSlot map i := by simp [hasSlot, Nat.not_lt.mp hi]
        have hslots : slotsFrom i (n + 1) props = .clear :: slotsFrom (i + 1) n props := by
          have hnone : props.filter (fun p => decide (p.1 < nMappableProps)) = [] := by
            rw [List.filter_eq_nil_iff]
            intro p hp
            have := hps p hp
            simp
            omega
          have h₁ : max i nMappableProps = i := by omega
          have h₂ : max (i + 1) nMappableProps = i + 1 := by omega
          rw [slotsFrom, slotsFrom, hadd, hnone, h₁, h₂, List.map_nil, List.nil_append,
            List.nil_append]
          exact fill_succ (fun p hp => hps p (List.mem_of_mem_filter hp)) (by omega)
        rw [hslots, unpack_of_hasSlot hslot, hrest]
        rfl

/-- The properties of a waif that has been read are those recorded of it. -/
lemma Record.Fits.unpack_slots {ft : FloatText} {R : Record} (h : R.Fits ft) :
    unpack R.map 0 R.length R.slots = some (flat R.props 0 R.length) := by
  have hslots : R.slots = slotsFrom 0 R.length R.props := by
    unfold Record.slots slotsFrom Record.mappable Record.unmappable
    rw [Nat.zero_add, Nat.zero_max]
  rw [hslots]
  apply unpack_slotsFrom h.sorted
  · intro p hp
    have := h.bounded p hp
    exact ⟨Nat.zero_le _, by omega⟩
  · intro j _ hj
    rw [Record.map, propMapped_foldl_mapProp, propMapped_zero]
    · rw [Bool.false_or, decide_eq_true_iff, List.mem_map]
      simp only [Record.mappable, List.mem_filter, decide_eq_true_eq]
      constructor
      · rintro ⟨p, ⟨hp, _⟩, rfl⟩
        exact ⟨p, hp, rfl⟩
      · rintro ⟨p, hp, rfl⟩
        exact ⟨p, ⟨hp, hj⟩, rfl⟩
    · intro i hi
      obtain ⟨p, hp, rfl⟩ := List.mem_map.mp hi
      simpa using (List.mem_filter.mp hp).2

/-- Renaming the waifs in the values commutes with unpacking. -/
lemma unpack_rename (f : Nat → Nat) (i n : Nat) (vals : List Var) :
    unpack map i n (vals.map (Var.rename f))
      = (unpack map i n vals).map (List.map (Var.rename f)) := by
  induction n generalizing i vals with
  | zero => rfl
  | succ n ih =>
    unfold unpack
    split
    · cases vals with
      | nil => rfl
      | cons v vals => simp [ih, Function.comp_def]
    · simp [ih, Function.comp_def, Var.rename]

end LambdaMOO
