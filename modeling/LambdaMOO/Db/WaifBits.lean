import LambdaMOO.Db.WaifAccess
import LambdaMOO.Lib.Popcount
import Mathlib.Algebra.BigOperators.Group.List.Basic

/-!
# The words of the map

The map of a waif is an array of `WAIF_MAPSZ` words. The macros and loops of `waif.c` over
the words find the bits of the whole map and count them.
-/

namespace LambdaMOO

open Popcount

variable {map : BitVec nMappableProps} {i : Nat}

/-- `WAIF_MAPSZ`. -/
def waifMapsz : Nat := 6

/-- `pmap[j]`. -/
def pmapWord (map : BitVec nMappableProps) (j : Nat) : BitVec 32 := map.extractLsb' (32 * j) 32

/-- `pmap[j] |= x`. -/
def orPmapWord (map : BitVec nMappableProps) (j : Nat) (x : BitVec 32) : BitVec nMappableProps :=
  map ||| x.setWidth nMappableProps <<< (32 * j)

/-- `1 << (Mbit % 32)`. -/
def bitInWord (i : Nat) : BitVec 32 := 1#32 <<< (i % 32)

/-- `PROP_MAPPED` on the words. -/
def isMappedInWord (map : BitVec nMappableProps) (i : Nat) : Bool :=
  pmapWord map (i / 32) &&& bitInWord i ≠ 0#32

/-- `MAP_PROP` on the words. -/
def mapPropInWord (map : BitVec nMappableProps) (i : Nat) : BitVec nMappableProps :=
  orPmapWord map (i / 32) (bitInWord i)

/-- `((i & mask) >> w) + (i & ~mask)`. -/
def halveFields (mask : BitVec 32) (w : Nat) (i : BitVec 32) : BitVec 32 :=
  ((i &&& mask) >>> w) + (i &&& ~~~mask)

/-- `count_set_bits`. -/
def countWordBits (x : BitVec 32) : Nat :=
  let i := halveFields 0xAAAAAAAA 1 x
  let i := halveFields 0xCCCCCCCC 2 i
  let i := halveFields 0xF0F0F0F0 4 i
  let i := halveFields 0xFF00FF00 8 i
  let i := halveFields 0xFFFF0000 16 i
  i.toNat

/-- The loop of `count_set_bits` over the first `n` words. -/
def countWords (map : BitVec nMappableProps) (n : Nat) : Nat :=
  ((List.range n).map fun j => countWordBits (pmapWord map j)).sum

/-- The full words before the property `i`, then the part of its word to the right of it. -/
def countBefore (map : BitVec nMappableProps) (i : Nat) : Nat :=
  let idx := countWords map (i / 32)
  if i % 32 ≠ 0 then
    let mask := BitVec.allOnes 32 >>> (32 - i % 32)
    idx + countWordBits (pmapWord map (i / 32) &&& mask)
  else idx

/-- The second part of `find_propval_offset`: the offset of the value of the property `i`,
none for -1. -/
def propvalOffset (map : BitVec nMappableProps) (i : Nat) : Option Nat :=
  if nMappableProps ≤ i then some (i - nMappableProps + countWords map waifMapsz)
  else if !isMappedInWord map i then none
  else some (countBefore map i)

/-! ## One bit -/

lemma getLsbD_pmapWord (map : BitVec nMappableProps) (j k : Nat) :
    (pmapWord map j).getLsbD k = (decide (k < 32) && map.getLsbD (32 * j + k)) :=
  BitVec.getLsbD_extractLsb' _ _ _ _

lemma getLsbD_bitInWord (i k : Nat) : (bitInWord i).getLsbD k = decide (k = i % 32) := by
  have hlt : i % 32 < 32 := Nat.mod_lt _ (by decide)
  rw [bitInWord, ← BitVec.twoPow_eq, BitVec.getLsbD_twoPow]
  simp [hlt, eq_comm]

lemma isMappedInWord_eq (map : BitVec nMappableProps) (i : Nat) :
    isMappedInWord map i = propMapped map i := by
  have hlt : i % 32 < 32 := Nat.mod_lt _ (by decide)
  have hbit (k : Nat) : (pmapWord map (i / 32) &&& bitInWord i).getLsbD k
      = (decide (k = i % 32) && propMapped map i) := by
    rw [BitVec.getLsbD_and, getLsbD_pmapWord, getLsbD_bitInWord, propMapped]
    by_cases hk : k = i % 32
    · simp [hk, hlt, Nat.div_add_mod]
    · simp [hk]
  unfold isMappedInWord
  by_cases hm : propMapped map i = true
  · rw [hm]
    apply decide_eq_true
    intro hzero
    have h := hbit (i % 32)
    rw [hzero, BitVec.getLsbD_zero] at h
    simp [hm] at h
  · rw [Bool.not_eq_true] at hm
    rw [hm]
    apply decide_eq_false
    rw [not_not]
    apply BitVec.eq_of_getLsbD_eq
    intro k _
    rw [hbit, hm, Bool.and_false, BitVec.getLsbD_zero]

lemma mapPropInWord_eq (map : BitVec nMappableProps) (i : Nat) :
    mapPropInWord map i = mapProp map i := by
  apply BitVec.eq_of_getLsbD_eq
  intro k hk
  rw [mapPropInWord, orPmapWord, mapProp, BitVec.getLsbD_or, BitVec.getLsbD_or,
    BitVec.getLsbD_shiftLeft, BitVec.getLsbD_setWidth, getLsbD_bitInWord, BitVec.getLsbD_twoPow]
  have hword := Nat.div_add_mod i 32
  congr 1
  rw [Bool.eq_iff_iff]
  simp only [hk, decide_true, Bool.true_and, Bool.and_eq_true, Bool.not_eq_true',
    decide_eq_true_eq, decide_eq_false_iff_not, Nat.not_lt]
  constructor
  · rintro ⟨hle, -, heq⟩
    omega
  · rintro ⟨hlt, rfl⟩
    exact ⟨by omega, by omega, by omega⟩

/-! ## Counting -/

/-- One of the lines of `count_set_bits`. -/
lemma toNat_halveFields {mask : BitVec 32} {w n : Nat} (hw : 0 < w) (hn : 2 * w * n = 32)
    (hodd : mask.toNat >>> w = evenMask w n) (heven : (~~~mask).toNat = evenMask w n)
    (x : BitVec 32) : (halveFields mask w x).toNat = addPairs w n x.toNat := by
  have hlt := addPairs_lt hw n x.toNat
  rw [hn] at hlt
  rw [halveFields, BitVec.toNat_add, BitVec.toNat_ushiftRight, BitVec.toNat_and,
    BitVec.toNat_and, Nat.shiftRight_and_distrib, hodd, heven]
  exact Nat.mod_eq_of_lt hlt

lemma countWordBits_eq (x : BitVec 32) :
    countWordBits x = (List.range 32).countP x.getLsbD := by
  have hbits : countWordBits x = collapse 1 5 x.toNat := by
    unfold countWordBits
    dsimp only
    rw [toNat_halveFields (n := 1) (by decide) rfl (by decide) (by decide),
      toNat_halveFields (n := 2) (by decide) rfl (by decide) (by decide),
      toNat_halveFields (n := 4) (by decide) rfl (by decide) (by decide),
      toNat_halveFields (n := 8) (by decide) rfl (by decide) (by decide),
      toNat_halveFields (n := 16) (by decide) rfl (by decide) (by decide)]
    rfl
  rw [hbits, collapse_eq (by decide) 5 x.isLt, fieldSum_one]
  rfl

lemma countWords_eq (map : BitVec nMappableProps) (n : Nat) :
    countWords map n = (List.range (32 * n)).countP (propMapped map) := by
  unfold countWords
  induction n with
  | zero => rfl
  | succ n ih =>
    rw [List.range_succ, List.map_append, List.sum_append, ih, List.map_singleton,
      List.sum_singleton, countWordBits_eq, Nat.mul_succ, List.range_add, List.countP_append,
      List.countP_map]
    congr 1
    apply List.countP_congr
    intro k hk
    rw [getLsbD_pmapWord, decide_eq_true (List.mem_range.mp hk), Bool.true_and]
    rfl

lemma countWords_waifMapsz (map : BitVec nMappableProps) :
    countWords map waifMapsz = countSetBits map := countWords_eq map waifMapsz

lemma countBefore_eq (map : BitVec nMappableProps) (i : Nat) :
    countBefore map i = (List.range i).countP (propMapped map) := by
  have hlt : i % 32 < 32 := Nat.mod_lt _ (by decide)
  have hsplit : List.range i
      = List.range (32 * (i / 32)) ++ (List.range (i % 32)).map (32 * (i / 32) + ·) := by
    rw [← List.range_add, Nat.div_add_mod]
  unfold countBefore
  dsimp only
  rw [hsplit, List.countP_append, List.countP_map, ← countWords_eq]
  split_ifs with hrest
  · congr 1
    -- the bits of the word outside of the mask count for nothing
    have hrange : List.range 32
        = List.range (i % 32) ++ (List.range (32 - i % 32)).map (i % 32 + ·) := by
      rw [← List.range_add, Nat.add_sub_cancel' hlt.le]
    have hbit (k : Nat) : (pmapWord map (i / 32) &&& BitVec.allOnes 32 >>> (32 - i % 32)).getLsbD k
        = (decide (k < i % 32) && propMapped map (32 * (i / 32) + k)) := by
      have hin : 32 - i % 32 + k < 32 ↔ k < i % 32 := by omega
      rw [BitVec.getLsbD_and, getLsbD_pmapWord, BitVec.getLsbD_ushiftRight,
        BitVec.getLsbD_allOnes, propMapped]
      by_cases hk : k < i % 32
      · simp [hin.mpr hk, hk, hk.trans hlt]
      · simp [mt hin.mp hk, hk]
    rw [countWordBits_eq, hrange, List.countP_append, List.countP_map]
    have htop : (List.range (32 - i % 32)).countP ((pmapWord map (i / 32) &&&
        BitVec.allOnes 32 >>> (32 - i % 32)).getLsbD ∘ (i % 32 + ·)) = 0 := by
      rw [List.countP_eq_zero]
      intro k _
      rw [Function.comp_apply, hbit]
      simp
    rw [htop, Nat.add_zero]
    apply List.countP_congr
    intro k hk
    rw [hbit, decide_eq_true (List.mem_range.mp hk), Bool.true_and]
    rfl
  · have hzero : i % 32 = 0 := not_not.mp hrest
    rw [hzero]
    rfl

lemma propvalOffset_eq (map : BitVec nMappableProps) (i : Nat) :
    propvalOffset map i =
      if nMappableProps ≤ i then some (i - nMappableProps + countSetBits map)
      else if propMapped map i then some ((List.range i).countP (propMapped map))
      else none := by
  unfold propvalOffset
  rw [countWords_waifMapsz, isMappedInWord_eq, countBefore_eq]
  cases propMapped map i <;> rfl

/-- The offset that is found is the one computed from the words. -/
lemma findPropvalOffset_eq (defs : List Propdef) (map : BitVec nMappableProps) (name : String) :
    findPropvalOffset defs map name
      = (defs.findIdx? fun pd => strEqual pd.name name).map fun i => (i, propvalOffset map i) := by
  unfold findPropvalOffset
  simp only [propvalOffset_eq]

lemma countWaifPropvals_eq (length : Nat) (map : BitVec nMappableProps) :
    countWaifPropvals length map = length - nMappableProps + countWords map waifMapsz := by
  rw [countWords_waifMapsz, countWaifPropvals]

end LambdaMOO
