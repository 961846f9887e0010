import LambdaMOO.Db.Structures
import Mathlib.Data.BitVec

/-!
# Waifs

The storage of a waif and its reconciliation with its class: `waif.c` up to
`update_waif_propdefs`. The values of the first `N_MAPPABLE_PROPS` properties are packed,
with a bit of the map for each that is not clear; the values of the others are always there.
-/

namespace LambdaMOO

variable {P : Type}

/-- `PROP_MAPPED`. -/
def propMapped (map : BitVec nMappableProps) (i : Nat) : Bool := map.getLsbD i

/-- `MAP_PROP`. -/
def mapProp (map : BitVec nMappableProps) (i : Nat) : BitVec nMappableProps :=
  map ||| BitVec.twoPow nMappableProps i

/-- `count_set_bits` summed over the words of the map. -/
def countSetBits (map : BitVec nMappableProps) : Nat :=
  (List.range nMappableProps).countP (propMapped map)

/-- `w->u.save_index` of the default build, where `u` is a union. -/
def saveIndex (map : BitVec nMappableProps) : Nat := (map.extractLsb' 0 32).toNat

/-- `w->u.save_index = index`. -/
def setSaveIndex (map : BitVec nMappableProps) (index : Nat) : BitVec nMappableProps :=
  (map >>> 32) <<< 32 ||| (BitVec.ofNat 32 index).setWidth nMappableProps

/-- The property `i` has a slot of its own. -/
def hasSlot (map : BitVec nMappableProps) (i : Nat) : Bool :=
  nMappableProps ≤ i || propMapped map i

/-- `WAIF_PROP_PREFIX`. -/
def waifPropPrefix : Char := ':'

def isWaifProp (pd : Propdef) : Bool := pd.name.toList.head? = some waifPropPrefix

namespace Db

/-- The names `gen_waif_propdefs` collects for a class, from the class up. -/
def genWaifPropdefs (objects : List (Option (Object P))) (oid : Int) : List Propdef :=
  (ancestors objects objects.length oid).flatMap fun o => o.propdefs.filter isWaifProp

end Db

/-- `count_waif_propvals` for a property list of the given length. -/
def countWaifPropvals (length : Nat) (map : BitVec nMappableProps) : Nat :=
  length - nMappableProps + countSetBits map

/-- An array of values, null if there is none to allocate. -/
def allocated : List Var → Option (List Var)
  | [] => none
  | v :: vs => some (v :: vs)

/-- `alloc_waif_propvals(w, 1)`. -/
def allocWaifPropvals (length : Nat) (map : BitVec nMappableProps) : Option (List Var) :=
  allocated (List.replicate (countWaifPropvals length map) .clear)

/-- The values of the properties `i`, `i + 1`, .. of an old property list, one for each of
its `n` entries from there on, clear where there is no slot. Nothing where the code would
read behind the end of the values. -/
def unpack (map : BitVec nMappableProps) : Nat → Nat → List Var → Option (List Var)
  | _, 0, _ => some []
  | i, n + 1, ov =>
    if hasSlot map i then
      match ov with
      | [] => none
      | v :: ov => (unpack map (i + 1) n ov).map (v :: ·)
    else (unpack map (i + 1) n ov).map (.clear :: ·)

/-- The loop that fills `xfer`. `a` is the rest of the old property list with the old
values. A new name that is among the old ones deletes what stands before it there, one that
is not is an insertion. -/
def transfer : List (Propdef × Var) → List Propdef → List Var
  | _, [] => []
  | a, b :: bs =>
    match a.dropWhile (fun p => p.1 ≠ b) with
    | [] => .clear :: transfer a bs
    | (_, v) :: a' => v :: transfer a' bs

/-- The map for a flat array of values. -/
def mapOf (xfer : List Var) : BitVec nMappableProps :=
  ((List.range nMappableProps).filter fun i => (xfer[i]?).any fun v => !v.isClear).foldl mapProp 0

/-- The values of a flat array that get a slot. -/
def pack (map : BitVec nMappableProps) : Nat → List Var → List Var
  | _, [] => []
  | i, v :: vs => if hasSlot map i then v :: pack map (i + 1) vs else pack map (i + 1) vs

/-- The map and the values of a waif whose property list changes from `oldDefs` to `defs`.
A waif with nothing stored keeps its map. Nothing where the code would use a null pointer or
read behind the end of the values. -/
def Waif.reconcile (w : Waif) (oldDefs : Option (List Propdef)) (defs : List Propdef) :
    Option (BitVec nMappableProps × Option (List Var)) :=
  match w.propvals with
  | none => some (w.pmap, allocWaifPropvals defs.length w.pmap)
  | some ov => do
    let oldDefs ← oldDefs
    let vals ← unpack w.pmap 0 oldDefs.length ov
    let xfer := transfer (oldDefs.zip vals) defs
    some (mapOf xfer, allocated (pack (mapOf xfer) 0 xfer))

namespace Db

/-- The property list of a class, which is generated if there is none, and where it is. -/
def classPropdefs (db : Db P) (cls : Int) (o : Object P) : Nat × Db P :=
  match o.waifPropdefs with
  | some new => (new, db)
  | none =>
    (db.waifPropdefs.length,
      { db with
        waifPropdefs := db.waifPropdefs ++ [genWaifPropdefs db.objects cls]
        objects := db.objects.set cls.toNat
          (some { o with waifPropdefs := some db.waifPropdefs.length }) })

/-- `update_waif_propdefs` on the waif at `r`. -/
def updateWaifPropdefs (db : Db P) (r : Nat) : Option (Db P) := do
  let waif ← db.waifs[r]?
  match findObject db.objects waif.cls with
  | none =>
    some { db with waifs := db.waifs.set r { waif with propdefs := none, propvals := none } }
  | some o =>
    if waif.propdefs = o.waifPropdefs then some db
    else
      let (new, db') := db.classPropdefs waif.cls o
      let defs ← db'.waifPropdefs[new]?
      let oldDefs := waif.propdefs.bind fun old => db.waifPropdefs[old]?
      let (map, vals) ← waif.reconcile oldDefs defs
      some { db' with
        waifs := db'.waifs.set r
          { waif with propdefs := some new, pmap := map, propvals := vals } }

end Db

/-! ## Reconciling brings no new values -/

lemma getD_allocated (vs : List Var) : (allocated vs).getD [] = vs := by
  cases vs <;> rfl

lemma mem_unpack {map : BitVec nMappableProps} {i n : Nat} {ov us : List Var}
    (h : unpack map i n ov = some us) : ∀ u ∈ us, u = .clear ∨ u ∈ ov := by
  induction n generalizing i ov us with
  | zero =>
    obtain rfl : [] = us := by simpa [unpack] using h
    simp
  | succ n ih =>
    unfold unpack at h
    split_ifs at h with hslot
    · cases ov with
      | nil => simp at h
      | cons v ov =>
        obtain ⟨us', hus', rfl⟩ := Option.map_eq_some_iff.mp h
        intro u hu
        rcases List.mem_cons.mp hu with rfl | hu
        · simp
        · rcases ih hus' u hu with hc | hm
          · exact Or.inl hc
          · exact Or.inr (List.mem_cons_of_mem _ hm)
    · obtain ⟨us', hus', rfl⟩ := Option.map_eq_some_iff.mp h
      intro u hu
      rcases List.mem_cons.mp hu with rfl | hu
      · exact Or.inl rfl
      · exact ih hus' u hu

lemma mem_transfer {a : List (Propdef × Var)} {bs : List Propdef} :
    ∀ v ∈ transfer a bs, v = .clear ∨ ∃ p, (p, v) ∈ a := by
  induction bs generalizing a with
  | nil => simp [transfer]
  | cons b bs ih =>
    unfold transfer
    split
    · intro v hv
      rcases List.mem_cons.mp hv with rfl | hv
      · exact Or.inl rfl
      · exact ih v hv
    · rename_i p u a' hdrop
      have hsub : (p, u) :: a' ⊆ a := hdrop ▸ (List.dropWhile_suffix _).subset
      intro v hv
      rcases List.mem_cons.mp hv with rfl | hv
      · exact Or.inr ⟨p, hsub (by simp)⟩
      · rcases ih v hv with hc | ⟨p', hp'⟩
        · exact Or.inl hc
        · exact Or.inr ⟨p', hsub (by simp [hp'])⟩

lemma mem_of_mem_pack {map : BitVec nMappableProps} {i : Nat} {vs : List Var} :
    ∀ v ∈ pack map i vs, v ∈ vs := by
  induction vs generalizing i with
  | nil => simp [pack]
  | cons u vs ih =>
    unfold pack
    split
    · intro v hv
      rcases List.mem_cons.mp hv with rfl | hv
      · simp
      · exact List.mem_cons_of_mem _ (ih v hv)
    · intro v hv
      exact List.mem_cons_of_mem _ (ih v hv)

lemma Waif.mem_reconcile {w : Waif} {oldDefs : Option (List Propdef)} {defs : List Propdef}
    {map : BitVec nMappableProps} {vals : Option (List Var)}
    (h : w.reconcile oldDefs defs = some (map, vals)) :
    ∀ v ∈ vals.getD [], v = .clear ∨ v ∈ w.propvals.getD [] := by
  unfold Waif.reconcile at h
  split at h
  · obtain ⟨rfl, rfl⟩ : w.pmap = map ∧ allocWaifPropvals defs.length w.pmap = vals := by
      simpa using h
    rw [allocWaifPropvals, getD_allocated]
    intro v hv
    exact Or.inl (List.eq_of_mem_replicate hv)
  · rename_i ov hov
    simp only [Option.bind_eq_bind, Option.bind_eq_some_iff, Option.some.injEq,
      Prod.mk.injEq] at h
    obtain ⟨old, _, us, hus, _, rfl⟩ := h
    rw [getD_allocated, hov]
    intro v hv
    rcases mem_transfer v (mem_of_mem_pack v hv) with hc | ⟨p, hp⟩
    · exact Or.inl hc
    · exact mem_unpack hus v (List.of_mem_zip hp).2

end LambdaMOO
