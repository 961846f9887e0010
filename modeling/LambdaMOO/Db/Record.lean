import LambdaMOO.Db.Emit
import LambdaMOO.Db.Hierarchy

/-!
# What is recorded of a waif

A dump reconciles each waif with its class before it writes it, and on the way classes get
their property lists. Neither changes what would be recorded of another waif: that depends
on the property definitions only, not on which lists have been generated.
-/

namespace LambdaMOO

variable {P : Type}

/-- Whether `dbio_write_waif` writes the property `i`; `val` is the rest of the stored
values. -/
def isWritten (map : BitVec nMappableProps) (i : Nat) (val : List Var) : Bool :=
  if i < nMappableProps then propMapped map i else val.head?.any fun v => !v.isClear

/-- The properties that `dbio_write_waif` writes of the `n` from `i` on. -/
def writtenProps (map : BitVec nMappableProps) : Nat → Nat → List Var → Option (List (Nat × Var))
  | _, 0, _ => some []
  | i, n + 1, val =>
    if hasSlot map i then
      match val with
      | [] => none
      | v :: val' =>
        (writtenProps map (i + 1) n val').map fun ps =>
          if isWritten map i val then (i, v) :: ps else ps
    else writtenProps map (i + 1) n val

/-- The object without the property list of its waifs. -/
def Object.bare (o : Object P) : Object P := { o with waifPropdefs := none }

namespace Db

def bareObjects (objects : Objects P) : Objects P := objects.map (Option.map Object.bare)

/-- The property list of the class `oid`, if it has been generated. -/
def cacheOf (objects : Objects P) (oid : Int) : Option Nat :=
  (findObject objects oid).bind Object.waifPropdefs

/-- The map, the values and the length of the property list of `w` as the next access to it
leaves them. -/
def reconciled (db : Db P) (w : Waif) :
    Option (BitVec nMappableProps × Option (List Var) × Nat) :=
  if isValid db.objects w.cls then
    if w.propdefs = cacheOf db.objects w.cls then
      match w.propdefs with
      | none => some (w.pmap, w.propvals, 0)
      | some pd => (db.waifPropdefs[pd]?).map fun defs => (w.pmap, w.propvals, defs.length)
    else
      let defs := genWaifPropdefs db.objects w.cls
      (w.reconcile (w.propdefs.bind fun old => db.waifPropdefs[old]?) defs).map fun p =>
        (p.1, p.2, defs.length)
  else some (w.pmap, none, 0)

/-- What a dump would record of the waif at `r`. -/
def record (db : Db P) (r : Nat) : Option Record := do
  let w ← db.waifs[r]?
  let (map, vals, len) ← db.reconciled w
  let props ← writtenProps map 0 len (vals.getD [])
  some { cls := w.cls, owner := w.owner, length := len, props := props }

lemma mem_reconciled {db : Db P} {w : Waif} {map : BitVec nMappableProps}
    {vals : Option (List Var)} {len : Nat} (h : db.reconciled w = some (map, vals, len)) :
    ∀ v ∈ vals.getD [], v = .clear ∨ v ∈ w.propvals.getD [] := by
  unfold reconciled at h
  split_ifs at h with hv hsync
  · split at h
    · obtain ⟨-, rfl, -⟩ : w.pmap = map ∧ w.propvals = vals ∧ 0 = len := by simpa using h
      exact fun v hv => Or.inr hv
    · obtain ⟨defs, -, hdefs⟩ := Option.map_eq_some_iff.mp h
      obtain ⟨-, rfl, -⟩ : w.pmap = map ∧ w.propvals = vals ∧ defs.length = len := by
        simpa using hdefs
      exact fun v hv => Or.inr hv
  · obtain ⟨p, hp, heq⟩ := Option.map_eq_some_iff.mp h
    obtain ⟨rfl, rfl, -⟩ : p.1 = map ∧ p.2 = vals ∧ _ = len := by simpa using heq
    exact Waif.mem_reconcile hp
  · obtain ⟨-, rfl, -⟩ : w.pmap = map ∧ none = vals ∧ 0 = len := by simpa using h
    simp

/-! ## Property lists do not depend on each other -/

variable {objects objects' : Objects P} {oid : Int}

lemma findObject_bareObjects : findObject (bareObjects objects) oid
    = (findObject objects oid).map Object.bare := findObject_map _ _

lemma ancestors_bareObjects (n : Nat) : ancestors (bareObjects objects) n oid
    = (ancestors objects n oid).map Object.bare :=
  ancestors_map (g := Object.bare) (fun _ => rfl) n oid

lemma length_bareObjects : (bareObjects objects).length = objects.length := by
  simp [bareObjects]

lemma genWaifPropdefs_bareObjects :
    genWaifPropdefs (bareObjects objects) oid = genWaifPropdefs objects oid := by
  simp only [genWaifPropdefs, length_bareObjects, ancestors_bareObjects, List.flatMap_map,
    Object.bare]

lemma countProperties_bareObjects :
    countProperties (bareObjects objects) oid = countProperties objects oid := by
  simp only [countProperties, length_bareObjects, ancestors_bareObjects, List.map_map]
  rfl

lemma genWaifPropdefs_congr (h : bareObjects objects' = bareObjects objects) (oid : Int) :
    genWaifPropdefs objects' oid = genWaifPropdefs objects oid := by
  rw [← genWaifPropdefs_bareObjects, h, genWaifPropdefs_bareObjects]

lemma isValid_congr (h : bareObjects objects' = bareObjects objects) (oid : Int) :
    isValid objects' oid = isValid objects oid := by
  have := congrArg (fun os => (findObject os oid).isSome) h
  simpa only [isValid, findObject_bareObjects, Option.isSome_map] using this

/-- Each class with a property list has the one that would be generated now. -/
def CacheOk (db : Db P) : Prop :=
  ∀ oid a, cacheOf db.objects oid = some a →
    db.waifPropdefs[a]? = some (genWaifPropdefs db.objects oid)

/-- `db` comes from `base` by generating property lists for classes without one. The waifs
may be different. -/
structure Grown (base db : Db P) : Prop where
  objects : bareObjects db.objects = bareObjects base.objects
  allUsers : db.allUsers = base.allUsers
  lists : base.waifPropdefs <+: db.waifPropdefs
  kept : ∀ oid a, cacheOf base.objects oid = some a → cacheOf db.objects oid = some a
  fresh : ∀ oid a, cacheOf base.objects oid = none → cacheOf db.objects oid = some a →
    base.waifPropdefs.length ≤ a

namespace Grown

variable {base db db' : Db P}

lemma refl (db : Db P) : Grown db db where
  objects := rfl
  allUsers := rfl
  lists := List.prefix_rfl
  kept := fun _ _ h => h
  fresh := fun _ _ h h' => by simp [h] at h'

lemma trans (h : Grown base db) (h' : Grown db db') : Grown base db' where
  objects := h'.objects.trans h.objects
  allUsers := h'.allUsers.trans h.allUsers
  lists := h.lists.trans h'.lists
  kept := fun oid a ha => h'.kept oid a (h.kept oid a ha)
  fresh := by
    intro oid a hbase ha
    cases hdb : cacheOf db.objects oid with
    | none => exact le_trans h.lists.length_le (h'.fresh oid a hdb ha)
    | some b =>
      have hab := h'.kept oid b hdb
      rw [ha, Option.some.injEq] at hab
      exact hab ▸ h.fresh oid b hbase hdb

lemma getElem?_lists (h : Grown base db) {a : Nat} {defs : List Propdef}
    (ha : base.waifPropdefs[a]? = some defs) : db.waifPropdefs[a]? = some defs := by
  obtain ⟨suffix, hs⟩ := h.lists
  rw [← hs, List.getElem?_append_left (List.getElem?_eq_some_iff.mp ha).1, ha]

/-- Only waifs change. -/
lemma setWaifs (h : Grown base db) (waifs : List Waif) : Grown base { db with waifs := waifs } :=
  { objects := h.objects, allUsers := h.allUsers, lists := h.lists, kept := h.kept,
    fresh := h.fresh }

end Grown

/-- The class `cls` has its property list at `new`, and the database has only grown. -/
structure HasList (db db' : Db P) (cls : Int) (new : Nat) : Prop where
  grown : Grown db db'
  cacheOk : CacheOk db'
  cache : cacheOf db'.objects cls = some new
  list : db'.waifPropdefs[new]? = some (genWaifPropdefs db.objects cls)
  waifs : db'.waifs = db.waifs

lemma classPropdefs_spec {db : Db P} {cls : Int} {o : Object P} (hc : CacheOk db)
    (ho : findObject db.objects cls = some o) :
    HasList db (db.classPropdefs cls o).2 cls (db.classPropdefs cls o).1 := by
  have hcls : cacheOf db.objects cls = o.waifPropdefs := by simp [cacheOf, ho]
  unfold classPropdefs
  cases hw : o.waifPropdefs with
  | some new =>
    rw [hw] at hcls
    exact ⟨Grown.refl db, hc, hcls, hc cls new hcls, rfl⟩
  | none =>
    rw [hw] at hcls
    -- the new list stands behind all others and no object but the class points to it
    have hcache : ∀ x, cacheOf (db.objects.set cls.toNat
        (some { o with waifPropdefs := some db.waifPropdefs.length })) x
        = if x = cls then some db.waifPropdefs.length else cacheOf db.objects x := by
      intro x
      unfold cacheOf
      rw [findObject_set ho]
      split <;> rfl
    have hbare : bareObjects (db.objects.set cls.toNat
        (some { o with waifPropdefs := some db.waifPropdefs.length })) = bareObjects db.objects := by
      obtain ⟨_, hget⟩ := findObject_eq_some ho
      unfold bareObjects
      rw [List.map_set]
      apply List.ext_getElem?
      intro i
      by_cases hi : i = cls.toNat
      · subst hi
        rw [List.getElem?_set_self (by simpa using (List.getElem?_eq_some_iff.mp hget).1),
          List.getElem?_map, hget]
        rfl
      · rw [List.getElem?_set_ne (Ne.symm hi)]
    refine ⟨⟨hbare, rfl, List.prefix_append _ _, ?_, ?_⟩, ?_, ?_, ?_, rfl⟩
    · intro x a ha
      rw [hcache]
      by_cases hx : x = cls
      · simp [hx, hcls] at ha
      · simpa [hx] using ha
    · intro x a hnone ha
      simp only [hcache] at ha
      by_cases hx : x = cls
      · simp only [hx, if_true, Option.some.injEq] at ha
        exact ha.le
      · simp [hx, hnone] at ha
    · intro x a ha
      simp only [hcache] at ha
      rw [genWaifPropdefs_congr hbare]
      by_cases hx : x = cls
      · simp only [hx, if_true, Option.some.injEq] at ha
        simp [← ha, hx]
      · simp only [hx, if_false] at ha
        have := hc x a ha
        rw [List.getElem?_append_left (List.getElem?_eq_some_iff.mp this).1, this]
    · simp [hcache]
    · simp

/-- What is recorded of a waif is not changed by generating property lists. -/
lemma Grown.reconciled_eq {base db : Db P} (h : Grown base db) {w : Waif}
    (hw : ∀ a ∈ w.propdefs, a < base.waifPropdefs.length)
    (hlist : isValid base.objects w.cls → w.propdefs.isSome) :
    db.reconciled w = base.reconciled w := by
  unfold reconciled
  rw [isValid_congr h.objects, genWaifPropdefs_congr h.objects]
  by_cases hv : isValid base.objects w.cls
  swap
  · simp [hv]
  simp only [hv, if_true]
  obtain ⟨old, hold⟩ := Option.isSome_iff_exists.mp (hlist hv)
  obtain ⟨defs, hdefs⟩ : ∃ defs, base.waifPropdefs[old]? = some defs :=
    ⟨_, List.getElem?_eq_getElem (hw old hold)⟩
  simp only [hold, Option.bind_some, hdefs, h.getElem?_lists hdefs]
  -- the pointers agree in `db` only if they did in `base`
  have hiff : some old = cacheOf db.objects w.cls ↔ some old = cacheOf base.objects w.cls := by
    constructor
    · intro heq
      cases hbase : cacheOf base.objects w.cls with
      | some b => rw [heq, h.kept _ _ hbase]
      | none =>
        have := h.fresh _ _ hbase heq.symm
        have := hw old hold
        omega
    · intro heq
      exact (h.kept _ _ heq.symm).symm
  simp only [hiff]

end Db

end LambdaMOO
