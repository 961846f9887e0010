import LambdaMOO.Db.WaifStorage

/-!
# The storage of a waif as a map

A waif is a map from the indices of its property list to values, where a property without a
value is clear. Any sequence of assignments and reconciliations keeps the packed storage in
step with this map.
-/

namespace LambdaMOO

variable {P : Type}

/-! ## The storage -/

/-- A waif and the property list that it points to. -/
structure Storage where
  waif : Waif
  defs : Option (List Propdef)
  deriving Repr

/-- What happens to the storage of a waif: an assignment to a property by its name in the
list, an access after the class has got another property list, and an access after the
class has been recycled. -/
inductive StorageOp where
  | write (name : String) (val : Var)
  | update (defs : List Propdef)
  | recycled
  deriving Repr

/-- `new_waif` for a class with the given property list. -/
def freshStorage (cls owner : Int) (new : Nat) (defs : List Propdef) : Storage :=
  { waif := freshWaif cls owner new defs.length
    defs := some defs }

/-- The loop of `find_propval_offset` over the property list. -/
def findPropdef (defs : List Propdef) (name : String) : Option Nat :=
  defs.findIdx? fun pd => strEqual pd.name name

namespace Storage

/-- The value at the offset of the property `i`, clear without an offset. Nothing where the
code would read behind the end of the values. -/
def readAt (s : Storage) (i : Nat) : Option Var :=
  match propvalOffset s.waif.pmap i with
  | none => some .clear
  | some idx => (s.waif.propvals.getD [])[idx]?

/-- What `waif_get_prop` finds in the waif; there is a value unless it is `E_PROPNF`.
Nothing where the code would use a null pointer. -/
def read (s : Storage) (name : String) : Option (Option Var) :=
  s.defs.bind fun defs =>
    match findPropdef defs name with
    | none => some none
    | some i => (s.readAt i).map some

/-- `*dest = val` for an offset in the values. -/
def store (s : Storage) (idx : Nat) (val : Var) : Option Storage :=
  s.waif.propvals.bind fun vals =>
    if idx < vals.length then
      some { s with waif := { s.waif with propvals := some (vals.set idx val) } }
    else none

/-- What `waif_put_prop` does to the waif once it is allowed. -/
def write (s : Storage) (name : String) (val : Var) : Option Storage :=
  s.defs.bind fun defs =>
    match findPropdef defs name with
    | none => some s
    | some i =>
      match propvalOffset s.waif.pmap i with
      | some idx => s.store idx val
      | none =>
        (allocPropvalOffset defs.length s.waif i).bind fun r =>
          { s with waif := r.2 }.store r.1 val

/-- `update_waif_propdefs` for a class with another property list. -/
def update (s : Storage) (defs : List Propdef) : Option Storage :=
  (s.waif.reconcileLoop s.defs defs).map fun r =>
    { waif := { s.waif with pmap := r.1, propvals := r.2 }
      defs := some defs }

/-- `update_waif_propdefs` for a class that is not valid. -/
def recycled (s : Storage) : Storage :=
  { waif := { s.waif with propdefs := none, propvals := none }
    defs := none }

def step (s : Storage) : StorageOp → Option Storage
  | .write name val => s.write name val
  | .update defs => s.update defs
  | .recycled => some s.recycled

def run (s : Storage) : List StorageOp → Option Storage
  | [] => some s
  | op :: ops => (s.step op).bind fun s => s.run ops

end Storage

/-! ## The map -/

/-- A property list and a value for some of its indices. -/
structure WaifMap where
  defs : Option (List Propdef)
  value : Nat → Option Var

/-- A value that is not clear. -/
def unlessClear (v : Var) : Option Var := if v.isClear then none else some v

/-- No property has a value. -/
def freshMap (defs : List Propdef) : WaifMap where
  defs := some defs
  value _ := none

namespace WaifMap

def find (m : WaifMap) (name : String) : Option Nat := findPropdef (m.defs.getD []) name

/-- The value of a property of the list by name. -/
def read (m : WaifMap) (name : String) : Option (Option Var) := (m.find name).map m.value

def set (m : WaifMap) (i : Nat) (val : Var) : WaifMap :=
  { m with value := Function.update m.value i (unlessClear val) }

def write (m : WaifMap) (name : String) (val : Var) : WaifMap :=
  match m.find name with
  | none => m
  | some i => m.set i val

/-- The common names keep their values, at their new indices. -/
def update (m : WaifMap) (defs : List Propdef) : WaifMap where
  defs := some defs
  value j := defs[j]?.bind fun pd => ((m.defs.getD []).idxOf? pd).bind m.value

def step (m : WaifMap) : StorageOp → WaifMap
  | .write name val => m.write name val
  | .update defs => m.update defs
  | .recycled => { defs := none, value := fun _ => none }

def run (m : WaifMap) (ops : List StorageOp) : WaifMap := ops.foldl step m

end WaifMap

/-- Only a waif with a property list is assigned to, and the names that two property lists of
a class have in common are in one order. -/
def Allowed : Option (List Propdef) → List StorageOp → Prop
  | _, [] => True
  | defs, .write _ _ :: ops => defs.isSome ∧ Allowed defs ops
  | defs, .update new :: ops => (∀ old ∈ defs, SameOrder old new) ∧ Allowed (some new) ops
  | _, .recycled :: ops => Allowed none ops

/-- The values by index are those of the map, in an array of the length that
`count_waif_propvals` says. -/
structure Storage.Represents (s : Storage) (m : WaifMap) : Prop where
  defs_eq : s.defs = m.defs
  empty : s.defs = none → s.waif.propvals = none
  count : ∀ defs ∈ s.defs,
    (s.waif.propvals.getD []).length = countWaifPropvals defs.length s.waif.pmap
  values : ∃ us,
    unpack s.waif.pmap 0 (s.defs.getD []).length (s.waif.propvals.getD []) = some us ∧
      ∀ i, m.value i = us[i]?.bind unlessClear

lemma unlessClear_getD (v : Var) : (unlessClear v).getD .clear = v := by
  cases v <;> rfl

lemma unlessClear_clear : unlessClear .clear = none := rfl

/-- Nothing but clear values. -/
lemma bind_unlessClear_of_clear {map : BitVec nMappableProps} {n : Nat} {ov us : List Var}
    (h : unpack map 0 n ov = some us) (hclear : ∀ v ∈ ov, v = .clear) (i : Nat) :
    us[i]?.bind unlessClear = none := by
  rw [Option.bind_eq_none_iff]
  intro u hu
  have hu : u = .clear := (mem_unpack h u (List.mem_of_getElem? hu)).elim id (hclear u)
  rw [hu, unlessClear_clear]

lemma represents_freshStorage (cls owner : Int) (new : Nat) (defs : List Propdef) :
    (freshStorage cls owner new defs).Represents (freshMap defs) where
  defs_eq := rfl
  empty h := by cases h
  count := by
    rintro _ ⟨rfl⟩
    rw [freshStorage, freshWaif, allocWaifPropvals, getD_allocated, List.length_replicate]
  values := by
    have hlen : slotCount 0 0 defs.length ≤
        (List.replicate (countWaifPropvals defs.length 0) Var.clear).length := by
      rw [List.length_replicate]
      exact slotCount_le 0 defs.length
    obtain ⟨us, hus⟩ := exists_unpack hlen
    refine ⟨us, ?_, ?_⟩
    · rw [freshStorage, freshWaif, allocWaifPropvals, getD_allocated]
      exact hus
    · intro i
      exact (bind_unlessClear_of_clear hus (fun v => List.eq_of_mem_replicate) i).symm

namespace Storage.Represents

variable {s : Storage} {m : WaifMap}

/-- The slot of a property of the list lies in the storage. -/
lemma slotCount_lt (h : s.Represents m) {defs : List Propdef} (hd : s.defs = some defs) {i : Nat}
    (hi : i < defs.length) (hs : hasSlot s.waif.pmap i) :
    slotCount s.waif.pmap 0 i < (s.waif.propvals.getD []).length := by
  have hlt : slotCount s.waif.pmap 0 i < slotCount s.waif.pmap 0 defs.length :=
    LambdaMOO.slotCount_lt hi (by rwa [Nat.zero_add])
  rw [h.count defs hd]
  exact hlt.trans_le (slotCount_le s.waif.pmap defs.length)

lemma readAt_eq (h : s.Represents m) {defs : List Propdef} (hd : s.defs = some defs) {i : Nat}
    (hi : i < defs.length) : s.readAt i = some ((m.value i).getD .clear) := by
  obtain ⟨us, hus, hvalue⟩ := h.values
  rw [hd, Option.getD_some] at hus
  have hlt : i < us.length := by rwa [length_unpack hus]
  have hget := getElem?_unpack hus hi
  rw [Nat.zero_add] at hget
  rw [readAt, propvalOffset_eq_slotCount, hvalue i]
  by_cases hs : hasSlot s.waif.pmap i
  · rw [if_pos hs] at hget ⊢
    dsimp only
    rw [← hget, List.getElem?_eq_getElem hlt, Option.bind_some, unlessClear_getD]
  · rw [if_neg hs] at hget ⊢
    rw [hget]
    rfl

/-- The value goes into the slot of the property. -/
lemma exists_store (h : s.Represents m) {defs : List Propdef} (hd : s.defs = some defs) {i : Nat}
    (hi : i < defs.length) (hs : hasSlot s.waif.pmap i) (val : Var) :
    ∃ s', s.store (slotCount s.waif.pmap 0 i) val = some s' ∧ s'.Represents (m.set i val) := by
  have hlt := h.slotCount_lt hd hi hs
  obtain ⟨us, hus, hvalue⟩ := h.values
  cases hv : s.waif.propvals with
  | none =>
    rw [hv] at hlt
    exact absurd hlt (Nat.not_lt_zero _)
  | some vals =>
    rw [hv, Option.getD_some] at hlt hus
    refine ⟨_, by rw [store, hv, Option.bind_some, if_pos hlt], ?_, ?_, ?_, ?_⟩
    · exact h.defs_eq
    · intro hnone
      exact absurd (hd.symm.trans hnone) (by simp)
    · intro defs' hd'
      have hcount := h.count defs' hd'
      rw [hv, Option.getD_some] at hcount
      simpa using hcount
    · rw [hd, Option.getD_some] at hus
      refine ⟨us.set i val, ?_, ?_⟩
      · have hset := unpack_set hus hi (by rwa [Nat.zero_add]) val
        simpa [hd] using hset
      · intro j
        have hlen : i < us.length := by rwa [length_unpack hus]
        by_cases hj : j = i
        · subst hj
          simp [WaifMap.set, hlen]
        · simp [WaifMap.set, hj, Ne.symm hj, hvalue j]

/-- A slot for a property that had none. -/
lemma exists_alloc (h : s.Represents m) {defs : List Propdef} (hd : s.defs = some defs) {i : Nat}
    (hnone : ¬ hasSlot s.waif.pmap i) :
    ∃ w, allocPropvalOffset defs.length s.waif i = some (slotCount w.pmap 0 i, w) ∧
      hasSlot w.pmap i ∧ ({ s with waif := w } : Storage).Represents m := by
  obtain ⟨us, hus, hvalue⟩ := h.values
  have hidx : i < nMappableProps := by
    by_contra hge
    exact hnone (by simp [hasSlot, Nat.not_lt.mp hge])
  have hmapped : ¬ propMapped s.waif.pmap i := fun hm => hnone (by simp [hasSlot, hm])
  have hcount := h.count defs hd
  -- the loops go through all the mappable properties
  obtain ⟨us', hus'⟩ : ∃ us', unpack s.waif.pmap 0 (max defs.length nMappableProps)
      (s.waif.propvals.getD []) = some us' :=
    exists_unpack (by rw [slotCount_max, hcount])
  obtain ⟨vals, hvals, hback⟩ := exists_spread hidx hnone hus'
  obtain ⟨k, hk⟩ := Nat.exists_eq_add_of_le (Nat.le_max_left defs.length nMappableProps)
  have hslot : hasSlot (mapProp s.waif.pmap i) i := by
    rw [hasSlot_mapProp hidx]
    simp
  refine ⟨{ s.waif with pmap := mapProp s.waif.pmap i, propvals := some vals }, ?_, hslot, ?_⟩
  · rw [allocPropvalOffset, if_neg hmapped]
    dsimp only
    rw [hvals, slotCount_eq_countP (by omega), ← List.range_eq_range', Option.map_some]
  · refine ⟨h.defs_eq, ?_, ?_, us, ?_, hvalue⟩
    · intro hd'
      exact absurd (hd.symm.trans hd') (by simp)
    · intro defs' hd'
      obtain rfl : defs = defs' := Option.some.inj (hd.symm.trans hd')
      rw [Option.getD_some, length_spread hvals, slotCount_max]
    · rw [hd, Option.getD_some] at hus ⊢
      rw [hk] at hus' hback
      rw [Option.getD_some, unpack_take hback, ← unpack_take hus', hus]

lemma find_eq (h : s.Represents m) {defs : List Propdef} (hd : s.defs = some defs)
    (name : String) : m.find name = findPropdef defs name := by
  rw [WaifMap.find, ← h.defs_eq, hd, Option.getD_some]

lemma findPropdef_lt {defs : List Propdef} {name : String} {i : Nat}
    (hf : findPropdef defs name = some i) : i < defs.length :=
  (List.findIdx?_eq_some_iff_getElem.mp hf).1

lemma read_eq (h : s.Represents m) {defs : List Propdef} (hd : s.defs = some defs)
    (name : String) : s.read name = some ((m.read name).map fun v => v.getD .clear) := by
  rw [read, hd, Option.bind_some, WaifMap.read, h.find_eq hd]
  cases hf : findPropdef defs name with
  | none => rfl
  | some i =>
    dsimp only
    rw [h.readAt_eq hd (findPropdef_lt hf)]
    rfl

lemma exists_write (h : s.Represents m) {defs : List Propdef} (hd : s.defs = some defs)
    (name : String) (val : Var) :
    ∃ s', s.write name val = some s' ∧ s'.Represents (m.write name val) := by
  rw [write, hd, Option.bind_some, WaifMap.write, h.find_eq hd]
  cases hf : findPropdef defs name with
  | none => exact ⟨s, rfl, h⟩
  | some i =>
    have hi := findPropdef_lt hf
    dsimp only
    rw [propvalOffset_eq_slotCount]
    by_cases hs : hasSlot s.waif.pmap i
    · rw [if_pos hs]
      exact h.exists_store hd hi hs val
    · rw [if_neg hs]
      obtain ⟨w, hw, hslot, hrep⟩ := h.exists_alloc hd hs
      dsimp only
      rw [hw, Option.bind_some]
      simpa only [hd] using hrep.exists_store hd hi hslot val

/-- The values of a waif that stores none are clear. -/
lemma value_of_none (h : s.Represents m) (hv : s.waif.propvals = none) (i : Nat) :
    m.value i = none := by
  obtain ⟨us, hus, hvalue⟩ := h.values
  rw [hv, Option.getD_none] at hus
  rw [hvalue i]
  exact bind_unlessClear_of_clear hus (by simp) i

/-- Reconciling keeps what the map says of the common names. -/
lemma exists_update (h : s.Represents m) {defs : List Propdef}
    (horder : ∀ old ∈ s.defs, SameOrder old defs) :
    ∃ s', s.update defs = some s' ∧ s'.Represents (m.update defs) := by
  have hstored : ∀ ov, s.waif.propvals = some ov →
      ∃ old, s.defs = some old ∧ countWaifPropvals old.length s.waif.pmap = ov.length := by
    intro ov hov
    cases hd : s.defs with
    | none => exact absurd (hov.symm.trans (h.empty hd)) (by simp)
    | some old => exact ⟨old, rfl, by rw [← h.count old hd, hov, Option.getD_some]⟩
  obtain ⟨map, vals, hr, hcount⟩ := Waif.exists_reconcile defs hstored
  refine ⟨_, by rw [update, Waif.reconcileLoop_eq, hr, Option.map_some], rfl, by simp, ?_, ?_⟩
  · rintro _ ⟨rfl⟩
    exact hcount.symm
  · rw [Option.getD_some]
    cases hv : s.waif.propvals with
    | none =>
      -- nothing is stored, and nothing is taken over
      have hnone := h.value_of_none hv
      obtain ⟨rfl, rfl⟩ : s.waif.pmap = map ∧ allocWaifPropvals defs.length s.waif.pmap = vals := by
        simpa [Waif.reconcile, hv] using hr
      rw [allocWaifPropvals, getD_allocated]
      obtain ⟨us, hus⟩ : ∃ us, unpack s.waif.pmap 0 defs.length
          (List.replicate (countWaifPropvals defs.length s.waif.pmap) .clear) = some us :=
        exists_unpack (by rw [List.length_replicate]; exact slotCount_le _ _)
      refine ⟨us, hus, ?_⟩
      intro i
      rw [bind_unlessClear_of_clear hus (fun v => List.eq_of_mem_replicate), WaifMap.update]
      simp [hnone]
    | some ov =>
      obtain ⟨old, hd, -⟩ := hstored ov hv
      obtain ⟨us, hus, hvalue⟩ := h.values
      rw [hd, hv, Option.getD_some, Option.getD_some] at hus
      have hlen := length_unpack hus
      obtain ⟨rfl, rfl⟩ : mapOf (transfer (old.zip us) defs) = map ∧
          allocated (pack (mapOf (transfer (old.zip us) defs)) 0 (transfer (old.zip us) defs))
            = vals := by
        simpa [Waif.reconcile, hv, hd, hus] using hr
      refine ⟨transfer (old.zip us) defs, ?_, ?_⟩
      · have hback := unpack_pack_mapOf (transfer (old.zip us) defs)
        rw [length_transfer] at hback
        simpa only [getD_allocated] using hback
      · intro i
        rw [transfer_eq_map (horder old hd) hlen, List.getElem?_map, WaifMap.update, ← h.defs_eq,
          hd, Option.getD_some]
        dsimp only
        cases defs[i]? with
        | none => rfl
        | some pd =>
          rw [Option.bind_some, Option.map_some, Option.bind_some, valueOf]
          cases old.idxOf? pd with
          | none => rfl
          | some k =>
            rw [Option.bind_some, Option.bind_some, hvalue k]
            cases us[k]? <;> rfl

end Storage.Represents

lemma WaifMap.write_defs (m : WaifMap) (name : String) (val : Var) :
    (m.write name val).defs = m.defs := by
  rw [WaifMap.write]
  cases m.find name <;> rfl

lemma Storage.represents_recycled (s : Storage) (m : WaifMap) :
    s.recycled.Represents (m.step .recycled) where
  defs_eq := rfl
  empty _ := rfl
  count := by
    rintro _ ⟨⟩
  values := ⟨[], rfl, fun _ => rfl⟩

/-- A run keeps the storage in step with the map. -/
lemma Storage.Represents.exists_run {s : Storage} {m : WaifMap} {ops : List StorageOp}
    (h : s.Represents m) (hops : Allowed s.defs ops) :
    ∃ s', s.run ops = some s' ∧ s'.Represents (m.run ops) := by
  induction ops generalizing s m with
  | nil => exact ⟨s, rfl, h⟩
  | cons op ops ih =>
    rw [Storage.run]
    cases op with
    | write name val =>
      obtain ⟨hsome, hops⟩ := hops
      obtain ⟨defs, hd⟩ := Option.isSome_iff_exists.mp hsome
      obtain ⟨s', hs', hrep⟩ := h.exists_write hd name val
      rw [Storage.step, hs', Option.bind_some]
      refine ih hrep ?_
      rwa [hrep.defs_eq, m.write_defs, ← h.defs_eq]
    | update defs =>
      obtain ⟨horder, hops⟩ := hops
      obtain ⟨s', hs', hrep⟩ := h.exists_update horder
      rw [Storage.step, hs', Option.bind_some]
      refine ih hrep ?_
      rwa [hrep.defs_eq]
    | recycled => exact ih (s.represents_recycled m) hops

/-- From its creation on, whatever is assigned to the waif and however the property list of
its class changes, the storage of a waif holds the values of the map and is as long as
`count_waif_propvals` says, and every offset lies in it. -/
theorem Storage.run_refines (cls owner : Int) (new : Nat) (defs : List Propdef)
    (ops : List StorageOp) (hops : Allowed (some defs) ops) :
    ∃ s, (freshStorage cls owner new defs).run ops = some s ∧
      s.defs = ((freshMap defs).run ops).defs ∧
      ∀ now ∈ s.defs,
        (s.waif.propvals.getD []).length = countWaifPropvals now.length s.waif.pmap ∧
        (∀ i < now.length,
          s.readAt i = some ((((freshMap defs).run ops).value i).getD .clear) ∧
          ∀ idx ∈ propvalOffset s.waif.pmap i, idx < countWaifPropvals now.length s.waif.pmap) ∧
        ∀ name, s.read name
          = some ((((freshMap defs).run ops).read name).map fun v => v.getD .clear) := by
  obtain ⟨s, hs, hrep⟩ := (represents_freshStorage cls owner new defs).exists_run hops
  refine ⟨s, hs, hrep.defs_eq, ?_⟩
  intro now hnow
  refine ⟨hrep.count now hnow, ?_, hrep.read_eq hnow⟩
  intro i hi
  refine ⟨hrep.readAt_eq hnow hi, ?_⟩
  intro idx hidx
  rw [propvalOffset_eq_slotCount] at hidx
  split_ifs at hidx with hslot
  · obtain rfl := Option.some.inj hidx
    rw [← hrep.count now hnow]
    exact hrep.slotCount_lt hnow hi hslot
  · cases hidx

/-- A value goes with its name to another place of the list. -/
theorem Storage.run_refines_moved :
    ∃ s, (freshStorage 3 1 0 [⟨0, ":a"⟩, ⟨1, ":b"⟩]).run
        [.write ":a" (.int 5), .update [⟨2, ":c"⟩, ⟨0, ":a"⟩]] = some s ∧
      s.readAt 1 = some (.int 5) := by
  obtain ⟨s, hs, hdefs, h⟩ := Storage.run_refines 3 1 0 [⟨0, ":a"⟩, ⟨1, ":b"⟩]
    [.write ":a" (.int 5), .update [⟨2, ":c"⟩, ⟨0, ":a"⟩]]
    ⟨rfl, by rintro _ ⟨rfl⟩; decide, trivial⟩
  obtain ⟨-, hread, -⟩ := h _ hdefs
  exact ⟨s, hs, (hread 1 (by decide)).1⟩

/-! ## The storage in the database -/

namespace Db

/-- The waif at `r` with the property list it points to. -/
def storage (db : Db P) (r : Nat) : Option Storage :=
  (db.waifs[r]?).map fun w =>
    { waif := w
      defs := w.propdefs.bind fun pd => db.waifPropdefs[pd]? }

lemma storage_eq_some {db : Db P} {r : Nat} {w : Waif} (h : db.waifs[r]? = some w) :
    db.storage r = some { waif := w, defs := w.propdefs.bind fun pd => db.waifPropdefs[pd]? } := by
  rw [storage, h, Option.map_some]

/-- An access leaves the storage, drops it or brings it in step with a property list. -/
lemma storage_updateWaifPropdefs {db db' : Db P} {r : Nat}
    (h : db.updateWaifPropdefs r = some db') :
    ∃ s, db.storage r = some s ∧
      (db' = db ∨ db'.storage r = some s.recycled ∨ ∃ new defs s', s.update defs = some s' ∧
        db'.storage r = some { s' with waif := { s'.waif with propdefs := some new } }) := by
  unfold updateWaifPropdefs at h
  obtain ⟨w, hw, h⟩ := Option.bind_eq_some_iff.mp h
  have hr : r < db.waifs.length := (List.getElem?_eq_some_iff.mp hw).1
  refine ⟨_, storage_eq_some hw, ?_⟩
  cases ho : findObject db.objects w.cls with
  | none =>
    rw [ho] at h
    obtain rfl := Option.some.inj h
    refine Or.inr (Or.inl ?_)
    rw [storage_eq_some (List.getElem?_set_self hr)]
    rfl
  | some o =>
    rw [ho] at h
    dsimp only at h
    split_ifs at h with hsync
    · exact Or.inl (Option.some.inj h).symm
    · have hwaifs : (db.classPropdefs w.cls o).2.waifs = db.waifs := by
        unfold classPropdefs
        split <;> rfl
      generalize db.classPropdefs w.cls o = p at h hwaifs
      obtain ⟨new, db₁⟩ := p
      obtain ⟨defs, hdefs, h⟩ := Option.bind_eq_some_iff.mp h
      obtain ⟨⟨map, vals⟩, hrec, h⟩ := Option.bind_eq_some_iff.mp h
      obtain rfl := Option.some.inj h
      refine Or.inr (Or.inr ⟨new, defs, _,
        by rw [Storage.update, Waif.reconcileLoop_eq, hrec, Option.map_some], ?_⟩)
      dsimp only at hwaifs hdefs ⊢
      rw [storage_eq_some (List.getElem?_set_self (by rwa [hwaifs]))]
      simp [hdefs]

lemma storage_storePropval {db db' : Db P} {r idx : Nat} {w : Waif} {val : Var}
    (hr : r < db.waifs.length) (h : db.storePropval r w idx val = some db') :
    ∃ s', ({ waif := w, defs := w.propdefs.bind fun pd => db.waifPropdefs[pd]? } :
      Storage).store idx val = some s' ∧ db'.storage r = some s' := by
  unfold storePropval at h
  obtain ⟨vals, hvals, h⟩ := Option.bind_eq_some_iff.mp h
  split_ifs at h with hidx
  obtain rfl := Option.some.inj h
  refine ⟨_, by rw [Storage.store, hvals, Option.bind_some, if_pos hidx], ?_⟩
  rw [storage_eq_some (List.getElem?_set_self hr)]

/-- An assignment that succeeds writes to the storage that the access has left. -/
lemma storage_waifPutProp {db db' : Db P} {r : Nat} {name : String} {val : Var} {progr : Int}
    (h : db.waifPutProp r name val progr = some (none, db')) :
    ∃ db₁ s s', db.updateWaifPropdefs r = some db₁ ∧ db₁.storage r = some s ∧
      s.write (String.singleton waifPropPrefix ++ name) val = some s' ∧
      db'.storage r = some s' := by
  unfold waifPutProp at h
  obtain ⟨db₁, hupdate, h⟩ := Option.bind_eq_some_iff.mp h
  obtain ⟨w, hw, h⟩ := Option.bind_eq_some_iff.mp h
  have hr : r < db₁.waifs.length := (List.getElem?_eq_some_iff.mp hw).1
  split_ifs at h
  · cases h
  · cases h
  · cases h
  · obtain ⟨pd, hpd, h⟩ := Option.bind_eq_some_iff.mp h
    obtain ⟨defs, hdefs, h⟩ := Option.bind_eq_some_iff.mp h
    have hlist : (w.propdefs.bind fun pd => db₁.waifPropdefs[pd]?) = some defs := by
      rw [hpd, Option.bind_some, hdefs]
    rw [findPropvalOffset_eq, ← findPropdef] at h
    cases hf : findPropdef defs (String.singleton waifPropPrefix ++ name) with
    | none =>
      rw [hf] at h
      cases h
    | some i =>
      rw [hf, Option.map_some] at h
      obtain ⟨prop, -, h⟩ := Option.bind_eq_some_iff.mp h
      split_ifs at h
      · cases h
      · obtain ⟨refers, -, h⟩ := Option.bind_eq_some_iff.mp h
        split_ifs at h
        · cases h
        · cases hoff : propvalOffset w.pmap i with
          | some idx =>
            rw [hoff] at h
            obtain ⟨db₂, hstore, heq⟩ := Option.map_eq_some_iff.mp h
            cases heq
            obtain ⟨s', hs', hback⟩ := storage_storePropval hr hstore
            refine ⟨db₁, _, s', hupdate, storage_eq_some hw, ?_, hback⟩
            rw [hlist] at hs' ⊢
            rw [Storage.write, Option.bind_some, hf]
            dsimp only
            rw [hoff]
            exact hs'
          | none =>
            rw [hoff] at h
            obtain ⟨⟨idx, w'⟩, halloc, h⟩ := Option.bind_eq_some_iff.mp h
            obtain ⟨db₂, hstore, heq⟩ := Option.map_eq_some_iff.mp h
            cases heq
            obtain ⟨vals, hw', -⟩ := allocPropvalOffset_spec halloc
            have hpd' : w'.propdefs = w.propdefs := by rw [hw']
            obtain ⟨s', hs', hback⟩ := storage_storePropval hr hstore
            refine ⟨db₁, _, s', hupdate, storage_eq_some hw, ?_, hback⟩
            rw [hpd', hlist] at hs'
            rw [hlist, Storage.write, Option.bind_some, hf]
            dsimp only
            rw [hoff]
            dsimp only
            rw [halloc, Option.bind_some]
            exact hs'

end Db

end LambdaMOO
