import LambdaMOO.Db.Dump
import LambdaMOO.VM.Value

/-!
# Creating, writing and freeing waifs

The routines of `waif.c` around the storage of a waif: `new_waif`, `waif_put_prop` with its
check `refers_to`, and `free_waif` and `waif_bytes`, which walk through the waifs that a
waif holds. Each of these walks is cut off at a depth. None stands for a panic, a null
pointer, a read behind the end of an array, or a walk that is too deep.
-/

namespace LambdaMOO

variable {P S : Type}

/-- `PF_READ`, `PF_WRITE` and `PF_CHOWN`. -/
inductive PropFlag where
  | pfRead
  | pfWrite
  | pfChown
  deriving DecidableEq, Repr

def PropFlag.bit : PropFlag → Nat
  | .pfRead => 0
  | .pfWrite => 1
  | .pfChown => 2

/-- `flags & flag`. -/
def Pval.has (p : Pval) (flag : PropFlag) : Bool := p.perms.getLsbD flag.bit

/-- `FLAG_WIZARD`. -/
def flagWizard : Nat := 2

namespace Db

/-- `is_wizard`. -/
def isWizard (objects : List (Option (Object P))) (oid : Int) : Bool :=
  (findObject objects oid).any fun o => o.flags.getLsbD flagWizard

/-- `db_find_property` for a name that is not built in: the property in the array of the
object, none if it is not found. -/
def findProperty (objects : List (Option (Object P))) (oid : Int) (name : String) :
    Option Pval := do
  let o ← findObject objects oid
  let defs := (ancestors objects objects.length oid).flatMap Object.propdefs
  let n ← defs.findIdx? fun pd => strEqual pd.name name
  o.propval[n]?

/-- `count_waif_propvals`. -/
def countPropvals (db : Db P) (w : Waif) : Option Nat :=
  match w.propdefs with
  | none => some 0
  | some pd => (db.waifPropdefs[pd]?).map fun defs => countWaifPropvals defs.length w.pmap

/-- The values `propvals[0]` to `propvals[cnt - 1]` of the waif at `r`, where `cnt` is
`count_waif_propvals`. -/
def propvals (db : Db P) (r : Nat) : Option (List Var) := do
  let w ← db.waifs[r]?
  let cnt ← db.countPropvals w
  let vals := w.propvals.getD []
  if cnt ≤ vals.length then some (vals.take cnt)
  else none

end Db

/-- The waif that `new_waif` makes, with the property list at `new` of the given length. -/
def freshWaif (cls owner : Int) (new length : Nat) : Waif :=
  { cls := cls
    owner := owner
    propdefs := some new
    propvals := allocWaifPropvals length 0
    pmap := 0 }

namespace Db

/-- `new_waif`: where the new waif is. -/
def newWaif (db : Db P) (cls owner : Int) : Option (Nat × Db P) := do
  let o ← findObject db.objects cls
  let (new, db) := db.classPropdefs cls o
  let defs ← db.waifPropdefs[new]?
  some (db.waifs.length, { db with waifs := db.waifs ++ [freshWaif cls owner new defs.length] })

end Db

/-- `find_propval_offset`: where the property is in the property list, and where its value
is if it has a slot. -/
def findPropvalOffset (defs : List Propdef) (map : BitVec nMappableProps) (name : String) :
    Option (Nat × Option Nat) :=
  (defs.findIdx? fun pd => strEqual pd.name name).map fun i =>
    (i,
      if nMappableProps ≤ i then some (i - nMappableProps + countSetBits map)
      else if propMapped map i then some ((List.range i).countP (propMapped map))
      else none)

/-- The loops of `alloc_propval_offset` over the properties from `i` on, `n` of them: the
values of an array in the order of a map that has the property `idx` in addition. -/
def spread (map : BitVec nMappableProps) (idx : Nat) : Nat → Nat → List Var → Option (List Var)
  | _, 0, _ => some []
  | i, n + 1, old =>
    if hasSlot map i then
      if i = idx then (spread map idx (i + 1) n old).map (.clear :: ·)
      else
        match old with
        | [] => none
        | v :: old => (spread map idx (i + 1) n old).map (v :: ·)
    else spread map idx (i + 1) n old

/-- `alloc_propval_offset` for a property list of the given length. -/
def allocPropvalOffset (length : Nat) (w : Waif) (idx : Nat) : Option (Nat × Waif) :=
  if propMapped w.pmap idx then none
  else
    let map := mapProp w.pmap idx
    (spread map idx 0 (max length nMappableProps) (w.propvals.getD [])).map fun vals =>
      ((List.range idx).countP (propMapped map), { w with pmap := map, propvals := some vals })

/-! ## Walks -/

mutual
/-- `refers_to` on a value, given what it says about a waif. -/
def Var.refersTo (waifRefersTo : Nat → Option Bool) : Var → Option Bool
  | .list vs => Var.anyRefersTo waifRefersTo vs
  | .waif w => waifRefersTo w
  | _ => some false

def Var.anyRefersTo (waifRefersTo : Nat → Option Bool) : List Var → Option Bool
  | [] => some false
  | v :: vs => do
    let found ← v.refersTo waifRefersTo
    if found then some true else Var.anyRefersTo waifRefersTo vs
end

mutual
/-- `free_var`, given how a waif is freed. `delref` takes a reference off and tells whether
it was the last one. -/
def Var.free (delref : Var → S → Bool × S) (freeWaif : Nat → S → Option S) :
    Var → S → Option S
  | .str s, c => some (delref (.str s) c).2
  | .float d, c => some (delref (.float d) c).2
  | .list vs, c =>
    let (last, c) := delref (.list vs) c
    if last then Var.freeAll delref freeWaif vs c else some c
  | .waif w, c =>
    let (last, c) := delref (.waif w) c
    if last then freeWaif w c else some c
  | _, c => some c

def Var.freeAll (delref : Var → S → Bool × S) (freeWaif : Nat → S → Option S) :
    List Var → S → Option S
  | [], c => some c
  | v :: vs, c => do
    let c ← v.free delref freeWaif c
    Var.freeAll delref freeWaif vs c
end

/-- What `BQM_SIZEOF` says. A float that is not boxed takes nothing of its own. -/
structure BqmSizes where
  var : Nat
  float : Nat
  waif : Nat

mutual
/-- `value_bytes`, given the bytes of a waif, whose computation may change the database. -/
def Var.bytes (sz : BqmSizes) (waifBytes : Nat → Db P → Option (Nat × Db P)) :
    Var → Db P → Option (Nat × Db P)
  | .str s, db => some (sz.var + s.utf8ByteSize + 1, db)
  | .float _, db => some (sz.var + sz.float, db)
  | .list vs, db => do
    let (size, db) ← Var.bytesAll sz waifBytes vs db
    some (sz.var + sz.var + size, db)
  | .waif w, db => do
    let (size, db) ← waifBytes w db
    some (sz.var + size, db)
  | _, db => some (sz.var, db)

def Var.bytesAll (sz : BqmSizes) (waifBytes : Nat → Db P → Option (Nat × Db P)) :
    List Var → Db P → Option (Nat × Db P)
  | [], db => some (0, db)
  | v :: vs, db => do
    let (size, db) ← v.bytes sz waifBytes db
    let (rest, db) ← Var.bytesAll sz waifBytes vs db
    some (size + rest, db)
end

namespace Db

/-- `refers_to` on the waif at `w`. -/
def waifRefersTo (db : Db P) (key : Nat) : Nat → Nat → Option Bool
  | 0, _ => none
  | depth + 1, w =>
    if w = key then some true
    else (db.propvals w).bind (Var.anyRefersTo (db.waifRefersTo key depth))

/-- `refers_to(target, key)`, where `key` is the waif at `key`. -/
def refersTo (db : Db P) (target : Var) (key : Nat) : Option Bool :=
  target.refersTo (db.waifRefersTo key db.waifs.length)

/-- `free_waif` on the waif at `r`. What it frees stays in the model. -/
def freeWaif (db : Db P) (delref : Var → S → Bool × S) : Nat → Nat → S → Option S
  | 0, _, _ => none
  | depth + 1, r, c =>
    (db.propvals r).bind fun vals => Var.freeAll delref (db.freeWaif delref depth) vals c

/-- The loop of `waif_bytes` over the values of the waif at `r`, from the end. -/
def propvalBytes (valueBytes : Var → Db P → Option (Nat × Db P)) (r : Nat) :
    Nat → Db P → Option (Nat × Db P)
  | 0, db => some (0, db)
  | cnt + 1, db => do
    let w ← db.waifs[r]?
    let v ← (w.propvals.getD [])[cnt]?
    let (size, db) ← valueBytes v db
    let (rest, db) ← propvalBytes valueBytes r cnt db
    some (size + rest, db)

/-- `waif_bytes`. -/
def waifBytes (sz : BqmSizes) : Nat → Nat → Db P → Option (Nat × Db P)
  | 0, _, _ => none
  | depth + 1, r, db => do
    let db ← db.updateWaifPropdefs r
    let w ← db.waifs[r]?
    let cnt ← db.countPropvals w
    let (size, db) ← propvalBytes (Var.bytes sz (waifBytes sz depth)) r cnt db
    some (sz.waif + size, db)

/-! ## Assignment -/

/-- `waif_property_allows`. -/
def waifPropertyAllows (db : Db P) (w : Waif) (h : Pval) (progr : Int) (flag : PropFlag) : Bool :=
  h.has flag || (if h.has .pfChown then w.owner else h.owner) = progr ||
    isWizard db.objects progr

/-- Stores a value at an offset that has been found or allocated. -/
def storePropval (db : Db P) (r : Nat) (w : Waif) (idx : Nat) (val : Var) : Option (Db P) := do
  let vals ← w.propvals
  if idx < vals.length then
    some { db with waifs := db.waifs.set r { w with propvals := some (vals.set idx val) } }
  else none

/-- `waif_put_prop` on the waif at `r`: the error, none for `E_NONE`. -/
def waifPutProp (db : Db P) (r : Nat) (name : String) (val : Var) (progr : Int) :
    Option (Option ErrorCode × Db P) := do
  let db ← db.updateWaifPropdefs r
  let w ← db.waifs[r]?
  if strEqual name "owner" || strEqual name "class" then some (some .ePerm, db)
  else if strEqual name "wizard" then some (some .ePerm, db)
  else if !isValid db.objects w.cls then some (some .eInvind, db)
  else
    let name := String.singleton waifPropPrefix ++ name
    let pd ← w.propdefs
    let defs ← db.waifPropdefs[pd]?
    match findPropvalOffset defs w.pmap name with
    | none => some (some .ePropnf, db)
    | some (pdefIdx, dest) =>
      let h ← findProperty db.objects w.cls name
      if !db.waifPropertyAllows w h progr .pfWrite then some (some .ePerm, db)
      else
        let refers ← db.refersTo val r
        if refers then some (some .eRecmove, db)
        else
          match dest with
          | some idx => (db.storePropval r w idx val).map fun db => (none, db)
          | none => do
            let (idx, w) ← allocPropvalOffset defs.length w pdefIdx
            (db.storePropval r w idx val).map fun db => (none, db)

end Db

end LambdaMOO
