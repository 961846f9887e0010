import LambdaMOO.Db.Hierarchy
import LambdaMOO.Db.WaifAccess
import Mathlib.Data.List.DropRight

/-!
# Objects and their hierarchies

`db_objects.c`. The children of an object and its contents are lists that lead through the
objects themselves. Nothing is the result where the code would use a null pointer, panic, or
follow a chain that does not end.
-/

namespace LambdaMOO

/-- One of the hierarchies with its links to be set. `rest` is an object without them. -/
structure Hierarchy (P : Type) extends Db.Links P where
  setUp : Int → Object P → Object P
  setDown : Int → Object P → Object P
  setAcross : Int → Object P → Object P
  rest : Object P → Object P
  up_setUp : ∀ x o, up (setUp x o) = x
  up_setDown : ∀ x o, up (setDown x o) = up o
  up_setAcross : ∀ x o, up (setAcross x o) = up o
  down_setUp : ∀ x o, down (setUp x o) = down o
  down_setDown : ∀ x o, down (setDown x o) = x
  down_setAcross : ∀ x o, down (setAcross x o) = down o
  across_setUp : ∀ x o, across (setUp x o) = across o
  across_setDown : ∀ x o, across (setDown x o) = across o
  across_setAcross : ∀ x o, across (setAcross x o) = x
  rest_setUp : ∀ x o, rest (setUp x o) = rest o
  rest_setDown : ∀ x o, rest (setDown x o) = rest o
  rest_setAcross : ∀ x o, rest (setAcross x o) = rest o

namespace Db

variable {P : Type}

/-- Parents and children. -/
def inheritance : Hierarchy P where
  toLinks := parentLinks
  setUp x o := { o with parent := x }
  setDown x o := { o with child := x }
  setAcross x o := { o with sibling := x }
  rest o := { o with parent := nothing, child := nothing, sibling := nothing }
  up_setUp _ _ := rfl
  up_setDown _ _ := rfl
  up_setAcross _ _ := rfl
  down_setUp _ _ := rfl
  down_setDown _ _ := rfl
  down_setAcross _ _ := rfl
  across_setUp _ _ := rfl
  across_setDown _ _ := rfl
  across_setAcross _ _ := rfl
  rest_setUp _ _ := rfl
  rest_setDown _ _ := rfl
  rest_setAcross _ _ := rfl

/-- Locations and contents. -/
def containment : Hierarchy P where
  toLinks := locationLinks
  setUp x o := { o with location := x }
  setDown x o := { o with contents := x }
  setAcross x o := { o with next := x }
  rest o := { o with location := nothing, contents := nothing, next := nothing }
  up_setUp _ _ := rfl
  up_setDown _ _ := rfl
  up_setAcross _ _ := rfl
  down_setUp _ _ := rfl
  down_setDown _ _ := rfl
  down_setAcross _ _ := rfl
  across_setUp _ _ := rfl
  across_setDown _ _ := rfl
  across_setAcross _ _ := rfl
  rest_setUp _ _ := rfl
  rest_setDown _ _ := rfl
  rest_setAcross _ _ := rfl

/-- The objects with another one at a valid number. -/
def put (objects : Objects P) (oid : Int) (o : Object P) : Objects P :=
  objects.set oid.toNat (some o)

/-! ## Lists -/

section

variable (h : Hierarchy P)

/-- The loop of `LL_REMOVE` from `lid` on. -/
def unlink (objects : Objects P) (what next : Int) : Nat → Int → Option (Objects P)
  | 0, _ => none
  | n + 1, lid =>
    if lid = nothing then some objects
    else do
      let o ← findObject objects lid
      if h.across o = what then some (put objects lid (h.setAcross next o))
      else unlink objects what next n (h.across o)

/-- The assignment of `LL_REMOVE` that takes the object `o` from the list of `w`. -/
def unlinkFirst (objects : Objects P) (list what : Int) (w o : Object P) :
    Option (Objects P) :=
  if h.down w = what then some (put objects list (h.setDown (h.across o) w))
  else unlink h objects what (h.across o) (objects.length + 1) (h.down w)

/-- `LL_REMOVE`. -/
def llRemove (objects : Objects P) (list what : Int) : Option (Objects P) := do
  let w ← findObject objects list
  let o ← findObject objects what
  let objects ← unlinkFirst h objects list what w o
  let o ← findObject objects what
  return put objects what (h.setAcross nothing o)

/-- The last object of the list from `lid` on. -/
def lastOnList (objects : Objects P) : Nat → Int → Option Int
  | 0, _ => none
  | n + 1, lid => do
    let o ← findObject objects lid
    if h.across o = nothing then some lid else lastOnList objects n (h.across o)

/-- The assignment of `LL_APPEND` that puts an object on the list of `w`. -/
def linkLast (objects : Objects P) (list what : Int) (w : Object P) : Option (Objects P) :=
  if h.down w = nothing then some (put objects list (h.setDown what w))
  else do
    let lid ← lastOnList h objects (objects.length + 1) (h.down w)
    let o ← findObject objects lid
    return put objects lid (h.setAcross what o)

/-- `LL_APPEND`. -/
def llAppend (objects : Objects P) (list what : Int) : Option (Objects P) := do
  let w ← findObject objects list
  let objects ← linkLast h objects list what w
  let o ← findObject objects what
  return put objects what (h.setAcross nothing o)

/-- Takes an object from its old list, if it was on one, puts it on a new one, if there is one,
and sets the link up. -/
def relink (objects : Objects P) (oid target : Int) (wasOn isOn : Bool) :
    Option (Objects P) := do
  let o ← findObject objects oid
  let objects ← (if wasOn then llRemove h objects (h.up o) oid else some objects)
  let objects ← (if isOn then llAppend h objects target oid else some objects)
  let o ← findObject objects oid
  return put objects oid (h.setUp target o)

end

/-- `db_change_location`. -/
def dbChangeLocation (objects : Objects P) (oid location : Int) : Option (Objects P) := do
  let o ← findObject objects oid
  relink containment objects oid location (isValid objects o.location) (isValid objects location)

/-! ## Creation and destruction -/

/-- What `db_create_object` makes. The owner is left to the caller. -/
def freshObject (owner : Int) : Object P :=
  { name := "", flags := 0, owner := owner, location := nothing, contents := nothing,
    next := nothing, parent := nothing, child := nothing, sibling := nothing, verbdefs := [],
    propdefs := [], propval := [], waifPropdefs := none }

/-- `db_create_object`: the new objects, and the number of the new one. -/
def dbCreateObject (objects : Objects P) (owner : Int) : Objects P × Int :=
  (objects ++ [some (freshObject owner)], objects.length)

/-- `FLAG_USER`. -/
def flagUser : Nat := 0

/-- `is_user`. -/
def isUser (o : Object P) : Bool := o.flags.getLsbD flagUser

/-- `db_destroy_object`, which panics unless the object is a barren orphan. -/
def dbDestroyObject (db : Db P) (oid : Int) : Option (Db P) := do
  let o ← findObject db.objects oid
  if o.location ≠ nothing ∨ o.contents ≠ nothing ∨ o.parent ≠ nothing ∨ o.child ≠ nothing then
    none
  else if o.propval.length < o.propdefs.length then none
  else
    some { db with
      objects := db.objects.set oid.toNat none
      allUsers := if isUser o then db.allUsers.erase oid else db.allUsers }

/-- `db_reset_last_used_objid`. Without objects it runs off the table. -/
def dbResetLastUsedObjid (objects : Objects P) : Option (Objects P) :=
  if objects.all Option.isNone then none else some (objects.rdropWhile Option.isNone)

/-! ## Renumbering -/

section

variable (h : Hierarchy P)

/-- The loop of `db_renumber_object` along the list that has the object: the first link to
`old` from `lid` on becomes one to `new`. -/
def replaceLink (objects : Objects P) (old new : Int) : Nat → Int → Option (Objects P)
  | 0, _ => none
  | n + 1, lid =>
    if lid = nothing then none
    else do
      let o ← findObject objects lid
      if h.across o = old then some (put objects lid (h.setAcross new o))
      else replaceLink objects old new n (h.across o)

/-- The loop over the objects below: their links up become links to `new`. -/
def replaceUps (new : Int) : Nat → Int → Objects P → Option (Objects P)
  | 0, _, _ => none
  | n + 1, oid, objects =>
    if oid = nothing then some objects
    else do
      let o ← findObject objects oid
      replaceUps new n (h.across o) (put objects oid (h.setUp new o))

/-- The link to the object on the list it is on. -/
def renumberOnList (objects : Objects P) (old new up : Int) : Option (Objects P) :=
  if up = nothing then some objects
  else do
    let p ← findObject objects up
    if h.down p = old then return put objects up (h.setDown new p)
    else replaceLink h objects old new (objects.length + 1) (h.down p)

/-- "Fix up the hierarchy". The object has its new number already. -/
def renumberLinks (objects : Objects P) (old new : Int) : Option (Objects P) := do
  let o ← findObject objects new
  let objects ← renumberOnList h objects old new (h.up o)
  let o ← findObject objects new
  replaceUps h new (objects.length + 1) (h.down o) objects

end

/-- An owner after the object `old` has become `new`. -/
def newOwner (old new owner : Int) : Int :=
  if owner = new then nothing else if owner = old then new else owner

/-- "Fix the owners of verbs, properties and objects", on the object `oid`. -/
def renumberOwners (objects : Objects P) (old new oid : Int) (o : Object P) :
    Option (Object P) :=
  let count := countProperties objects oid
  if o.propval.length < count then none
  else
    some { o with
      owner := newOwner old new o.owner
      verbdefs := o.verbdefs.map fun v => { v with owner := newOwner old new v.owner }
      propval := (o.propval.take count).map (fun p => { p with owner := newOwner old new p.owner })
        ++ o.propval.drop count }

/-- The loop over all objects. -/
def renumberAllOwners (old new : Int) : List Nat → Objects P → Option (Objects P)
  | [], objects => some objects
  | oid :: oids, objects =>
    match findObject objects oid with
    | none => renumberAllOwners old new oids objects
    | some o => do
      let o ← renumberOwners objects old new oid o
      renumberAllOwners old new oids (put objects oid o)

/-- `db_renumber_object` of a valid object: its number afterwards. -/
def dbRenumberObject (db : Db P) (old : Int) : Option (Int × Db P) := do
  let o ← findObject db.objects old
  match (List.range old.toNat).find? fun i : Nat => !isValid db.objects i with
  | none => return (old, db)
  | some (new : Nat) =>
    let objects := (db.objects.set new (some o)).set old.toNat none
    let objects ← renumberLinks inheritance objects old new
    let objects ← renumberLinks containment objects old new
    let allUsers := if isUser o then db.allUsers.replace old new else db.allUsers
    let objects ← renumberAllOwners old new (List.range objects.length) objects
    return (new, { db with objects := objects, allUsers := allUsers })

end Db

end LambdaMOO
