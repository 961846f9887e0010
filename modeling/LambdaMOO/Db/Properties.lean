import LambdaMOO.Db.Objects

/-!
# Properties

`db_properties.c`, and `db_change_parent`. The values of an object's properties are in one
array: first those of the properties defined on it, then those of its parent's, and so on. A
read or a write behind the end of an array has no result.
-/

namespace LambdaMOO

namespace Db

variable {P : Type}

/-- The definitions on the object and on its ancestors. -/
def lineProps (objects : Objects P) (oid : Int) : List Propdef :=
  (ancestors objects objects.length oid).flatMap Object.propdefs

/-- The names `BUILTIN_PROPERTIES`. -/
def builtinProperties : List String :=
  ["name", "owner", "programmer", "wizard", "r", "w", "f", "location", "contents"]

def isBuiltin (pname : String) : Bool := builtinProperties.any fun p => strEqual pname p

/-- Whether the object defines the property. Names that are equal but for case have the same
hash. -/
def defines (o : Object P) (pname : String) : Bool :=
  o.propdefs.any fun p => strEqual p.name pname

/-- The loop of `property_defined_at_or_below` over the objects from `c` on. -/
def definedOnList (objects : Objects P) (pname : String) : Nat → Int → Option Bool
  | 0, _ => none
  | n + 1, c =>
    if c = nothing then some false
    else do
      let o ← findObject objects c
      if defines o pname then return true
      else if ← definedOnList objects pname n o.child then return true
      else definedOnList objects pname n o.sibling

/-- `property_defined_at_or_below`. -/
def definedAtOrBelow (objects : Objects P) (pname : String) (oid : Int) : Option Bool := do
  let o ← findObject objects oid
  if defines o pname then return true
  else definedOnList objects pname (objects.length + 1) o.child

/-- `db_find_property` without a value: whether there is such a property. -/
def hasProperty (objects : Objects P) (oid : Int) (pname : String) : Bool :=
  isBuiltin pname || (lineProps objects oid).any fun p => strEqual p.name pname

/-! ## Finding a property -/

/-- `db_prop_handle`: a built-in property, or the number of a slot of the object that was looked
at and the definer. -/
inductive PropHandle where
  | builtIn (name : String)
  | slot (definer : Int) (n : Nat)
  deriving DecidableEq, Repr

/-- The loop of `db_find_property` over the objects from `c` up, behind `n` slots. -/
def findOnLine (objects : Objects P) (pname : String) : Nat → Int → Nat → Option (Int × Nat)
  | 0, _, _ => none
  | m + 1, c, n => do
    let o ← findObject objects c
    match o.propdefs.findIdx? fun p => strEqual p.name pname with
    | some i => return (c, n + i)
    | none => findOnLine objects pname m o.parent (n + o.propdefs.length)

/-- `db_find_property` without a value. -/
def dbFindProperty (objects : Objects P) (oid : Int) (pname : String) : Option PropHandle :=
  match builtinProperties.find? fun p => strEqual pname p with
  | some p => some (.builtIn p)
  | none => do
    let (definer, n) ← findOnLine objects pname objects.length oid 0
    return .slot definer n

/-- The difference of two counts, of which the second is part of the first. -/
def countLess (m n : Nat) : Option Nat := if n ≤ m then some (m - n) else none

/-- The loop of `db_find_property` for the value of a slot that may be clear. -/
def valueOnLine (objects : Objects P) : Nat → Int → Nat → Option Var
  | 0, _, _ => none
  | m + 1, c, n => do
    let o ← findObject objects c
    let prop ← o.propval[n]?
    if prop.var.isClear then
      let n ← countLess n o.propdefs.length
      valueOnLine objects m o.parent n
    else return prop.var

/-- A change to a slot of an object. -/
def setSlot (objects : Objects P) (oid : Int) (n : Nat) (f : Pval → Pval) :
    Option (Objects P) := do
  let o ← findObject objects oid
  let prop ← o.propval[n]?
  return put objects oid { o with propval := o.propval.set n (f prop) }

/-- `db_set_property_value` of a property that is not built in. -/
def dbSetPropertyValue (objects : Objects P) (oid : Int) (n : Nat) (value : Var) :
    Option (Objects P) :=
  setSlot objects oid n fun prop => { prop with var := value }

/-- `db_set_property_owner`. -/
def dbSetPropertyOwner (objects : Objects P) (oid : Int) (n : Nat) (owner : Int) :
    Option (Objects P) :=
  setSlot objects oid n fun prop => { prop with owner := owner }

/-- `db_set_property_flags`. -/
def dbSetPropertyFlags (objects : Objects P) (oid : Int) (n : Nat) (flags : BitVec 16) :
    Option (Objects P) :=
  setSlot objects oid n fun prop => { prop with perms := flags }

/-! ## Walks down the tree -/

/-- The loop of `insert_prop_recursively`, `remove_prop_recursively` and `fix_props` over the
objects from `c` on. `pos` is a position in the array of their parent, which is behind the
values of their own properties in theirs. -/
def forChildren (act : Objects P → Int → Nat → Option (Objects P)) :
    Nat → Int → Nat → Objects P → Option (Objects P)
  | 0, _, _, _ => none
  | n + 1, c, pos, objects =>
    if c = nothing then some objects
    else do
      let objects ← act objects c pos
      let o ← findObject objects c
      let objects ← forChildren act n o.child (pos + o.propdefs.length) objects
      let o ← findObject objects c
      forChildren act n o.sibling pos objects

/-- `insert_prop`, after the definition has been added. -/
def insertProp (objects : Objects P) (oid : Int) (pos : Nat) (pval : Pval) :
    Option (Objects P) := do
  let nprops := countProperties objects oid
  let o ← findObject objects oid
  if nprops ≤ pos ∨ o.propval.length + 1 < nprops then none
  else
    let pval := { pval with owner := if pval.has .pfChown then o.owner else pval.owner }
    let propval := o.propval.take pos ++ pval :: (o.propval.drop pos).take (nprops - pos - 1)
    some (put objects oid { o with propval := propval, waifPropdefs := none })

/-- `insert_prop_recursively`. -/
def insertPropRecursively (objects : Objects P) (root : Int) (rootPos : Nat) (pv : Pval) :
    Option (Objects P) := do
  let objects ← insertProp objects root rootPos pv
  let o ← findObject objects root
  let insert objects c pos := do
    let o ← findObject objects c
    insertProp objects c (pos + o.propdefs.length) { pv with var := .clear }
  forChildren insert (objects.length + 1) o.child rootPos objects

/-- `db_add_propdef`: whether the property could be added. -/
def dbAddPropdef (objects : Objects P) (oid : Int) (pname : Propdef) (value : Var) (owner : Int)
    (flags : BitVec 16) : Option (Bool × Objects P) := do
  if hasProperty objects oid pname.name then return (false, objects)
  if ← definedAtOrBelow objects pname.name oid then return (false, objects)
  let o ← findObject objects oid
  let objects := put objects oid { o with propdefs := o.propdefs ++ [pname] }
  let pval := { var := value, owner := owner, perms := flags }
  let objects ← insertPropRecursively objects oid o.propdefs.length pval
  return (true, objects)

/-- `remove_prop`, after the definition has been taken away. -/
def removeProp (objects : Objects P) (oid : Int) (pos : Nat) : Option (Objects P) := do
  let nprops := countProperties objects oid
  let o ← findObject objects oid
  if nprops < pos ∨ o.propval.length ≤ pos ∨ o.propval.length < nprops + 1 then none
  else
    let propval := o.propval.take pos ++ (o.propval.drop (pos + 1)).take (nprops - pos)
    some (put objects oid { o with propval := propval, waifPropdefs := none })

/-- `remove_prop_recursively`. -/
def removePropRecursively (objects : Objects P) (root : Int) (rootPos : Nat) :
    Option (Objects P) := do
  let objects ← removeProp objects root rootPos
  let o ← findObject objects root
  let remove objects c pos := do
    let o ← findObject objects c
    removeProp objects c (pos + o.propdefs.length)
  forChildren remove (objects.length + 1) o.child rootPos objects

/-- `db_delete_propdef`: whether there was such a property. -/
def dbDeletePropdef (objects : Objects P) (oid : Int) (pname : String) :
    Option (Bool × Objects P) := do
  let o ← findObject objects oid
  match o.propdefs.findIdx? fun p => strEqual p.name pname with
  | none => return (false, objects)
  | some i =>
    let objects := put objects oid { o with propdefs := o.propdefs.eraseIdx i }
    let objects ← removePropRecursively objects oid i
    return (true, objects)

/-! ## Renaming -/

/-- `waif_rename_propdef` on the object `oid`, which has the property list `wpd`. Names are
compared by their addresses. -/
def waifRenamePropdef (db : Db P) (oid : Int) (o : Object P) (wpd : Nat) (old new : Propdef) :
    Option (Db P) :=
  if isWaifProp old && isWaifProp new then do
    let defs ← db.waifPropdefs[wpd]?
    let i ← defs.findIdx? fun p => p.addr = old.addr
    return { db with waifPropdefs := db.waifPropdefs.set wpd (defs.set i new) }
  else some { db with objects := put db.objects oid { o with waifPropdefs := none } }

/-- The part of `rename_prop_recursively` about one object. -/
def renameCached (db : Db P) (oid : Int) (old new : Propdef) : Option (Db P) := do
  let o ← findObject db.objects oid
  match o.waifPropdefs with
  | none => return db
  | some wpd => db.waifRenamePropdef oid o wpd old new

/-- The loop of `rename_prop_recursively` over the objects from `c` on. -/
def renameOnList (old new : Propdef) : Nat → Int → Db P → Option (Db P)
  | 0, _, _ => none
  | n + 1, c, db =>
    if c = nothing then some db
    else do
      let db ← db.renameCached c old new
      let o ← findObject db.objects c
      let db ← renameOnList old new n o.child db
      let o ← findObject db.objects c
      renameOnList old new n o.sibling db

/-- `rename_prop_recursively`. -/
def renamePropRecursively (db : Db P) (root : Int) (old new : Propdef) : Option (Db P) := do
  let db ← db.renameCached root old new
  let o ← findObject db.objects root
  renameOnList old new (db.objects.length + 1) o.child db

/-- `db_rename_propdef`: whether the property could be renamed. -/
def dbRenamePropdef (db : Db P) (oid : Int) (old : String) (new : Propdef) :
    Option (Bool × Db P) := do
  let o ← findObject db.objects oid
  match o.propdefs.findIdx? fun p => strEqual p.name old with
  | none => return (false, db)
  | some i =>
    if !strEqual old new.name then
      if hasProperty db.objects oid new.name then return (false, db)
      if ← definedAtOrBelow db.objects new.name oid then return (false, db)
    let p ← o.propdefs[i]?
    let db ← db.renamePropRecursively oid p new
    let o ← findObject db.objects oid
    let o := { o with propdefs := o.propdefs.set i new }
    return (true, { db with objects := put db.objects oid o })

/-! ## Changing the parent -/

/-- What a slot that is copied from the parent becomes. -/
def Pval.inherited (owner : Int) (pv : Pval) : Pval :=
  { pv with var := .clear, owner := if pv.has .pfChown then owner else pv.owner }

/-- The slots of the parent that `fix_props` copies. -/
def parentSlots (objects : Objects P) (parent : Int) (parentLocal new : Nat) :
    Option (List Pval) :=
  if new = 0 then some []
  else do
    let parent ← findObject objects parent
    if parent.propval.length < parentLocal + new then none
    else return (parent.propval.drop parentLocal).take new

/-- The part of `fix_props` about one object: `new` slots of the parent take the place of `old`
ones; the `common` ones behind them stay. -/
def fixSlots (old new common : Nat) (objects : Objects P) (oid : Int) (parentLocal : Nat) :
    Option (Objects P) := do
  let me ← findObject objects oid
  let loc := parentLocal + me.propdefs.length
  let copied ← parentSlots objects me.parent parentLocal new
  if me.propval.length < loc + old + common then none
  else
    let propval := me.propval.take loc ++ copied.map (Pval.inherited me.owner) ++
      (me.propval.drop (loc + old)).take common
    some (put objects oid { me with propval := propval, waifPropdefs := none })

/-- `fix_props`. -/
def fixProps (objects : Objects P) (oid : Int) (parentLocal old new common : Nat) :
    Option (Objects P) := do
  let objects ← fixSlots old new common objects oid parentLocal
  let me ← findObject objects oid
  forChildren (fixSlots old new common) (objects.length + 1) me.child
    (parentLocal + me.propdefs.length) objects

/-- The loop of `dbpriv_check_properties_for_chparent`: whether one of the properties is
defined below `oid`. -/
def anyDefined (objects : Objects P) (oid : Int) : List Propdef → Option Bool
  | [] => some false
  | p :: ps => do
    if ← definedAtOrBelow objects p.name oid then return true
    else anyDefined objects oid ps

/-- `dbpriv_check_properties_for_chparent`. -/
def checkPropertiesForChparent (objects : Objects P) (oid newParent : Int) : Option Bool := do
  let found ← anyDefined objects oid (lineProps objects newParent)
  return !found

/-- The objects from `oid` up to its last ancestor. -/
def line (objects : Objects P) : Nat → Int → Option (List Int)
  | 0, _ => none
  | n + 1, oid =>
    if oid = nothing then some []
    else do
      let o ← findObject objects oid
      let above ← line objects n o.parent
      return oid :: above

/-- The number of properties of the nearest common ancestor, which is the first of the new line
that is also on the old one. -/
def commonProperties (objects : Objects P) (newLine oldLine : List Int) : Nat :=
  match newLine.find? fun o1 => oldLine.contains o1 with
  | none => 0
  | some common => countProperties objects common

/-- `dbpriv_fix_properties_after_chparent`. -/
def fixPropertiesAfterChparent (objects : Objects P) (oid oldParent : Int) :
    Option (Objects P) := do
  let o ← findObject objects oid
  let newParent := o.parent
  let newLine ← line objects (objects.length + 1) newParent
  let oldLine ← line objects (objects.length + 1) oldParent
  let commonProps := commonProperties objects newLine oldLine
  let oldProps ← countLess (countProperties objects oldParent) commonProps
  let newProps ← countLess (countProperties objects newParent) commonProps
  fixProps objects oid 0 oldProps newProps commonProps

/-- `db_change_parent`: whether it was done. -/
def dbChangeParent (objects : Objects P) (oid parent : Int) : Option (Bool × Objects P) := do
  if !(← checkPropertiesForChparent objects oid parent) then return (false, objects)
  let o ← findObject objects oid
  let objects ← relink inheritance objects oid parent (o.parent ≠ nothing) (parent ≠ nothing)
  let objects ← fixPropertiesAfterChparent objects oid o.parent
  return (true, objects)

end Db

end LambdaMOO
