import LambdaMOO.Db.Properties

/-!
# The operations of programs

`quota.c` and the built-in functions of `objects.c`, `property.c` and `server.c` that change
objects. The verbs that some of them call run elsewhere: whether there is one to call is a
parameter. Nothing is the result where the server would crash or not come to an end.
-/

namespace LambdaMOO

namespace Db

variable {P : Type}

/-! ## Permissions -/

/-- `FLAG_WRITE`. -/
def flagWrite : Nat := 5

/-- `FLAG_FERTILE`. -/
def flagFertile : Nat := 7

/-- The owner of an object is the number. -/
def ownedBy (objects : Objects P) (oid progr : Int) : Bool :=
  (findObject objects oid).any fun o => progr = o.owner

/-- `controls`. -/
def controls (objects : Objects P) (who what : Int) : Bool :=
  isWizard objects who || ownedBy objects what who

/-- `db_object_allows`. -/
def objectAllows (objects : Objects P) (oid progr : Int) (flag : Nat) : Bool :=
  ownedBy objects oid progr || isWizard objects progr ||
    (findObject objects oid).any fun o => o.flags.getLsbD flag

/-- `db_property_allows`. -/
def propertyAllows (objects : Objects P) (prop : Pval) (progr : Int) (flag : PropFlag) : Bool :=
  prop.has flag || progr = prop.owner || isWizard objects progr

/-! ## Quotas -/

def quotaName : String := "ownership_quota"

/-- What `decr_quota` and `incr_quota` begin with: the slot that is found and the number it has as
its value, if it has one. The name is none of the built-in ones. -/
def findQuota (objects : Objects P) (player : Int) : Option (Option (Nat × Int)) :=
  if !isValid objects player then some none
  else
    match dbFindProperty objects player quotaName with
    | some (.slot _ n) => do
      match ← valueOnLine objects objects.length player n with
      | .int num => return some (n, num)
      | _ => return none
    | _ => some none

/-- `decr_quota`. -/
def decrQuota (objects : Objects P) (player : Int) : Option (Bool × Objects P) := do
  match ← findQuota objects player with
  | none => return (true, objects)
  | some (n, num) =>
    if num ≤ 0 then return (false, objects)
    else
      let objects ← dbSetPropertyValue objects player n (.int (num - 1))
      return (true, objects)

/-- `incr_quota`. -/
def incrQuota (objects : Objects P) (player : Int) : Option (Objects P) := do
  match ← findQuota objects player with
  | none => return objects
  | some (n, num) => dbSetPropertyValue objects player n (.int (num + 1))

/-! ## Objects -/

/-- The loops of `bf_chparent` and `do_move`: whether `what` is on the line from `oid` on. -/
def leadsThrough (objects : Objects P) (field : Object P → Int) (what : Int) :
    Nat → Int → Option Bool
  | 0, _ => none
  | n + 1, oid =>
    if oid = nothing then some false
    else if oid = what then some true
    else do
      let o ← findObject objects oid
      leadsThrough objects field what n (field o)

/-- The permissions `bf_create` checks. -/
def mayCreate (objects : Objects P) (progr parent owner : Int) : Bool :=
  (if isValid objects parent then objectAllows objects parent progr flagFertile
    else parent = nothing) && (owner = progr || isWizard objects progr)

/-- What `bf_create` makes: the new number and the objects. -/
def createChild (objects : Objects P) (parent owner : Int) : Option (Int × Objects P) := do
  let owner := if owner = nothing then (objects.length : Int) else owner
  let oid := (dbCreateObject objects owner).2
  let (_, objects) ← dbChangeParent (dbCreateObject objects owner).1 oid parent
  return (oid, objects)

/-- `bf_create` up to the call of `initialize`: an error or the new number, and the database. -/
def bfCreate (db : Db P) (progr parent owner : Int) : Option (Except ErrorCode Int × Db P) :=
  if !mayCreate db.objects progr parent owner then some (.error .ePerm, db)
  else do
    let (ok, objects) ← (
      if isValid db.objects owner then decrQuota db.objects owner else some (true, db.objects))
    if !ok then return (.error .eQuota, { db with objects := objects })
    else
      let (oid, objects) ← createChild objects parent owner
      return (.ok oid, { db with objects := objects })

/-- `bf_chparent`. -/
def bfChparent (db : Db P) (progr what parent : Int) : Option (Except ErrorCode (Db P)) :=
  if !isValid db.objects what || (!isValid db.objects parent && parent ≠ nothing) then
    some (.error .eInvarg)
  else if !controls db.objects progr what ||
      (isValid db.objects parent && !objectAllows db.objects parent progr flagFertile) then
    some (.error .ePerm)
  else do
    if ← leadsThrough db.objects Object.parent what (db.objects.length + 1) parent then
      return .error .eRecmove
    else
      let (done, objects) ← dbChangeParent db.objects what parent
      if done then return .ok { db with objects := objects } else return .error .eInvarg

/-- `do_move` after `accept` has answered and before `exitfunc` is called. -/
def doMove (db : Db P) (progr : Int) (accepts : Bool) (what whereTo : Int) :
    Option (Except ErrorCode (Db P)) :=
  if !isWizard db.objects progr && !accepts then some (.error .eNacc)
  else
    match findObject db.objects what with
    | none => some (.ok db)
    | some o =>
      if (whereTo ≠ nothing && !isValid db.objects whereTo) || o.location = whereTo then
        some (.ok db)
      else do
        if ← leadsThrough db.objects Object.location what (db.objects.length + 1) whereTo then
          return .error .eRecmove
        else
          let objects ← dbChangeLocation db.objects what whereTo
          return .ok { db with objects := objects }

/-! ## Recycling -/

/-- What `bf_recycle` comes to: an error, the end because the object is gone, a call of a verb, or
`db_destroy_object`. -/
inductive Recycling (P : Type) where
  | error (e : ErrorCode)
  | gone
  | calls (db : Db P)
  | destroys (db : Db P)

/-- `move_to_nothing`, which says whether it has called a verb. `callVerb` says whether there is a
verb of the object to call. -/
def moveToNothing (callVerb : Objects P → Int → String → Bool) (objects : Objects P) (oid : Int) :
    Option (Bool × Objects P) := do
  let o ← findObject objects oid
  let objects ← dbChangeLocation objects oid nothing
  return (callVerb objects o.location "exitfunc", objects)

/-- The loop of `bf_recycle` over the contents. -/
def moveContents (callVerb : Objects P → Int → String → Bool) (oid : Int) :
    Nat → Objects P → Option (Bool × Objects P)
  | 0, _ => none
  | n + 1, objects => do
    let o ← findObject objects oid
    if o.contents = nothing then return (false, objects)
    else
      let (called, objects) ← moveToNothing callVerb objects o.contents
      if called then return (true, objects) else moveContents callVerb oid n objects

/-- The loop of `bf_recycle` over the children. -/
def changeParents (oid : Int) : Nat → Objects P → Option (Objects P)
  | 0, _ => none
  | n + 1, objects => do
    let o ← findObject objects oid
    if o.child = nothing then some objects
    else
      let (_, objects) ← dbChangeParent objects o.child o.parent
      changeParents oid n objects

/-- `bf_recycle` from the loop over the children on, up to `db_destroy_object`. -/
def leaveHierarchy (db : Db P) (oid : Int) : Option (Recycling P) := do
  let objects ← changeParents oid (db.objects.length + 1) db.objects
  let (_, objects) ← dbChangeParent objects oid nothing
  let o ← findObject objects oid
  let objects ← incrQuota objects o.owner
  return .destroys { db with objects := objects }

/-- `bf_recycle` after the loop over the contents. -/
def leaveLocation (callVerb : Objects P → Int → String → Bool) (db : Db P) (oid : Int) :
    Option (Recycling P) := do
  let o ← findObject db.objects oid
  if o.location = nothing then leaveHierarchy db oid
  else
    let (called, objects) ← moveToNothing callVerb db.objects oid
    let db := { db with objects := objects }
    if called then return .calls db else leaveHierarchy db oid

/-- `bf_recycle` at `moving_contents`, where it goes on after each verb. -/
def movingContents (callVerb : Objects P → Int → String → Bool) (db : Db P) (oid : Int) :
    Option (Recycling P) :=
  if !isValid db.objects oid then some .gone
  else do
    let (called, objects) ← moveContents callVerb oid (db.objects.length + 1) db.objects
    let db := { db with objects := objects }
    if called then return .calls db else leaveLocation callVerb db oid

/-- `bf_recycle`. -/
def bfRecycle (callVerb : Objects P → Int → String → Bool) (db : Db P) (progr oid : Int) :
    Option (Recycling P) :=
  if !isValid db.objects oid then some (.error .eInvarg)
  else if !controls db.objects progr oid then some (.error .ePerm)
  else if callVerb db.objects oid "recycle" then some (.calls db)
  else movingContents callVerb db oid

/-! ## Numbers -/

/-- `bf_renumber`. -/
def bfRenumber (db : Db P) (progr oid : Int) : Option (Except ErrorCode (Int × Db P)) :=
  if !isValid db.objects oid then some (.error .eInvarg)
  else if !isWizard db.objects progr then some (.error .ePerm)
  else (db.dbRenumberObject oid).map .ok

/-- `bf_reset_max_object`. -/
def bfResetMaxObject (db : Db P) (progr : Int) : Option (Except ErrorCode (Db P)) :=
  if !isWizard db.objects progr then some (.error .ePerm)
  else (dbResetLastUsedObjid db.objects).map fun objects => .ok { db with objects := objects }

/-! ## Properties -/

/-- The flag a letter stands for. -/
def propFlag : Char → Option PropFlag
  | 'r' | 'R' => some .pfRead
  | 'w' | 'W' => some .pfWrite
  | 'c' | 'C' => some .pfChown
  | _ => none

/-- The loop of `validate_prop_info` over the letters. -/
def propFlags : List Char → BitVec 16 → Except ErrorCode (BitVec 16)
  | [], flags => .ok flags
  | s :: cs, flags =>
    match propFlag s with
    | some flag => propFlags cs (flags ||| (1 <<< flag.bit))
    | none => .error .eInvarg

/-- `validate_prop_info`: the owner, the flags and the new name. -/
def validatePropInfo (objects : Objects P) (v : Var) :
    Except ErrorCode (Int × BitVec 16 × Option String) := do
  let (owner, perms, name) ← (match v with
    | .list [.obj owner, .str perms] => .ok (owner, perms, none)
    | .list [.obj owner, .str perms, .str name] => .ok (owner, perms, some name)
    | _ => .error .eType : Except ErrorCode (Int × String × Option String))
  if !isValid objects owner then .error .eInvarg
  else
    let flags ← propFlags perms.toList 0
    return (owner, flags, name)

/-- `bf_add_prop`. -/
def bfAddProp (db : Db P) (progr oid : Int) (pname : Propdef) (value info : Var) :
    Option (Except ErrorCode (Db P)) :=
  match validatePropInfo db.objects info with
  | .error e => some (.error e)
  | .ok (owner, flags, newName) =>
    if newName.isSome then some (.error .eType)
    else if !isValid db.objects oid then some (.error .eInvarg)
    else if !objectAllows db.objects oid progr flagWrite ||
        (progr ≠ owner && !isWizard db.objects progr) then
      some (.error .ePerm)
    else do
      let (done, objects) ← dbAddPropdef db.objects oid pname value owner flags
      if done then return .ok { db with objects := objects } else return .error .eInvarg

/-- `bf_delete_prop`. -/
def bfDeleteProp (db : Db P) (progr oid : Int) (pname : String) :
    Option (Except ErrorCode (Db P)) :=
  if !isValid db.objects oid then some (.error .eInvarg)
  else if !objectAllows db.objects oid progr flagWrite then some (.error .ePerm)
  else do
    let (done, objects) ← dbDeletePropdef db.objects oid pname
    if done then return .ok { db with objects := objects } else return .error .ePropnf

/-- `bf_clear_prop`. -/
def bfClearProp (db : Db P) (progr oid : Int) (pname : String) :
    Option (Except ErrorCode (Db P)) := do
  if !isValid db.objects oid then return .error .eInvarg
  else
    match dbFindProperty db.objects oid pname with
    | none => return .error .ePropnf
    | some (.builtIn _) => return .error .ePerm
    | some (.slot definer n) =>
      let o ← findObject db.objects oid
      let prop ← o.propval[n]?
      if progr ≠ prop.owner && !isWizard db.objects progr then return .error .ePerm
      else if definer = oid then return .error .eInvarg
      else
        let objects ← dbSetPropertyValue db.objects oid n .clear
        return .ok { db with objects := objects }

/-- The end of `set_prop_info`. -/
def setInfo (db : Db P) (oid : Int) (n : Nat) (owner : Int) (flags : BitVec 16) :
    Option (Except ErrorCode (Db P)) := do
  let objects ← dbSetPropertyOwner db.objects oid n owner
  let objects ← dbSetPropertyFlags objects oid n flags
  return .ok { db with objects := objects }

/-- `set_prop_info`. A new name is at the address `addr`. -/
def setPropInfo (db : Db P) (progr oid : Int) (pname : String) (info : Var) (addr : Nat) :
    Option (Except ErrorCode (Db P)) := do
  if !isValid db.objects oid then return .error .eInvarg
  else
    match validatePropInfo db.objects info with
    | .error e => return .error e
    | .ok (owner, flags, newName) =>
      match dbFindProperty db.objects oid pname with
      | none | some (.builtIn _) => return .error .ePropnf
      | some (.slot _ n) =>
        let o ← findObject db.objects oid
        let prop ← o.propval[n]?
        if !propertyAllows db.objects prop progr .pfWrite ||
            (!isWizard db.objects progr && prop.owner ≠ owner) then
          return .error .ePerm
        else
          match newName with
          | none => db.setInfo oid n owner flags
          | some name =>
            let (done, db) ← db.dbRenamePropdef oid pname { addr := addr, name := name }
            if !done then return .error .eInvarg
            else
              match dbFindProperty db.objects oid name with
              | some (.slot _ n) => db.setInfo oid n owner flags
              | _ => none

/-- `OP_PUT_PROP` for a valid object and a property that is not built in. -/
def putProp (db : Db P) (progr oid : Int) (pname : String) (rhs : Var) :
    Option (Except ErrorCode (Db P)) := do
  if !isValid db.objects oid then return .error .eInvind
  else
    match dbFindProperty db.objects oid pname with
    | none => return .error .ePropnf
    | some (.builtIn _) => none
    | some (.slot _ n) =>
      let o ← findObject db.objects oid
      let prop ← o.propval[n]?
      if !propertyAllows db.objects prop progr .pfWrite then return .error .ePerm
      else
        let objects ← dbSetPropertyValue db.objects oid n rhs
        return .ok { db with objects := objects }

end Db

end LambdaMOO
