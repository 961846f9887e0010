import LambdaMOO.Db.Structures

/-!
# `validate_hierarchies`

The checks a database passes when it is loaded. A chain of links is followed for at most as
many steps as the database has objects, and one more; the two hands of the cycle check have
met by then.
-/

namespace LambdaMOO

namespace Db

variable {P : Type}

/-- The objects, indexed by number. -/
abbrev Objects (P : Type) := List (Option (Object P))

/-- `FLAG_FIRST_TEMP`. -/
def flagFirstTemp : Nat := 14

/-- One of the hierarchies: the link up, the link to the first object below and the link to
the next one beside it, and the temporary flag that phase 3 uses for it. -/
structure Links (P : Type) where
  up : Object P → Int
  down : Object P → Int
  across : Object P → Int
  flag : Nat

def parentLinks : Links P :=
  { up := Object.parent, down := Object.child, across := Object.sibling, flag := flagFirstTemp }

def locationLinks : Links P :=
  { up := Object.location, down := Object.contents, across := Object.next,
    flag := flagFirstTemp + 1 }

/-- Applies `f` to the object `oid`. -/
def modifyObject (objects : Objects P) (oid : Nat) (f : Object P → Object P) : Objects P :=
  objects.modify oid (Option.map f)

/-- The `CHECK` of phase 1 on a link. -/
def checkLink (objects : Objects P) (link : Int) : Int :=
  if link ≠ nothing ∧ ¬ isValid objects link then nothing else link

/-- Phase 1 on one object. No check changes which objects there are. -/
def phase1 (objects : Objects P) (o : Object P) : Object P :=
  let o := if o.location = nothing ∧ o.next ≠ nothing then { o with next := nothing } else o
  { o with
    parent := checkLink objects o.parent
    child := checkLink objects o.child
    sibling := checkLink objects o.sibling
    location := checkLink objects o.location
    contents := checkLink objects o.contents
    next := checkLink objects o.next }

/-- The `CHECK` of phase 2: whether the chain of `field` from `faster` on has a cycle.
Nothing where the code would use a null pointer or not end. -/
def hasCycle (objects : Objects P) (field : Object P → Int) : Nat → Int → Int → Option Bool
  | 0, _, _ => none
  | n + 1, slower, faster =>
    if faster = nothing then some false
    else do
      let fast ← findObject objects faster
      if field fast = nothing then some false
      else do
        let faster := field (← findObject objects (field fast))
        let slower := field (← findObject objects slower)
        if faster = slower then some true else hasCycle objects field n slower faster

/-- Phase 2 on one object: whether one of its chains is broken. -/
def phase2 (objects : Objects P) (o : Object P) : Option Bool := do
  let n := objects.length + 1
  let b₁ ← hasCycle objects Object.parent n o.parent o.parent
  let b₂ ← hasCycle objects Object.sibling n o.child o.child
  let b₃ ← hasCycle objects Object.location n o.location o.location
  let b₄ ← hasCycle objects Object.next n o.contents o.contents
  some (b₁ || b₂ || b₃ || b₄)

/-- `o->flags |= (3<<FLAG_FIRST_TEMP)`. -/
def setTempFlags (o : Object P) : Object P :=
  { o with flags := o.flags ||| 3#16 <<< flagFirstTemp }

/-- `o->flags &= ~(3<<FLAG_FIRST_TEMP)`. -/
def clearTempFlags (o : Object P) : Object P :=
  { o with flags := o.flags &&& ~~~ (3#16 <<< flagFirstTemp) }

/-- `o->flags &= ~(1<<(FLAG))`. -/
def clearFlag (flag : Nat) (o : Object P) : Object P :=
  { o with flags := o.flags &&& ~~~ (1#16 <<< flag) }

/-- The `CHECK` of phase 3a: goes along the objects below `oid` and marks those that know
where they are. The first component says whether an error was found. -/
def claim (links : Links P) (oid : Nat) :
    Nat → Int → Bool × Objects P → Option (Bool × Objects P)
  | 0, _, _ => none
  | n + 1, oidkid, (broken, objects) =>
    if oidkid = nothing then some (broken, objects)
    else do
      let okid ← findObject objects oidkid
      if links.up okid ≠ oid then claim links oid n (links.across okid) (true, objects)
      else
        claim links oid n (links.across okid)
          (broken, modifyObject objects oidkid.toNat (clearFlag links.flag))

/-- Phase 3a on the object `oid`. -/
def phase3a (oid : Nat) : Bool × Objects P → Option (Bool × Objects P)
  | (broken, objects) =>
    match findObject objects oid with
    | none => some (broken, objects)
    | some o => do
      let s ← claim parentLinks oid (objects.length + 1) o.child (broken, objects)
      claim locationLinks oid (objects.length + 1) o.contents s

/-- The `CHECK` of phase 3b: an object nobody claims is below none. -/
def unclaimed (links : Links P) (o : Object P) : Bool :=
  o.flags.getLsbD links.flag && links.up o ≠ nothing

/-- The loop of phase 3a. -/
def phase3aLoop : List Nat → Bool × Objects P → Option (Bool × Objects P)
  | [], s => some s
  | oid :: oids, s => (phase3a oid s).bind (phase3aLoop oids)

/-- `validate_hierarchies`: whether it reports success, and the objects as they are
afterwards. -/
def validation (objects : Objects P) : Option (Bool × Objects P) := do
  let objects := objects.map (Option.map (phase1 objects))
  let bs ← (objects.filterMap id).mapM (phase2 objects)
  let objects := objects.map (Option.map setTempFlags)
  if bs.any id then return (false, objects)
  let (broken, objects) ← phase3aLoop (List.range objects.length) (false, objects)
  let broken := broken || (objects.filterMap id).any fun o =>
    unclaimed parentLinks o || unclaimed locationLinks o
  return (!broken, objects.map (Option.map clearTempFlags))

/-- The objects after a validation, nothing if the load fails. -/
def validateHierarchies (objects : Objects P) : Option (Objects P) :=
  match validation objects with
  | some (true, objects) => some objects
  | _ => none

end Db

end LambdaMOO
