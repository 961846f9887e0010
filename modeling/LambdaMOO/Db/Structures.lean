import LambdaMOO.Structures
import Mathlib.Data.List.Basic

/-!
# The database in memory

Values, verbs, properties, waifs and objects as `structures.h`, `db_private.h` and `waif.h`
lay them out. Pointers are indices: a waif is an index into the waifs in memory, a property
list of waifs one into the lists in memory. Reference counts are left out, so what the
server frees stays where it is, unreachable.
-/

namespace LambdaMOO

/-- `Var` with all the types a file can hold, also the two marks of a saved stack. -/
inductive Var where
  | int (num : Int)
  | obj (obj : Int)
  | str (str : String)
  | err (err : ErrorCode)
  | list (list : List Var)
  | clear
  | none
  | catchMark (num : Int)
  | finallyMark (num : Int)
  | float (fnum : FlNum)
  | waif (waif : Nat)
  deriving Repr

mutual
/-- The value with its waifs renamed. -/
def Var.rename (f : Nat → Nat) : Var → Var
  | .int n => .int n
  | .obj n => .obj n
  | .str s => .str s
  | .err e => .err e
  | .list vs => .list (Var.renames f vs)
  | .clear => .clear
  | .none => .none
  | .catchMark n => .catchMark n
  | .finallyMark n => .finallyMark n
  | .float d => .float d
  | .waif w => .waif (f w)

/-- The elements of a list. -/
def Var.renames (f : Nat → Nat) : List Var → List Var
  | [] => []
  | v :: vs => v.rename f :: Var.renames f vs
end

mutual
/-- The waifs in a value, lists included and the properties of waifs not. -/
def Var.waifs : Var → List Nat
  | .list vs => Var.waifsOf vs
  | .waif w => [w]
  | _ => []

/-- The waifs in the elements of a list. -/
def Var.waifsOf : List Var → List Nat
  | [] => []
  | v :: vs => v.waifs ++ Var.waifsOf vs
end

/-- `TYPE_CLEAR` in the type field. -/
def Var.isClear : Var → Bool
  | .clear => true
  | _ => false

/-- A property's name. The property lists of waifs are compared by the pointers to the
names, so a name comes with its address. -/
structure Propdef where
  addr : Nat
  name : String
  deriving DecidableEq, Repr

/-- `Verbdef` without the link; the programs are a parameter. -/
structure Verbdef (P : Type) where
  name : String
  owner : Int
  perms : BitVec 16
  prep : BitVec 16
  program : Option P
  deriving Repr

structure Pval where
  var : Var
  owner : Int
  perms : BitVec 16
  deriving Repr

/-- `Object`. The verbs and property definitions are lists; `waifPropdefs` is the index of
the property list for the waifs of this class. -/
structure Object (P : Type) where
  name : String
  flags : BitVec 16
  owner : Int
  location : Int
  contents : Int
  next : Int
  parent : Int
  child : Int
  sibling : Int
  verbdefs : List (Verbdef P)
  propdefs : List Propdef
  propval : List Pval
  waifPropdefs : Option Nat
  deriving Repr

/-- `N_MAPPABLE_PROPS`: six words of 32 bits. -/
def nMappableProps : Nat := 192

/-- `struct Waif`. A null `propvals` is none. In the default build `save_index` lies over
the first word of `pmap`. -/
structure Waif where
  cls : Int
  owner : Int
  propdefs : Option Nat
  propvals : Option (List Var)
  pmap : BitVec nMappableProps
  deriving Repr

/-- The objects by number (none for a recycled number), the users, the waifs and their
property lists. -/
structure Db (P : Type) where
  objects : List (Option (Object P))
  allUsers : List Int
  waifs : List Waif
  waifPropdefs : List (List Propdef)
  deriving Repr

namespace Db

variable {P : Type}

/-- `dbpriv_find_object`. -/
def findObject (objects : List (Option (Object P))) (oid : Int) : Option (Object P) :=
  if oid < 0 then none else (objects[oid.toNat]?).join

/-- `valid`. -/
def isValid (objects : List (Option (Object P))) (oid : Int) : Bool :=
  (findObject objects oid).isSome

/-- The loops from an object up to its last ancestor, cut off after `n` objects. -/
def ancestors (objects : List (Option (Object P))) : Nat → Int → List (Object P)
  | 0, _ => []
  | n + 1, oid =>
    match findObject objects oid with
    | none => []
    | some o => o :: ancestors objects n o.parent

/-- `dbpriv_count_properties`. An ancestor line has no object twice. -/
def countProperties (objects : List (Option (Object P))) (oid : Int) : Nat :=
  ((ancestors objects objects.length oid).map fun o => o.propdefs.length).sum

lemma findObject_map {objects : List (Option (Object P))} (g : Object P → Object P) (oid : Int) :
    findObject (objects.map (Option.map g)) oid = (findObject objects oid).map g := by
  unfold findObject
  split
  · rfl
  · rw [List.getElem?_map]
    cases objects[oid.toNat]? with
    | none => rfl
    | some o => cases o <;> rfl

lemma findObject_eq_some {objects : List (Option (Object P))} {oid : Int} {o : Object P} (h : findObject objects oid = some o) :
    0 ≤ oid ∧ objects[oid.toNat]? = some (some o) := by
  unfold findObject at h
  split_ifs at h with hneg
  refine ⟨Int.not_lt.mp hneg, ?_⟩
  cases ho : objects[oid.toNat]? with
  | none => simp [ho] at h
  | some o' => simpa [ho] using h

lemma findObject_set {objects : List (Option (Object P))} {oid : Int} {o o' : Object P}
    (h : findObject objects oid = some o) (x : Int) :
    findObject (objects.set oid.toNat (some o')) x
      = if x = oid then some o' else findObject objects x := by
  obtain ⟨hpos, hget⟩ := findObject_eq_some h
  have hlt := (List.getElem?_eq_some_iff.mp hget).1
  unfold findObject
  by_cases hx : x < 0
  · have : x ≠ oid := by omega
    simp [hx, this]
  · simp only [hx, if_false]
    by_cases heq : x = oid
    · subst heq
      simp [List.getElem?_set_self hlt]
    · have hne : oid.toNat ≠ x.toNat := by omega
      simp [List.getElem?_set_ne hne, heq]

/-- A change that leaves the parents as they are leaves the ancestors where they are. -/
lemma ancestors_map {objects : List (Option (Object P))} {g : Object P → Object P}
    (hg : ∀ o, (g o).parent = o.parent) (n : Nat) (oid : Int) :
    ancestors (objects.map (Option.map g)) n oid = (ancestors objects n oid).map g := by
  induction n generalizing oid with
  | zero => rfl
  | succ n ih =>
    simp only [ancestors, findObject_map]
    cases findObject objects oid with
    | none => rfl
    | some o => simp only [Option.map_some, List.map_cons, ← ih, hg]

end Db

lemma mapM_eq_some_map {α β : Type} {f : α → Option β} {g : α → β} {l : List α}
    (h : ∀ x ∈ l, f x = some (g x)) : l.mapM f = some (l.map g) := by
  induction l with
  | nil => rfl
  | cons x l ih =>
    have hx := h x (by simp)
    have hl := ih fun y hy => h y (by simp [hy])
    simp [List.mapM_cons, hx, hl]

lemma Var.renames_eq_map (f : Nat → Nat) (vs : List Var) :
    Var.renames f vs = vs.map (Var.rename f) := by
  induction vs with
  | nil => rfl
  | cons v vs ih => rw [Var.renames, ih, List.map_cons]

lemma Var.waifsOf_eq_flatMap (vs : List Var) : Var.waifsOf vs = vs.flatMap Var.waifs := by
  induction vs with
  | nil => rfl
  | cons v vs ih => rw [Var.waifsOf, ih, List.flatMap_cons]

mutual
lemma Var.rename_of_waifs_nil (f : Nat → Nat) : ∀ v : Var, v.waifs = [] → v.rename f = v
  | .int _, _ | .obj _, _ | .str _, _ | .err _, _ | .clear, _ | .none, _ | .catchMark _, _
  | .finallyMark _, _ | .float _, _ => rfl
  | .list vs, h => by rw [Var.rename, Var.renames_of_waifs_nil f vs h]
  | .waif _, h => by simp [Var.waifs] at h

lemma Var.renames_of_waifs_nil (f : Nat → Nat) :
    ∀ vs : List Var, Var.waifsOf vs = [] → Var.renames f vs = vs
  | [], _ => rfl
  | v :: vs, h => by
    rw [Var.waifsOf, List.append_eq_nil_iff] at h
    rw [Var.renames, Var.rename_of_waifs_nil f v h.1, Var.renames_of_waifs_nil f vs h.2]
end

end LambdaMOO
