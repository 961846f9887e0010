import LambdaMOO.Db.Dump
import LambdaMOO.Db.Hierarchy

/-!
# Reading a database

`dbio_read_var`, `dbio_read_waif`, `read_object` and `read_db_file`. A waif that is read is
known by its place in `saved_waifs`. Where the server panics or goes on with memory it does
not own, the readers fail.
-/

namespace LambdaMOO

open Reader

variable {P T : Type}

/-- `dbio_input_version` and the waifs read so far, of which there are `waif_count`. -/
structure Loader where
  version : Nat
  savedWaifs : List Waif

/-- `DBV_Prehistory`. -/
def prehistory : Nat := 0

/-- `dbio_read_float`. -/
def dbioReadFloat (ft : FloatText) : Reader Loader FlNum := do
  let s ← line
  lift <|
    match ft.strtoflnum s with
    | (some d, []) => if s.head?.any isSpace then none else some d
    | _ => none

/-- `dbio_read_err`. -/
def dbioReadErr : Reader Loader ErrorCode := do
  let i ← dbioReadInteger .err
  lift ErrorCode.all[i.toNat]?

/-- The loop that reads the values of the mappable properties. It ends with the first index
that is none of those; `packable` has room for `N_MAPPABLE_PROPS` values. -/
def readPackable (readVar : Reader Loader Var) :
    Nat → List Var → BitVec nMappableProps →
      Reader Loader (Int × List Var × BitVec nMappableProps)
  | 0, _, _ => lift none
  | n + 1, packable, map => do
    let cur ← dbioReadInteger .int
    if 0 ≤ cur ∧ cur < nMappableProps then
      lift (if packable.length < nMappableProps then some () else none)
      let v ← readVar
      readPackable readVar n (packable ++ [v]) (mapProp map cur.toNat)
    else pure (cur, packable, map)

/-- The loop that reads the other values, with clear ones for the indices that are missing.
`i` is the index behind the last value of `q`. -/
def readUnpackable (readVar : Reader Loader Var) (length : Nat) :
    Nat → Int → Nat → List Var → Reader Loader (List Var)
  | 0, _, _, _ => lift none
  | n + 1, cur, i, q =>
    if cur < 0 then pure (q ++ List.replicate (length - i) .clear)
    else do
      let q := q ++ List.replicate (cur.toNat - i) .clear
      let i := max i cur.toNat
      lift (if i < length then some () else none)
      let v ← readVar
      let cur ← dbioReadInteger .int
      readUnpackable readVar length n cur (i + 1) (q ++ [v])

/-- The first line of a waif. -/
def waifFormat : List Fmt := [.char, .space, .num .uint]

/-- `saved_waifs`. -/
def savedWaifs : Reader Loader (List Waif) := fun s => some (s.2.savedWaifs, s)

/-- A waif that is allocated and not yet filled in. -/
def blankWaif : Waif :=
  { cls := nothing, owner := nothing, propdefs := none, propvals := none, pmap := 0 }

/-- Allocates the next waif. -/
def allocWaif : Reader Loader Unit := fun (input, s) =>
  some ((), (input, { s with savedWaifs := s.savedWaifs ++ [blankWaif] }))

/-- Fills in the waif with the given index. -/
def fillWaif (index : Nat) (w : Waif) : Reader Loader Unit := fun (input, s) =>
  some ((), (input, { s with savedWaifs := s.savedWaifs.set index w }))

/-- `dbio_read_waif` from the class on. -/
def readWaifBody (readVar : Reader Loader Var) (n : Nat) : Reader Loader Waif := do
  let cls ← dbioReadObjid
  let owner ← dbioReadObjid
  let propdefsLength ← dbioReadInteger .int
  let (cur, packable, map) ← readPackable readVar n [] 0
  let vals ← readUnpackable readVar propdefsLength.toNat n cur nMappableProps packable
  let _ ← dbioScxnf [.lit '.']
  pure { cls := cls, owner := owner, propdefs := none, propvals := some vals, pmap := map }

/-- `dbio_read_waif`. -/
def dbioReadWaif (readVar : Reader Loader Var) (n : Nat) : Reader Loader Var := do
  let (_, fields) ← dbioScxnf waifFormat
  let saved ← savedWaifs
  match fields with
  | [.char 'r', .num index] => do
    let _ ← dbioScxnf [.lit '.']
    lift (if index.toNat < saved.length then some (.waif index.toNat) else none)
  | [.char 'c', .num index] => do
    lift (if index = saved.length then some () else none)
    allocWaif
    let w ← readWaifBody readVar n
    fillWaif saved.length w
    pure (.waif saved.length)
  | _ => lift none

/-- `dbio_read_var_value`. -/
def dbioReadVarValue (ft : FloatText) (readVar : Reader Loader Var) (n : Nat) (vtype : Int) :
    Reader Loader Var := fun s =>
  match if vtype = -1 ∧ s.2.version = prehistory then 6 else vtype with
  | 0 => (Var.int <$> dbioReadInteger .num) s
  | 1 => (Var.obj <$> dbioReadObjid) s
  | 2 => (Var.str <$> dbioReadString) s
  | 3 => (Var.err <$> dbioReadErr) s
  | 4 => (do
      let len ← dbioReadInteger .unum
      let vs ← times readVar len.toNat
      pure (Var.list vs)) s
  | 5 => some (.clear, s)
  | 6 => some (.none, s)
  | 7 => (Var.catchMark <$> dbioReadInteger .num) s
  | 8 => (Var.finallyMark <$> dbioReadInteger .num) s
  | 9 => (Var.float <$> dbioReadFloat ft) s
  | 10 => dbioReadWaif readVar n s
  | _ => none

/-- `dbio_read_var`, for values nested at most `n` deep. -/
def dbioReadVar (ft : FloatText) : Nat → Reader Loader Var
  | 0 => lift none
  | n + 1 => do
    let vtype ← dbioReadInteger .intmax
    dbioReadVarValue ft (dbioReadVar ft n) n vtype

/-! ## Objects -/

/-- `read_verbdef`. -/
def readVerbdef : Reader Loader (Verbdef P) := do
  let name ← dbioReadString
  let owner ← dbioReadObjid
  let perms ← dbioReadInteger .uint16
  let prep ← dbioReadInteger .int16
  pure { name := name, owner := owner, perms := BitVec.ofInt 16 perms,
         prep := BitVec.ofInt 16 prep, program := none }

/-- `read_propdef`. `intern` is where `str_intern` keeps a string. -/
def readPropdef (intern : String → Nat) : Reader Loader Propdef := do
  let name ← dbioReadString
  pure { addr := intern name, name := name }

/-- `read_propval`. -/
def readPropval (readVar : Reader Loader Var) : Reader Loader Pval := do
  let var ← readVar
  let owner ← dbioReadObjid
  let perms ← dbioReadInteger .uint16
  pure { var := var, owner := owner, perms := BitVec.ofInt 16 perms }

/-- `"#%d\v recycled"`. -/
def objectFormat : List Fmt := [.lit '#', .num .num, .opt] ++ Fmt.text " recycled"

/-- `read_object` behind the first line. -/
def readObjectBody (intern : String → Nat) (readVar : Reader Loader Var) :
    Reader Loader (Object P) := do
  let name ← dbioReadString
  dbioSkipLine
  let flags ← dbioReadInteger .uint16
  let owner ← dbioReadObjid
  let location ← dbioReadObjid
  let contents ← dbioReadObjid
  let next ← dbioReadObjid
  let parent ← dbioReadObjid
  let child ← dbioReadObjid
  let sibling ← dbioReadObjid
  let nverbdefs ← dbioReadInteger .intmax
  let verbdefs ← times readVerbdef nverbdefs.toNat
  let npropdefs ← dbioReadInteger .intmax
  let propdefs ← times (readPropdef intern) npropdefs.toNat
  let nprops ← dbioReadInteger .intmax
  let propval ← times (readPropval readVar) nprops.toNat
  pure { name := name, flags := BitVec.ofInt 16 flags, owner := owner, location := location,
         contents := contents, next := next, parent := parent, child := child,
         sibling := sibling, verbdefs := verbdefs, propdefs := propdefs, propval := propval,
         waifPropdefs := none }

/-- `read_object`, when `oid` is the next object number. -/
def readObject (intern : String → Nat) (readVar : Reader Loader Var) (oid : Nat) :
    Reader Loader (Option (Object P)) := do
  match ← dbioScxnf objectFormat with
  | (sc, [.num i]) =>
    lift (if i = oid then some () else none)
    if sc = 2 then pure none else some <$> readObjectBody intern readVar
  | _ => lift none

/-- The loop over the objects from number `oid` on. -/
def readObjects (intern : String → Nat) (readVar : Reader Loader Var) :
    Nat → Nat → Reader Loader (Db.Objects P)
  | _, 0 => pure []
  | oid, n + 1 => do
    let o ← readObject intern readVar oid
    let os ← readObjects intern readVar (oid + 1) n
    pure (o :: os)

/-! ## The file -/

/-- `"#%d:%d"`. -/
def programFormat : List Fmt := [.lit '#', .num .num, .lit ':', .num .num]

/-- `db_set_verb_program` on the verb `vnum` of an object. -/
def Object.setProgram (o : Object P) (vnum : Nat) (p : P) : Object P :=
  { o with verbdefs := o.verbdefs.modify vnum fun v => { v with program := some p } }

/-- The loop over the programs. `parse` is `dbio_read_program`. -/
def readPrograms (parse : Reader Loader P) : Nat → Db.Objects P → Reader Loader (Db.Objects P)
  | 0, objects => pure objects
  | n + 1, objects => do
    match ← dbioScxnf programFormat with
    | (_, [.num oid, .num vnum]) =>
      let o ← lift (Db.findObject objects oid)
      lift (if 0 ≤ vnum ∧ vnum < o.verbdefs.length then some () else none)
      let p ← parse
      readPrograms parse n (objects.set oid.toNat (some (o.setProgram vnum.toNat p)))
    | _ => lift none

/-- `header_format_string`. -/
def headerFormat : List Fmt :=
  Fmt.text "** LambdaMOO Database, Format Version " ++ [.num .uint] ++ Fmt.text " **"

/-- The format of the counts. -/
def countsFormat : List Fmt :=
  [.num .unum, .newline, .num .unum, .newline, .skipInt, .newline, .num .unum]

/-- `Num_DB_Versions`. -/
def numDbVersions : Nat := 5

/-- The header of a file, which a prehistoric one does not have. -/
def readHeader : Reader Loader Unit := fun (input, s) =>
  if input.head? = some '*' then
    match dbioScxnf headerFormat (input, s) with
    | some ((_, [.num version]), rest, s) =>
      if version < numDbVersions then some ((), rest, { s with version := version.toNat })
      else none
    | _ => none
  else some ((), input, { s with version := prehistory })

/-- `waif_after_loading` on one waif. -/
def backfill (db : Db P) (i : Nat) : Db P :=
  match db.waifs[i]? with
  | none => db
  | some w =>
    match Db.findObject db.objects w.cls with
    | none => db
    | some o =>
      let (new, db) := db.classPropdefs w.cls o
      { db with waifs := db.waifs.set i { w with propdefs := some new } }

/-- `waif_after_loading`. -/
def waifAfterLoading (db : Db P) : Db P := (List.range db.waifs.length).foldl backfill db

/-- What is read before the hooks run: the users, the objects and the tasks. -/
def readDbFile (intern : String → Nat) (ft : FloatText) (parse : Reader Loader P)
    (readTasks : Reader Loader T) (n : Nat) :
    Reader Loader (List Int × Db.Objects P × T) := do
  readHeader
  match ← dbioScxnf countsFormat with
  | (_, [.num nobjs, .num nprogs, .num nusers]) =>
    let users ← times dbioReadObjid nusers.toNat
    let objects ← readObjects intern (dbioReadVar ft n) 0 nobjs.toNat
    let objects ← lift (Db.validateHierarchies objects)
    let objects ← readPrograms parse nprogs.toNat objects
    let tasks ← readTasks
    pure (users, objects, tasks)
  | _ => lift none

/-- `db_load`: `read_db_file` between the hooks for waifs. A value is not nested deeper
than the file is long. -/
def dbLoad (intern : String → Nat) (ft : FloatText) (parse : Reader Loader P)
    (readTasks : Reader Loader T) (input : List Char) : Option (Db P × T) := do
  let ((users, objects, tasks), _, s) ← readDbFile intern ft parse readTasks input.length
    (input, { version := prehistory, savedWaifs := [] })
  some (waifAfterLoading { objects := objects, allUsers := users, waifs := s.savedWaifs,
                           waifPropdefs := [] }, tasks)

end LambdaMOO
