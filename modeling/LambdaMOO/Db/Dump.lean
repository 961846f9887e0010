import LambdaMOO.Db.Text
import LambdaMOO.Db.Waif

/-!
# Writing a database

`dbio_write_var`, `dbio_write_waif` and `write_db_file`. A routine that only prints is the
list of what it prints: texts, one for each call of `dbio_printf`, and values. Writing a
value changes the waifs in it, and any call of `dbio_printf` may fail.
-/

namespace LambdaMOO

variable {P : Type}

/-- The text of a floating-point number and the way back. `strtoflnum` gives nothing for a
number that is not real, and the text behind it. -/
structure FloatText where
  print : FlNum → List Char
  strtoflnum : List Char → Option FlNum × List Char

/-- A dump on its way. `room` is the number of calls of `dbio_printf` that succeed before
one fails, `none` if none does. The entries of `saved_waifs` behind `n_saved_waifs` are
null and left out. -/
structure Dumper (P : Type) where
  db : Db P
  output : List Char
  room : Option Nat
  savedWaifs : List Nat

/-- How a dump ends early: by `dbpriv_dbio_failed`, or in undefined behaviour. -/
inductive DumpError where
  | dbioFailed
  | undefined
  deriving DecidableEq, Repr

abbrev Writer (P : Type) := EStateM DumpError (Dumper P)

/-- `dbio_printf`. -/
def dbioPrintf (t : List Char) : Writer P Unit := fun d =>
  match d.room with
  | none => .ok () { d with output := d.output ++ t }
  | some 0 => .error .dbioFailed d
  | some (n + 1) => .ok () { d with output := d.output ++ t, room := some n }

/-- `dbio_write_intmax` and `dbio_write_objid`. -/
def intmaxText (n : Int) : List Char := decimal n ++ ['\n']

/-- `dbio_write_string`. -/
def stringText (s : String) : List Char := s.toList ++ ['\n']

/-- `dbio_write_float`. -/
def floatText (ft : FloatText) (d : FlNum) : List Char := ft.print d ++ ['\n']

/-- The error codes in the order of the enumeration. -/
def ErrorCode.all : List ErrorCode :=
  [.eNone, .eType, .eDiv, .ePerm, .ePropnf, .eVerbnf, .eVarnf, .eInvind,
    .eRecmove, .eMaxrec, .eRange, .eArgs, .eNacc, .eInvarg, .eQuota, .eFloat]

def ErrorCode.toNum (e : ErrorCode) : Nat := ErrorCode.all.idxOf e

/-- `v.type & TYPE_DB_MASK`. -/
def Var.typeCode : Var → Int
  | .int _ => 0
  | .obj _ => 1
  | .str _ => 2
  | .err _ => 3
  | .list _ => 4
  | .clear => 5
  | .none => 6
  | .catchMark _ => 7
  | .finallyMark _ => 8
  | .float _ => 9
  | .waif _ => 10

mutual
/-- `dbio_write_var`. -/
def dbioWriteVar (ft : FloatText) (writeWaif : Nat → Writer P Unit) (v : Var) : Writer P Unit :=
  match v with
  | .clear | .none => dbioPrintf (intmaxText v.typeCode)
  | .str s => do
    dbioPrintf (intmaxText v.typeCode)
    dbioPrintf (stringText s)
  | .err e => do
    dbioPrintf (intmaxText v.typeCode)
    dbioPrintf (intmaxText e.toNum)
  | .obj n | .int n | .catchMark n | .finallyMark n => do
    dbioPrintf (intmaxText v.typeCode)
    dbioPrintf (intmaxText n)
  | .float d => do
    dbioPrintf (intmaxText v.typeCode)
    dbioPrintf (floatText ft d)
  | .list vs => do
    dbioPrintf (intmaxText v.typeCode)
    dbioPrintf (intmaxText vs.length)
    dbioWriteVars ft writeWaif vs
  | .waif r => do
    dbioPrintf (intmaxText v.typeCode)
    writeWaif r

/-- The loop over a list. -/
def dbioWriteVars (ft : FloatText) (writeWaif : Nat → Writer P Unit) : List Var → Writer P Unit
  | [] => pure ()
  | v :: vs => do
    dbioWriteVar ft writeWaif v
    dbioWriteVars ft writeWaif vs
end

/-- The index and the value of a property. -/
def writeProp (writeVar : Var → Writer P Unit) (i : Nat) : List Var → Writer P Unit
  | [] => throw .undefined
  | v :: _ => do
    dbioPrintf (intmaxText i)
    writeVar v

/-- The first half of a turn of the loop in `dbio_write_waif`: writes the property `i` if it
is not clear. `val` is the rest of the stored values. -/
def writeWaifProp (writeVar : Var → Writer P Unit) (map : BitVec nMappableProps) (i : Nat)
    (val : List Var) : Writer P Unit :=
  if i < nMappableProps then
    if propMapped map i then writeProp writeVar i val else pure ()
  else
    match val with
    | [] => throw .undefined
    | v :: _ => if v.isClear then pure () else writeProp writeVar i val

/-- The loop over the properties from `i` on, `n` of them. -/
def writeWaifProps (writeVar : Var → Writer P Unit) (map : BitVec nMappableProps) :
    Nat → Nat → List Var → Writer P Unit
  | _, 0, _ => pure ()
  | i, n + 1, val => do
    writeWaifProp writeVar map i val
    writeWaifProps writeVar map (i + 1) n (if hasSlot map i then val.tail else val)

/-- The waif at `r` and the length of its property list. -/
def Db.waifAt (db : Db P) (r : Nat) : Option (Waif × Nat) := do
  let w ← db.waifs[r]?
  match w.propdefs with
  | none => some (w, 0)
  | some pd => (db.waifPropdefs[pd]?).map fun defs => (w, defs.length)

/-- Stores the dump index of the waif at `r` and enters it in the table. -/
def Dumper.save (d : Dumper P) (r : Nat) (w : Waif) : Dumper P :=
  { d with
    db := { d.db with
      waifs := d.db.waifs.set r { w with pmap := setSaveIndex w.pmap d.savedWaifs.length } }
    savedWaifs := d.savedWaifs ++ [r] }

/-- The text `c index` or `r index`. -/
def waifText (c : Char) (index : Nat) : List Char := c :: ' ' :: decimal index ++ ['\n']

/-- `dbio_write_waif`. Each waif is written once, so the recursion is not deeper than there
are waifs. -/
def dbioWriteWaif (ft : FloatText) : Nat → Nat → Writer P Unit
  | 0, _ => throw .undefined
  | depth + 1, r => fun d =>
    match d.db.waifs[r]? with
    | none => .error .undefined d
    | some w =>
      let index := saveIndex w.pmap
      if d.savedWaifs[index]? = some r then dbioPrintf (waifText 'r' index ++ ['.', '\n']) d
      else
        match (d.db.updateWaifPropdefs r).bind fun db => (db.waifAt r).map fun w => (db, w) with
        | none => .error .undefined d
        | some (db, w, len) =>
          let write : Writer P Unit := do
            dbioPrintf (waifText 'c' d.savedWaifs.length)
            dbioPrintf (intmaxText w.cls)
            dbioPrintf (intmaxText w.owner)
            dbioPrintf (intmaxText len)
            writeWaifProps (dbioWriteVar ft (dbioWriteWaif ft depth)) w.pmap 0 len
              (w.propvals.getD [])
            dbioPrintf (intmaxText (-1))
            dbioPrintf ['.', '\n']
          write ({ d with db := db }.save r w)

/-! ## The file -/

/-- What a routine prints: the text of one `dbio_printf`, or a value. -/
inductive Piece where
  | text (t : List Char)
  | var (v : Var)

/-- Prints the pieces in order. -/
def writePieces (writeVar : Var → Writer P Unit) : List Piece → Writer P Unit
  | [] => pure ()
  | .text t :: ps => do
    dbioPrintf t
    writePieces writeVar ps
  | .var v :: ps => do
    writeVar v
    writePieces writeVar ps

/-- `write_verbdef`. -/
def writeVerbdef (v : Verbdef P) : List Piece :=
  [.text (stringText v.name), .text (intmaxText v.owner), .text (intmaxText v.perms.toNat),
    .text (intmaxText v.prep.toInt)]

/-- `write_propdef`. -/
def writePropdef (p : Propdef) : List Piece := [.text (stringText p.name)]

/-- `write_propval`. -/
def writePropval (p : Pval) : List Piece :=
  [.var p.var, .text (intmaxText p.owner), .text (intmaxText p.perms.toNat)]

/-- `write_object` for the object number `oid`, with `nprops` properties on it. -/
def writeObject (oid : Nat) (nprops : Nat) : Option (Object P) → List Piece
  | none => [.text ('#' :: decimal oid ++ " recycled\n".toList)]
  | some o =>
    [.text ('#' :: decimal oid ++ ['\n']), .text (stringText o.name), .text (stringText ""),
      .text (intmaxText o.flags.toNat), .text (intmaxText o.owner),
      .text (intmaxText o.location), .text (intmaxText o.contents), .text (intmaxText o.next),
      .text (intmaxText o.parent), .text (intmaxText o.child), .text (intmaxText o.sibling),
      .text (intmaxText o.verbdefs.length)] ++
    o.verbdefs.flatMap writeVerbdef ++
    [.text (intmaxText o.propdefs.length)] ++
    o.propdefs.flatMap writePropdef ++
    [.text (intmaxText nprops)] ++
    (o.propval.take nprops).flatMap writePropval

/-- The programs of an object: their verb numbers and texts. -/
def writePrograms (unparse : P → List Char) (oid : Nat) (o : Object P) : List Piece :=
  o.verbdefs.zipIdx.flatMap fun (v, vcount) =>
    match v.program with
    | none => []
    | some p =>
      [.text ('#' :: decimal oid ++ ':' :: decimal vcount ++ ['\n']), .text (unparse p)]

/-- The verbs of an object that have a program. -/
def Object.nprogs (o : Object P) : Nat := o.verbdefs.countP fun v => v.program.isSome

/-- `current_db_version`. -/
def currentDbVersion : Nat := 4

/-- `header_format_string` with the version in it. -/
def headerText (version : Nat) : List Char :=
  "** LambdaMOO Database, Format Version ".toList ++ decimal version ++ " **".toList

/-- The pieces `write_db_file` writes. `unparse` gives the text of a program up to the line
with the dot, and `tasks` what `write_task_queue` and `write_active_connections` print. -/
def writeDbFile (unparse : P → List Char) (tasks : List Piece) (db : Db P) : List Piece :=
  let nprogs := (db.objects.map fun o => (o.map Object.nprogs).getD 0).sum
  [.text (headerText currentDbVersion),
    .text ('\n' :: intmaxText db.objects.length ++ intmaxText nprogs ++ intmaxText 0 ++
      intmaxText db.allUsers.length)] ++
  db.allUsers.map (fun u => .text (intmaxText u)) ++
  db.objects.zipIdx.flatMap (fun (o, oid) =>
    writeObject oid (Db.countProperties db.objects oid) o) ++
  db.objects.zipIdx.flatMap (fun (o, oid) =>
    (o.map (writePrograms unparse oid)).getD []) ++
  tasks

/-- Writing pieces with the waifs of a database. -/
def Db.writeVar (db : Db P) (ft : FloatText) : Var → Writer P Unit :=
  dbioWriteVar ft (dbioWriteWaif ft (db.waifs.length + 1))

/-- A run of `write_db_file`, from `waif_before_saving` on. -/
def Db.dump (db : Db P) (ft : FloatText) (unparse : P → List Char) (tasks : List Piece)
    (room : Option Nat) : EStateM.Result DumpError (Dumper P) Unit :=
  writePieces (db.writeVar ft) (writeDbFile unparse tasks db)
    { db := db, output := [], room := room, savedWaifs := [] }

end LambdaMOO
