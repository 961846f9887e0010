import LambdaMOO.Db.LoadSpec
import LambdaMOO.Db.Record

/-!
# Objects are read back

What `write_object` prints of an object, `read_object` reads as the same object. The waifs in
it have new names, the names of its properties new addresses, and its programs come later.
-/

namespace LambdaMOO

open Reader

variable {P : Type}

/-! ## What can be written -/

structure Verbdef.Fits (v : Verbdef P) : Prop where
  name : '\n' ∉ v.name.toList
  owner : IntRange.num.Has v.owner

structure Pval.Fits (ft : FloatText) (p : Pval) : Prop where
  var : p.var.Fits ft
  owner : IntRange.num.Has p.owner

/-- The numbers of the object are in range and its strings contain no newline. -/
structure Object.Fits (ft : FloatText) (o : Object P) : Prop where
  name : '\n' ∉ o.name.toList
  owner : IntRange.num.Has o.owner
  location : IntRange.num.Has o.location
  contents : IntRange.num.Has o.contents
  next : IntRange.num.Has o.next
  parent : IntRange.num.Has o.parent
  child : IntRange.num.Has o.child
  sibling : IntRange.num.Has o.sibling
  nverbdefs : IntRange.intmax.Has o.verbdefs.length
  npropdefs : IntRange.intmax.Has o.propdefs.length
  nprops : IntRange.intmax.Has o.propval.length
  verbdefs : ∀ v ∈ o.verbdefs, v.Fits
  propdefs : ∀ p ∈ o.propdefs, '\n' ∉ p.name.toList
  propval : ∀ p ∈ o.propval, p.Fits ft

/-! ## What is read -/

/-- The verb without its program. -/
def Verbdef.blank (v : Verbdef P) : Verbdef P := { v with program := none }

/-- The object without its programs. -/
def Object.blank (o : Object P) : Object P := { o with verbdefs := o.verbdefs.map Verbdef.blank }

def Propdef.reload (intern : String → Nat) (p : Propdef) : Propdef :=
  { p with addr := intern p.name }

def Pval.rename (f : Nat → Nat) (p : Pval) : Pval := { p with var := p.var.rename f }

/-- The object as it is after a load in which the waifs were renamed by `f`. -/
def Object.reload (intern : String → Nat) (f : Nat → Nat) (o : Object P) : Object P :=
  { o with
    propdefs := o.propdefs.map (Propdef.reload intern)
    propval := o.propval.map (Pval.rename f)
    waifPropdefs := none }

variable {ft : FloatText} {records : Nat → Option Record} {final : List Nat} {n : Nat}
  {readVar : Reader Loader Var} {f : Nat → Nat} {intern : String → Nat}

lemma has_toNat (b : BitVec 16) : IntRange.uint16.Has (b.toNat : Int) := by
  have h := b.isLt
  refine IntRange.Has.of_le (j := 2 ^ 16 - 1) (by decide) (by omega)

lemma has_toInt (b : BitVec 16) : IntRange.int16.Has b.toInt := by
  have hle := BitVec.le_toInt b
  have hlt := BitVec.toInt_lt (x := b)
  refine ⟨?_, ?_, ?_⟩
  · unfold intmaxMin
    omega
  · unfold intmaxMax
    omega
  · intro p hp
    simp only [IntRange.bounds, Option.mem_def, Option.some.injEq] at hp
    subst hp
    constructor <;> dsimp only <;> omega

lemma takes_objid {i : Int} (h : IntRange.num.Has i) (l : Loader) :
    Takes dbioReadObjid l (intmaxText i) i l := takes_dbioReadInteger h l

lemma takes_stringText {t : String} (h : '\n' ∉ t.toList) (l : Loader) :
    Takes dbioReadString l (stringText t) t l := takes_dbioReadString h l

lemma restores_readVerbdef {v : Verbdef P} (h : v.Fits) :
    Restores ft records final n readVerbdef (writeVerbdef v) v.blank := by
  refine Restores.text_then (takes_stringText h.name) ?_
  refine Restores.text_then (takes_objid h.owner) ?_
  refine Restores.text_then (takes_intmaxText (has_toNat v.perms)) ?_
  refine (Restores.text (takes_intmaxText (has_toInt v.prep))).bind_pure' ?_
  simp [Verbdef.blank]

lemma restores_readPropdef {p : Propdef} (h : '\n' ∉ p.name.toList) :
    Restores ft records final n (readPropdef intern) (writePropdef p) (p.reload intern) :=
  (Restores.text (takes_stringText h)).bind_pure _

lemma restores_readPropval {p : Pval} (h : p.Fits ft)
    (hv : Restores ft records final n readVar [.var p.var] (p.var.rename f)) :
    Restores ft records final n (readPropval readVar) (writePropval p) (p.rename f) := by
  unfold writePropval
  rw [← List.singleton_append]
  refine hv.bind ?_
  refine Restores.text_then (takes_objid h.owner) ?_
  refine (Restores.text (takes_intmaxText (has_toNat p.perms))).bind_pure' ?_
  simp [Pval.rename]

/-- What is written of an object behind its first line. -/
def Object.pieces (o : Object P) : List Piece :=
  .text (stringText o.name) :: .text (stringText "") ::
  .text (intmaxText o.flags.toNat) :: .text (intmaxText o.owner) ::
  .text (intmaxText o.location) :: .text (intmaxText o.contents) ::
  .text (intmaxText o.next) :: .text (intmaxText o.parent) ::
  .text (intmaxText o.child) :: .text (intmaxText o.sibling) ::
  .text (intmaxText o.verbdefs.length) :: (o.verbdefs.flatMap writeVerbdef ++
    .text (intmaxText o.propdefs.length) :: (o.propdefs.flatMap writePropdef ++
      .text (intmaxText o.propval.length) :: o.propval.flatMap writePropval))

lemma writeObject_some (oid : Nat) (o : Object P) :
    writeObject oid o.propval.length (some o) = .text ('#' :: decimal oid ++ ['\n']) :: o.pieces := by
  simp [writeObject, Object.pieces]

lemma restores_readObjectBody {o : Object P} (h : o.Fits ft)
    (hv : ∀ p ∈ o.propval, Restores ft records final n readVar [.var p.var] (p.var.rename f)) :
    Restores ft records final n (readObjectBody intern readVar) o.pieces
      (o.reload intern f).blank := by
  refine Restores.text_then (takes_stringText h.name) ?_
  refine Restores.text_then (takes_dbioSkipLine (t := []) (by simp)) ?_
  refine Restores.text_then (takes_intmaxText (has_toNat o.flags)) ?_
  refine Restores.text_then (takes_objid h.owner) ?_
  refine Restores.text_then (takes_objid h.location) ?_
  refine Restores.text_then (takes_objid h.contents) ?_
  refine Restores.text_then (takes_objid h.next) ?_
  refine Restores.text_then (takes_objid h.parent) ?_
  refine Restores.text_then (takes_objid h.child) ?_
  refine Restores.text_then (takes_objid h.sibling) ?_
  refine Restores.text_then (takes_intmaxText h.nverbdefs) ?_
  rw [Int.toNat_natCast]
  refine Restores.bind (Restores.times fun v hv => restores_readVerbdef (h.verbdefs v hv)) ?_
  refine Restores.text_then (takes_intmaxText h.npropdefs) ?_
  rw [Int.toNat_natCast]
  refine Restores.bind (Restores.times fun p hp => restores_readPropdef (h.propdefs p hp)) ?_
  refine Restores.text_then (takes_intmaxText h.nprops) ?_
  rw [Int.toNat_natCast]
  refine (Restores.times fun p hp => restores_readPropval (h.propval p hp) (hv p hp)).bind_pure' ?_
  simp [Object.blank, Object.reload]

/-! ## The first line -/

lemma takes_objectFormat {oid : Nat} (h : IntRange.num.Has oid) (l : Loader) :
    Takes (dbioScxnf objectFormat) l ('#' :: decimal oid ++ ['\n']) (1, [.num oid]) l := by
  refine takes_dbioScxnf (u := '#' :: decimal oid) (by simp [objectFormat]) ?_ ?_ l
  · simp [newline_notMem_decimal]
  · have hnum : scanFormat (σ := Loader) false (.num .num :: .opt :: Fmt.text " recycled")
        (decimal oid ++ []) 1 [] = scanFormat false (.opt :: Fmt.text " recycled") [] 1 [.num oid] :=
      scanFormat_num h rfl
    rw [List.append_nil] at hnum
    simp only [objectFormat, List.cons_append, List.nil_append,
      scanFormat.eq_def false (.lit '#' :: _), List.head?_cons, if_true, lift_some, pure_bind,
      List.tail_cons, hnum]
    rfl

lemma takes_objectFormat_recycled {oid : Nat} (h : IntRange.num.Has oid) (l : Loader) :
    Takes (dbioScxnf objectFormat) l ('#' :: decimal oid ++ " recycled\n".toList)
      (2, [.num oid]) l := by
  have htext : '#' :: decimal oid ++ " recycled\n".toList
      = ('#' :: decimal oid ++ " recycled".toList) ++ ['\n'] := by
    simp
  rw [htext]
  refine takes_dbioScxnf (by simp [objectFormat]) ?_ ?_ l
  · simp [newline_notMem_decimal]
  · have hnum : scanFormat (σ := Loader) false (.num .num :: .opt :: Fmt.text " recycled")
        (decimal oid ++ " recycled".toList) 1 []
          = scanFormat false (.opt :: Fmt.text " recycled") " recycled".toList 1 [.num oid] :=
      scanFormat_num h rfl
    simp only [objectFormat, List.cons_append, List.nil_append,
      scanFormat.eq_def false (.lit '#' :: _), List.head?_cons, if_true, lift_some, pure_bind,
      List.tail_cons, hnum]
    rfl

lemma restores_readObject {oid : Nat} (hoid : IntRange.num.Has oid) {o : Option (Object P)}
    (h : ∀ x ∈ o, x.Fits ft ∧
      ∀ p ∈ x.propval, Restores ft records final n readVar [.var p.var] (p.var.rename f)) :
    Restores ft records final n (readObject intern readVar oid)
      (writeObject oid ((o.map fun x => x.propval.length).getD 0) o)
      (o.map fun x => (x.reload intern f).blank) := by
  cases o with
  | none =>
    unfold readObject writeObject
    refine Restores.text_then (takes_objectFormat_recycled hoid) ?_
    simp only [if_true, lift_some, pure_bind]
    exact Restores.pure none
  | some o =>
    obtain ⟨hfit, hv⟩ := h o rfl
    rw [Option.map_some, Option.getD_some, writeObject_some]
    refine Restores.text_then (takes_objectFormat hoid) ?_
    simp only [if_true, lift_some, pure_bind]
    exact (restores_readObjectBody hfit hv).map some

/-- The objects one after the other. -/
lemma restores_readObjects {objects : Db.Objects P}
    (h : ∀ o, some o ∈ objects → o.Fits ft ∧
      ∀ p ∈ o.propval, Restores ft records final n readVar [.var p.var] (p.var.rename f))
    (start : Nat) (hrange : IntRange.num.Has ((start + objects.length : Nat) : Int)) :
    Restores ft records final n (readObjects intern readVar start objects.length)
      ((objects.zipIdx start).flatMap fun (o, oid) =>
        writeObject oid ((o.map fun x => x.propval.length).getD 0) o)
      (objects.map (Option.map fun x => (x.reload intern f).blank)) := by
  induction objects generalizing start with
  | nil => exact Restores.pure []
  | cons o objects ih =>
    rw [List.length_cons] at hrange
    rw [List.zipIdx_cons, List.flatMap_cons]
    refine Restores.bind (restores_readObject (f := f) (hrange.of_le (by omega)) fun x hx => ?_) ?_
    · rw [Option.mem_def] at hx
      exact h x (by simp [hx])
    · refine (ih (fun x hx => h x (by simp [hx])) (start + 1) ?_).bind_pure _
      rwa [Nat.add_assoc, Nat.add_comm 1]

end LambdaMOO
