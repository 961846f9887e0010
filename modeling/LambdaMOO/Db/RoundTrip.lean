import LambdaMOO.Db.DumpSpec
import LambdaMOO.Db.FileSpec
import LambdaMOO.Db.Storage

/-!
# Dumping and loading

A well-formed database is dumped without an error, and loading the dump gives it back. The
waifs that can be reached get new names, the numbers they have in the file; everything else
is as it was.
-/

namespace LambdaMOO

open Reader

variable {P T : Type} {ft : FloatText}

namespace Db

/-! ## Well-formed databases -/

/-- A waif that can be written: its numbers are in range, its values can be written, the
waifs in them exist, and if its class is valid it has a property list that its storage
fits. -/
structure WaifFits (ft : FloatText) (db : Db P) (w : Waif) : Prop where
  cls : IntRange.num.Has w.cls
  owner : IntRange.num.Has w.owner
  values : ∀ v ∈ w.propvals.getD [], v.Fits ft
  refs : ∀ v ∈ w.propvals.getD [], ∀ q ∈ v.waifs, q < db.waifs.length
  owned : ∀ a ∈ w.propdefs, a < db.waifPropdefs.length
  listed : isValid db.objects w.cls → w.propdefs.isSome
  packed : isValid db.objects w.cls → ∀ a ∈ w.propdefs, ∀ defs, db.waifPropdefs[a]? = some defs →
    w.Packed defs.length

/-- A database whose objects and waifs can be written. The property lists of classes are up
to date, and the waifs in property values exist. -/
structure WellFormed (ft : FloatText) (db : Db P) : Prop where
  file : db.FileFits ft
  waifs : ∀ (r : Nat) (w : Waif), db.waifs[r]? = some w → WaifFits ft db w
  waifCount : db.waifs.length < 2 ^ 32
  cacheOk : CacheOk db
  lists : ∀ oid, IntRange.int.Has ((genWaifPropdefs db.objects oid).length : Nat)
  refs : ∀ o, some o ∈ db.objects → ∀ p ∈ o.propval, ∀ q ∈ p.var.waifs, q < db.waifs.length

/-- A database whose waifs can be written without an access outside of their storage. -/
structure Intact (db : Db P) : Prop where
  base : Base db
  packed : ∀ (r : Nat) (w : Waif), db.waifs[r]? = some w → isValid db.objects w.cls →
    ∀ a ∈ w.propdefs, ∀ defs, db.waifPropdefs[a]? = some defs → w.Packed defs.length
  waifCount : db.waifs.length < 2 ^ 32
  refs : ∀ o, some o ∈ db.objects → ∀ p ∈ o.propval, ∀ q ∈ p.var.waifs, q < db.waifs.length

/-- The class, the owner and the values of the properties of the waif at `r`, as the next
access to it finds them. -/
def contents (db : Db P) (r : Nat) : Option (Int × Int × List Var) := do
  let w ← db.waifs[r]?
  let (map, vals, len) ← db.reconciled w
  let us ← unpack map 0 len (vals.getD [])
  some (w.cls, w.owner, us)

variable {db : Db P}

lemma WellFormed.base (h : db.WellFormed ft) : Base db where
  cacheOk := h.cacheOk
  owned := fun r w hw => (h.waifs r w hw).owned
  listed := fun r w hw => (h.waifs r w hw).listed
  closed := fun r w hw => (h.waifs r w hw).refs

lemma WellFormed.intact (h : db.WellFormed ft) : Intact db where
  base := h.base
  packed := fun r w hw => (h.waifs r w hw).packed
  waifCount := h.waifCount
  refs := h.refs

lemma genWaifPropdefs_of_not_isValid {objects : Objects P} {oid : Int}
    (h : ¬ isValid objects oid) : genWaifPropdefs objects oid = [] := by
  have hnone : findObject objects oid = none := by simpa [isValid] using h
  unfold genWaifPropdefs
  cases objects.length with
  | zero => rfl
  | succ n => simp [ancestors, hnone]

/-- The storage of a reconciled waif fits the property list of its class. -/
lemma Intact.exists_reconciled (h : db.Intact) {r : Nat} {w : Waif}
    (hw : db.waifs[r]? = some w) :
    ∃ map vals, db.reconciled w = some (map, vals, (genWaifPropdefs db.objects w.cls).length) ∧
      (vals.getD []).length = slotCount map 0 (genWaifPropdefs db.objects w.cls).length := by
  unfold reconciled
  by_cases hv : isValid db.objects w.cls
  swap
  · simp only [hv, Bool.false_eq_true, if_false, genWaifPropdefs_of_not_isValid hv]
    exact ⟨_, _, rfl, rfl⟩
  obtain ⟨a, ha⟩ := Option.isSome_iff_exists.mp (h.base.listed r w hw hv)
  obtain ⟨defs, hdefs⟩ : ∃ defs, db.waifPropdefs[a]? = some defs :=
    ⟨_, List.getElem?_eq_getElem (h.base.owned r w hw a ha)⟩
  have hpacked := h.packed r w hw hv a ha defs hdefs
  simp only [hv, if_true, ha, hdefs, Option.map_some, Option.bind_some]
  split
  · rename_i hsync
    -- the list of the class is the one that would be generated
    have hgen := h.base.cacheOk _ a hsync.symm
    rw [hdefs, Option.some.injEq] at hgen
    rw [← hgen]
    exact ⟨_, _, rfl, by rw [slotCount_eq_countWaifPropvals hpacked.mapped, hpacked.stored]⟩
  · obtain ⟨map, vals, hrec, hnew⟩ := hpacked.reconcile (genWaifPropdefs db.objects w.cls)
    rw [hrec]
    exact ⟨map, vals, rfl, by rw [slotCount_eq_countWaifPropvals hnew.mapped]; exact hnew.stored⟩

/-- Every waif has a record that can be written and that says what the waif contains. -/
lemma WellFormed.exists_record (h : db.WellFormed ft) {r : Nat} {w : Waif}
    (hw : db.waifs[r]? = some w) :
    ∃ R, db.record r = some R ∧ R.Fits ft ∧ R.cls = w.cls ∧
      R.length = (genWaifPropdefs db.objects w.cls).length ∧
      db.contents r = some (R.cls, R.owner, flat R.props 0 R.length) := by
  have hfit := h.waifs r w hw
  obtain ⟨map, vals, hrec, hlen⟩ := h.intact.exists_reconciled hw
  obtain ⟨props, hprops, hsorted, hmem, hunpack⟩ := exists_writtenProps hlen
  refine ⟨{ cls := w.cls, owner := w.owner,
            length := (genWaifPropdefs db.objects w.cls).length, props := props },
    ?_, ?_, rfl, rfl, ?_⟩
  · simp [record, hw, hrec, hprops]
  · refine ⟨hfit.cls, hfit.owner, h.lists _, hsorted, ?_, ?_⟩
    · intro p hp
      have := (hmem p hp).2.1
      simpa using this
    · intro p hp
      rcases mem_reconciled hrec p.2 (hmem p hp).2.2 with hc | hv
      · rw [hc]
        trivial
      · exact hfit.values p.2 hv
  · simp [contents, hw, hrec, hunpack]

lemma WellFormed.record_fits (h : db.WellFormed ft) {r : Nat} {R : Record}
    (hR : db.record r = some R) : R.Fits ft := by
  cases hw : db.waifs[r]? with
  | none => simp [record, hw] at hR
  | some w =>
    obtain ⟨R', hR', hfit, _⟩ := h.exists_record hw
    rw [hR, Option.some.injEq] at hR'
    exact hR' ▸ hfit

/-! ## The dump -/

/-- The waifs that can be reached from the property values of objects and from what is
written of the tasks. -/
inductive Reachable (db : Db P) (tasks : List Piece) : Nat → Prop
  | object {o p r} : some o ∈ db.objects → p ∈ o.propval → r ∈ p.var.waifs →
      Reachable db tasks r
  | task {v r} : .var v ∈ tasks → r ∈ v.waifs → Reachable db tasks r
  | property {r cls owner us v q} : Reachable db tasks r →
      db.contents r = some (cls, owner, us) → v ∈ us → q ∈ v.waifs → Reachable db tasks q

variable {unparse : P → List Char} {tasks : List Piece}

lemma var_mem_writeDbFile {v : Var} (hv : .var v ∈ writeDbFile unparse tasks db) :
    (∃ o, some o ∈ db.objects ∧ ∃ p ∈ o.propval, p.var = v) ∨ .var v ∈ tasks := by
  simp only [writeDbFile, List.mem_append, List.mem_cons, reduceCtorEq, false_or, List.not_mem_nil,
    or_false, List.mem_map, and_false, exists_false, List.mem_flatMap, Prod.exists] at hv
  rcases hv with (⟨o, oid, hmem, hv⟩ | ⟨o, oid, hmem, hv⟩) | hv
  · have ho := (List.mem_zipIdx_iff_getElem?.mp hmem)
    cases o with
    | none => simp [writeObject] at hv
    | some o =>
      refine Or.inl ⟨o, List.mem_of_getElem? ho, ?_⟩
      simp only [writeObject, List.mem_append, List.mem_cons, reduceCtorEq, false_or,
        List.not_mem_nil, List.mem_flatMap, writeVerbdef, writePropdef, writePropval, and_false,
        exists_false, or_false, Piece.var.injEq] at hv
      obtain ⟨p, hp, rfl⟩ := hv
      exact ⟨p, List.mem_of_mem_take hp, rfl⟩
  · cases o with
    | none => simp at hv
    | some o =>
      simp only [Option.map_some, Option.getD_some, writePrograms, List.mem_flatMap] at hv
      obtain ⟨⟨v, k⟩, _, hv⟩ := hv
      cases hp : v.program <;> simp [hp] at hv
  · exact Or.inr hv

lemma WellFormed.propval_mem_writeDbFile (h : db.WellFormed ft) {o : Object P} {p : Pval}
    (ho : some o ∈ db.objects) (hp : p ∈ o.propval) :
    .var p.var ∈ writeDbFile unparse tasks db := by
  obtain ⟨oid, hget⟩ := List.getElem?_of_mem ho
  have hcount := h.file.propval oid o (findObject_of_getElem? hget)
  have hmem : .var p.var ∈ writeObject oid (countProperties db.objects oid) (some o) := by
    rw [← hcount]
    have : Piece.var p.var ∈ o.propval.flatMap writePropval :=
      List.mem_flatMap.mpr ⟨p, hp, by simp [writePropval]⟩
    simp [writeObject, this]
  have hobj : Piece.var p.var ∈ db.objects.zipIdx.flatMap (fun x =>
      writeObject x.2 (countProperties db.objects x.2) x.1) :=
    List.mem_flatMap.mpr ⟨(some o, oid), List.mk_mem_zipIdx_iff_getElem?.mpr hget, hmem⟩
  simp [writeDbFile, hobj]

lemma task_mem_writeDbFile {v : Var} (hv : .var v ∈ tasks) :
    .var v ∈ writeDbFile unparse tasks db := by
  simp [writeDbFile, hv]

lemma Intact.exists_props (h : db.Intact) {r : Nat} {w : Waif} (hw : db.waifs[r]? = some w) :
    ∃ map vals len props, db.reconciled w = some (map, vals, len) ∧
      writtenProps map 0 len (vals.getD []) = some props := by
  obtain ⟨map, vals, hrec, hlen⟩ := h.exists_reconciled hw
  obtain ⟨props, hprops, _⟩ := exists_writtenProps hlen
  exact ⟨map, vals, _, props, hrec, hprops⟩

lemma Intact.record_isSome (h : db.Intact) {r : Nat} (hr : r < db.waifs.length) :
    (db.record r).isSome := by
  obtain ⟨map, vals, len, props, hrec, hprops⟩ := h.exists_props (List.getElem?_eq_getElem hr)
  simp [record, List.getElem?_eq_getElem hr, hrec, hprops]

lemma writeVar_writesVars (ft : FloatText) (hb : Base db) (hcount : db.waifs.length < 2 ^ 32) :
    WritesVars ft db 0 (db.writeVar ft) :=
  dbioWriteVar_meets (dbioWriteWaif_meets hb hcount _ 0 (by omega))

lemma Intact.dump_refs (h : db.Intact)
    (htasks : ∀ v, .var v ∈ tasks → ∀ q ∈ v.waifs, q < db.waifs.length) :
    ∀ v, .var v ∈ writeDbFile unparse tasks db → ∀ q ∈ v.waifs, q < db.waifs.length := by
  intro v hv
  rcases var_mem_writeDbFile hv with ⟨o, ho, p, hp, rfl⟩ | hv
  · exact h.refs o ho p hp
  · exact htasks v hv

/-- A dump that nothing interrupts writes the whole file. -/
lemma Intact.dump_ok (h : db.Intact) (ft : FloatText) (unparse : P → List Char)
    (htasks : ∀ v, .var v ∈ tasks → ∀ q ∈ v.waifs, q < db.waifs.length) :
    ∃ d, db.dump ft unparse tasks none = .ok () d ∧ DumpInv db d.db d.savedWaifs ∧
      Emits ft db.record (writeDbFile unparse tasks db) [] d.output d.savedWaifs := by
  have hmeets := writePieces_meets (writeVar_writesVars ft h.base h.waifCount)
    (writeDbFile unparse tasks db)
    (d := { db := db, output := [], room := none, savedWaifs := [] }) h.base.dumpInv
    (Nat.zero_le _) (h.dump_refs htasks)
  unfold Meets at hmeets
  unfold dump
  split at hmeets
  · rename_i u d heq
    obtain ⟨hinv, _, _, t, ht, he⟩ := hmeets
    rw [List.nil_append] at ht
    exact ⟨d, heq, hinv, ht ▸ he⟩
  · exact absurd rfl hmeets.2
  · obtain ⟨r, hr, hnone⟩ := hmeets
    have := h.record_isSome hr
    rw [hnone] at this
    cases this

/-- The dump numbers every waif that can be reached. -/
lemma WellFormed.mem_of_reachable (h : db.WellFormed ft) {t : List Char} {saved : List Nat}
    (he : Emits ft db.record (writeDbFile unparse tasks db) [] t saved)
    (hbound : ∀ r ∈ saved, r < db.waifs.length) {r : Nat} (hr : Reachable db tasks r) :
    r ∈ saved := by
  induction hr with
  | object ho hp hr => exact he.covered _ (h.propval_mem_writeDbFile ho hp) _ hr
  | task hv hr => exact he.covered _ (task_mem_writeDbFile hv) _ hr
  | @property r cls owner us v q _ hc hv hq ih =>
    obtain ⟨R, hR, _, _, _, hcR⟩ := h.exists_record (List.getElem?_eq_getElem (hbound r ih))
    obtain rfl : flat R.props 0 R.length = us := by
      rw [hcR, Option.some.injEq, Prod.mk.injEq, Prod.mk.injEq] at hc
      exact hc.2.2
    obtain ⟨j, _, rfl⟩ := List.mem_map.mp hv
    -- a value with a waif in it is not clear, so it was recorded
    unfold valueAt at hq
    cases hfind : R.props.find? (fun p => p.1 = j) with
    | none => simp [hfind, Var.waifs] at hq
    | some p =>
      simp only [hfind, Option.map_some, Option.getD_some] at hq
      exact he.closed r ih (by simp) R hR p (List.mem_of_find?_eq_some hfind) q hq

/-! ## The hooks after loading -/

/-- The first `n` waifs have got the property lists of their classes; the others have none
yet. -/
structure Backfilled (db₀ db : Db P) (n : Nat) : Prop where
  grown : Grown db₀ db
  cacheOk : CacheOk db
  length : db.waifs.length = db₀.waifs.length
  waifs : ∀ (j : Nat) (w : Waif), db₀.waifs[j]? = some w →
    ∃ pd, db.waifs[j]? = some { w with propdefs := pd } ∧
      if j < n then InSync db w.cls pd (genWaifPropdefs db₀.objects w.cls).length else pd = none

lemma Backfilled.backfill {db₀ db : Db P} {n : Nat} (h : Backfilled db₀ db n) :
    Backfilled db₀ (backfill db n) (n + 1) := by
  unfold LambdaMOO.backfill
  -- a step that leaves the waifs before `n` and behind it as they are
  have hstep : ∀ db' : Db P, Grown db db' → CacheOk db' → db'.waifs.length = db.waifs.length →
      (∀ j, j ≠ n → db'.waifs[j]? = db.waifs[j]?) →
      (∀ w, db₀.waifs[n]? = some w → ∃ pd, db'.waifs[n]? = some { w with propdefs := pd } ∧
        InSync db' w.cls pd (genWaifPropdefs db₀.objects w.cls).length) →
      Backfilled db₀ db' (n + 1) := by
    intro db' hg hc hlen hother hn
    refine ⟨h.grown.trans hg, hc, hlen.trans h.length, ?_⟩
    intro j w hw
    by_cases hj : j = n
    · subst hj
      obtain ⟨pd, hpd, hsync⟩ := hn w hw
      exact ⟨pd, hpd, by rwa [if_pos (Nat.lt_succ_self j)]⟩
    · obtain ⟨pd, hpd, hsync⟩ := h.waifs j w hw
      refine ⟨pd, (hother j hj).trans hpd, ?_⟩
      by_cases hlt : j < n
      · rw [if_pos hlt] at hsync
        rw [if_pos (by omega)]
        exact hsync.grown hg
      · rw [if_neg hlt] at hsync
        rwa [if_neg (by omega)]
  cases hw : db.waifs[n]? with
  | none =>
    refine hstep db (Grown.refl db) h.cacheOk rfl (fun _ _ => rfl) fun w hw₀ => ?_
    obtain ⟨pd, hpd, _⟩ := h.waifs n w hw₀
    rw [hw] at hpd
    cases hpd
  | some w =>
    dsimp only
    cases ho : findObject db.objects w.cls with
    | none =>
      refine hstep db (Grown.refl db) h.cacheOk rfl (fun _ _ => rfl) fun w₀ hw₀ => ?_
      obtain ⟨pd, hpd, hnone⟩ := h.waifs n w₀ hw₀
      rw [if_neg (Nat.lt_irrefl n)] at hnone
      obtain rfl : { w₀ with propdefs := pd } = w := by simpa [hw] using hpd.symm
      have hv : isValid db.objects w₀.cls = false := by simp [isValid, ho]
      have hgen : genWaifPropdefs db₀.objects w₀.cls = [] := by
        rw [← genWaifPropdefs_congr h.grown.objects]
        exact genWaifPropdefs_of_not_isValid (by simp [hv])
      refine ⟨pd, hpd, ?_⟩
      simp [InSync, hv, hnone, hgen]
    | some o =>
      have hlist := classPropdefs_spec h.cacheOk ho
      dsimp only
      generalize db.classPropdefs w.cls o = p at hlist ⊢
      obtain ⟨new, db'⟩ := p
      obtain ⟨hg, hc', hnew, hnewList, hwaifs⟩ := hlist
      dsimp only at hg hc' hnew hnewList hwaifs ⊢
      have hlt := (List.getElem?_eq_some_iff.mp hw).1
      refine hstep _ (hg.setWaifs _) hc' (by simp [hwaifs]) (fun j hj => ?_) fun w₀ hw₀ => ?_
      · simp only [hwaifs, List.getElem?_set_ne (Ne.symm hj)]
      · obtain ⟨pd, hpd, _⟩ := h.waifs n w₀ hw₀
        obtain rfl : { w₀ with propdefs := pd } = w := by simpa [hw] using hpd.symm
        refine ⟨some new, by simp [hwaifs, hlt], ?_⟩
        have hv : isValid db'.objects w₀.cls = true := by
          rw [isValid_congr hg.objects]
          simp [isValid, ho]
        simp only [InSync, hv, if_true]
        refine ⟨new, _, rfl, hnew, hnewList, ?_⟩
        rw [genWaifPropdefs_congr h.grown.objects]

lemma backfilled_waifAfterLoading {db : Db P} (hc : CacheOk db)
    (hnone : ∀ w ∈ db.waifs, w.propdefs = none) :
    Backfilled db (waifAfterLoading db) db.waifs.length := by
  unfold waifAfterLoading
  have hstart : Backfilled db db 0 := by
    refine ⟨Grown.refl db, hc, rfl, fun j w hw => ⟨none, ?_, by simp⟩⟩
    rw [hw, ← hnone w (List.mem_of_getElem? hw)]
  generalize db.waifs.length = n
  induction n with
  | zero => exact hstart
  | succ n ih =>
    rw [List.range_succ, List.foldl_append]
    exact ih.backfill

/-- A waif in step with its class contains what its storage says. -/
lemma InSync.contents_eq {db : Db P} {r : Nat} {w : Waif} {len : Nat}
    (h : InSync db w.cls w.propdefs len) (hw : db.waifs[r]? = some w) {us : List Var}
    (hus : unpack w.pmap 0 len (w.propvals.getD []) = some us) :
    db.contents r = some (w.cls, w.owner, us) := by
  unfold contents reconciled
  simp only [hw, Option.bind_eq_bind, Option.bind_some]
  unfold InSync at h
  by_cases hv : isValid db.objects w.cls
  · simp only [hv, if_true] at h ⊢
    obtain ⟨a, defs, hpd, hcache, hdefs, rfl⟩ := h
    simp only [hpd, hcache, if_true, hdefs, Option.map_some, Option.bind_some, hus]
  · simp only [hv, Bool.false_eq_true, if_false] at h ⊢
    obtain ⟨_, rfl⟩ := h
    obtain rfl : [] = us := by simpa [unpack] using hus
    rfl

/-! ## Loading a dump -/

section Load

variable {intern : String → Nat} {parse : Reader Loader P} {readTasks : Reader Loader T}
  {back : (Nat → Nat) → T}

lemma genWaifPropdefs_reload (objects : Objects P) (f : Nat → Nat) (oid : Int) :
    genWaifPropdefs (objects.map (Option.map (Object.reload intern f))) oid
      = (genWaifPropdefs objects oid).map (Propdef.reload intern) := by
  unfold genWaifPropdefs
  rw [List.length_map, ancestors_map (g := Object.reload intern f) (fun _ => rfl), List.flatMap_map, List.map_flatMap]
  apply List.flatMap_congr
  intro o _
  rw [Object.reload, List.filter_map]
  rfl

/-- Loading the dump of a well-formed database gives the objects, the users and the tasks,
and each waif under its number. -/
lemma WellFormed.load_dump (h : db.WellFormed ft)
    (hrefs : ∀ v, .var v ∈ tasks → ∀ q ∈ v.waifs, q < db.waifs.length)
    (hparse : ∀ p l, Takes parse l (unparse p) p l) (htasks : TasksBack ft readTasks tasks back) :
    ∃ d db', db.dump ft unparse tasks none = .ok () d ∧
      dbLoad intern ft parse readTasks d.output = some (db', back d.savedWaifs.idxOf) ∧
      bareObjects db'.objects
        = db.objects.map (Option.map (Object.reload intern d.savedWaifs.idxOf)) ∧
      db'.allUsers = db.allUsers ∧ d.savedWaifs.Nodup ∧
      (∀ r, Reachable db tasks r → r ∈ d.savedWaifs) ∧
      ∀ (i r : Nat), d.savedWaifs[i]? = some r → ∃ cls owner us,
        db.contents r = some (cls, owner, us) ∧
        db'.contents i = some (cls, owner, us.map (Var.rename d.savedWaifs.idxOf)) := by
  obtain ⟨d, hd, hinv, he⟩ := h.intact.dump_ok ft unparse hrefs
  have hnodup := hinv.nodup
  have hlen := hinv.length_le
  have hbound := hinv.bound
  let f := d.savedWaifs.idxOf
  have huint : IntRange.uint.Has (d.savedWaifs.length : Nat) := by
    have hcount := h.waifCount
    exact IntRange.Has.of_le (j := 2 ^ 32 - 1) (by decide) (by omega)
  have hread := takes_readDbFile intern h.file (fun _ _ => h.record_fits) huint hparse
    htasks he (Nat.le_refl _) []
  rw [List.append_nil] at hread
  let db₀ : Db P :=
    { objects := db.objects.map (Option.map (Object.reload intern f)), allUsers := db.allUsers,
      waifs := d.savedWaifs.map (loadedWaif db.record d.savedWaifs), waifPropdefs := [] }
  have hcache : CacheOk db₀ := by
    intro oid a ha
    simp only [cacheOf, db₀, findObject_map] at ha
    cases ho : findObject db.objects oid <;> simp [ho, Object.reload] at ha
  have hnone : ∀ w ∈ db₀.waifs, w.propdefs = none := by
    intro w hw
    obtain ⟨r, _, rfl⟩ := List.mem_map.mp hw
    unfold loadedWaif
    cases db.record r <;> rfl
  have hback := backfilled_waifAfterLoading hcache hnone
  refine ⟨d, waifAfterLoading db₀, hd, ?_, ?_, hback.grown.allUsers, hnodup,
    fun r hr => h.mem_of_reachable he hbound hr, ?_⟩
  · unfold dbLoad
    rw [hread]
    rfl
  · rw [hback.grown.objects]
    simp only [db₀, bareObjects, List.map_map, Function.comp_def, Option.map_map]
    rfl
  · intro i r hi
    obtain ⟨R, hR, hfit, hcls, hlength, hc⟩ := h.exists_record
      (List.getElem?_eq_getElem (hbound r (List.mem_of_getElem? hi)))
    have hw : db₀.waifs[i]? = some (R.waif f) := by
      simp [db₀, List.getElem?_map, hi, loadedWaif, hR, f]
    have hlt : i < db₀.waifs.length := (List.getElem?_eq_some_iff.mp hw).1
    obtain ⟨pd, hpd, hsync⟩ := hback.waifs i _ hw
    have hgen : (genWaifPropdefs db₀.objects R.cls).length = R.length := by
      rw [genWaifPropdefs_reload, List.length_map, hlength, hcls]
    rw [if_pos hlt, Record.waif, hgen] at hsync
    refine ⟨_, _, _, hc, InSync.contents_eq hsync hpd ?_⟩
    show unpack R.map 0 R.length (R.slots.map (Var.rename f)) = _
    rw [unpack_rename, hfit.unpack_slots]
    rfl

end Load

end Db

/-! ## Values on their own -/

/-- A part of a dump that prints `t` and changes nothing else. -/
def Prints (w : Writer P Unit) (t : List Char) : Prop :=
  ∀ d : Dumper P, d.room = none → w d = .ok () { d with output := d.output ++ t }

lemma prints_dbioPrintf (t : List Char) : Prints (dbioPrintf t : Writer P Unit) t := by
  intro d hd
  simp [dbioPrintf, hd]

lemma Prints.bind {w w' : Writer P Unit} {t t' : List Char} (h : Prints w t) (h' : Prints w' t') :
    Prints (w >>= fun _ => w') (t ++ t') := by
  intro d hd
  have hrest := h' { d with output := d.output ++ t } hd
  simp only [Bind.bind, EStateM.bind, h d hd]
  rw [hrest, List.append_assoc]

mutual
/-- The text of a value without waifs. -/
lemma exists_prints_dbioWriteVar (ft : FloatText) (writeWaif : Nat → Writer P Unit)
    (records : Nat → Option Record) (s : List Nat) :
    ∀ v : Var, v.waifs = [] → ∃ t, Prints (dbioWriteVar ft writeWaif v) t ∧
      Emits ft records [.var v] s t s
  | .clear, _ => ⟨_, prints_dbioPrintf _, .scalar_one rfl s⟩
  | .none, _ => ⟨_, prints_dbioPrintf _, .scalar_one rfl s⟩
  | .str _, _ => ⟨_, (prints_dbioPrintf _).bind (prints_dbioPrintf _), .scalar_one rfl s⟩
  | .err _, _ => ⟨_, (prints_dbioPrintf _).bind (prints_dbioPrintf _), .scalar_one rfl s⟩
  | .obj _, _ => ⟨_, (prints_dbioPrintf _).bind (prints_dbioPrintf _), .scalar_one rfl s⟩
  | .int _, _ => ⟨_, (prints_dbioPrintf _).bind (prints_dbioPrintf _), .scalar_one rfl s⟩
  | .catchMark _, _ => ⟨_, (prints_dbioPrintf _).bind (prints_dbioPrintf _), .scalar_one rfl s⟩
  | .finallyMark _, _ => ⟨_, (prints_dbioPrintf _).bind (prints_dbioPrintf _), .scalar_one rfl s⟩
  | .float _, _ => ⟨_, (prints_dbioPrintf _).bind (prints_dbioPrintf _), .scalar_one rfl s⟩
  | .list vs, h => by
    obtain ⟨t, ht, he⟩ := exists_prints_dbioWriteVars ft writeWaif records s vs h
    unfold dbioWriteVar
    refine ⟨_, (prints_dbioPrintf _).bind ((prints_dbioPrintf _).bind ht), .list ?_⟩
    rw [List.append_nil]
    exact .text (.text he)
  | .waif _, h => by simp [Var.waifs] at h

lemma exists_prints_dbioWriteVars (ft : FloatText) (writeWaif : Nat → Writer P Unit)
    (records : Nat → Option Record) (s : List Nat) :
    ∀ vs : List Var, Var.waifsOf vs = [] → ∃ t, Prints (dbioWriteVars ft writeWaif vs) t ∧
      Emits ft records (vs.map .var) s t s
  | [], _ => ⟨[], fun d _ => by simp [dbioWriteVars, pure, EStateM.pure], .nil⟩
  | v :: vs, h => by
    rw [Var.waifsOf, List.append_eq_nil_iff] at h
    obtain ⟨t, ht, he⟩ := exists_prints_dbioWriteVar ft writeWaif records s v h.1
    obtain ⟨t', ht', he'⟩ := exists_prints_dbioWriteVars ft writeWaif records s vs h.2
    unfold dbioWriteVars
    exact ⟨_, ht.bind ht', he.append he'⟩
end

/-- `dbio_read_var` undoes `dbio_write_var` on a value without waifs, and takes exactly what
was written. -/
lemma dbioReadVar_dbioWriteVar {v : Var} (hv : v.Fits ft) (hw : v.waifs = [])
    (writeWaif : Nat → Writer P Unit) :
    ∃ t, Prints (dbioWriteVar ft writeWaif v) t ∧
      ∀ (n : Nat) (l : Loader), t.length ≤ n → Takes (dbioReadVar ft n) l t v l := by
  obtain ⟨t, ht, _⟩ := exists_prints_dbioWriteVar ft writeWaif (fun _ => none) [] v hw
  refine ⟨t, ht, fun n l hn => ?_⟩
  obtain ⟨t', ht', he⟩ := exists_prints_dbioWriteVar ft writeWaif (fun _ => none)
    (List.range l.savedWaifs.length) v hw
  obtain rfl : t = t' := by
    have h₁ := ht { db := ⟨[], [], [], []⟩, output := [], room := none, savedWaifs := [] } rfl
    rw [ht' _ rfl] at h₁
    simpa using h₁.symm
  have hread := restores_dbioReadVar (by simp) n n (Nat.le_refl n) v hv (Or.inl hw)
    _ t _ hn he List.prefix_rfl l (by simp)
  rwa [Loader.grow_self, Var.rename_of_waifs_nil _ v hw] at hread

/-! ## Main results -/

section Main

open Db

variable {db : Db P} {unparse : P → List Char} {tasks : List Piece} {parse : Reader Loader P}
  {readTasks : Reader Loader T} {back : (Nat → Nat) → T}

/-- Dumping and then loading is the identity on data. The objects come back with all they
have, recycled numbers where they were, and the users; only the addresses of property names
and the names of waifs are new, and the property lists of classes are generated again. A
value without waifs is read back as it is, wherever it stands. -/
theorem dbLoad_dump (intern : String → Nat) (h : db.WellFormed ft)
    (hrefs : ∀ v, .var v ∈ tasks → ∀ q ∈ v.waifs, q < db.waifs.length)
    (hparse : ∀ p l, Takes parse l (unparse p) p l) (htasks : TasksBack ft readTasks tasks back) :
    (∃ d db', db.dump ft unparse tasks none = .ok () d ∧
      dbLoad intern ft parse readTasks d.output = some (db', back d.savedWaifs.idxOf) ∧
      bareObjects db'.objects
        = db.objects.map (Option.map (Object.reload intern d.savedWaifs.idxOf)) ∧
      db'.allUsers = db.allUsers) ∧
    ∀ v : Var, v.Fits ft → v.waifs = [] → ∀ writeWaif : Nat → Writer P Unit,
      ∃ t, Prints (dbioWriteVar ft writeWaif v) t ∧
        ∀ (n : Nat) (l : Loader), t.length ≤ n → Takes (dbioReadVar ft n) l t v l := by
  obtain ⟨d, db', hd, hload, hobjects, husers, _⟩ := h.load_dump hrefs hparse htasks
  exact ⟨⟨d, db', hd, hload, hobjects, husers⟩,
    fun v hv hw writeWaif => dbioReadVar_dbioWriteVar hv hw writeWaif⟩

/-- Dumping and then loading keeps the waifs that can be reached: the class, the owner and
the value of each property, and which references are to the same waif. The reader gives up
at an index it does not expect, and the waif written with the index `i` is the one that it
knows by `i`. -/
theorem dbLoad_dump_waifs (intern : String → Nat) (h : db.WellFormed ft)
    (hrefs : ∀ v, .var v ∈ tasks → ∀ q ∈ v.waifs, q < db.waifs.length)
    (hparse : ∀ p l, Takes parse l (unparse p) p l) (htasks : TasksBack ft readTasks tasks back) :
    ∃ d db', db.dump ft unparse tasks none = .ok () d ∧
      dbLoad intern ft parse readTasks d.output = some (db', back d.savedWaifs.idxOf) ∧
      bareObjects db'.objects
        = db.objects.map (Option.map (Object.reload intern d.savedWaifs.idxOf)) ∧
      (∀ i r, d.savedWaifs[i]? = some r → d.savedWaifs.idxOf r = i) ∧
      (∀ r, Reachable db tasks r → ∃ cls owner us, db.contents r = some (cls, owner, us) ∧
        db'.contents (d.savedWaifs.idxOf r)
          = some (cls, owner, us.map (Var.rename d.savedWaifs.idxOf))) ∧
      ∀ q r, Reachable db tasks q → Reachable db tasks r →
        (d.savedWaifs.idxOf q = d.savedWaifs.idxOf r ↔ q = r) := by
  obtain ⟨d, db', hd, hload, hobjects, _, hnodup, hreach, hcontents⟩ :=
    h.load_dump hrefs hparse htasks
  refine ⟨d, db', hd, hload, hobjects, ?_, ?_, ?_⟩
  · intro i r hi
    obtain ⟨hlt, hget⟩ := List.getElem?_eq_some_iff.mp hi
    rw [← hget, hnodup.idxOf_getElem]
  · intro r hr
    exact hcontents _ r (List.getElem?_idxOf (hreach r hr))
  · intro q r hq hr
    exact List.idxOf_inj (hreach q hq)

end Main

/-! ## A small database -/

section Sample

open Db

/-- A class with one property for its waifs, and a waif of it that holds itself. -/
def sampleObject : Object Unit :=
  { name := "Root", flags := 7, owner := 0, location := -1, contents := -1, next := -1,
    parent := -1, child := -1, sibling := -1,
    verbdefs := [{ name := "test", owner := 0, perms := 5, prep := -1, program := some () }],
    propdefs := [⟨1, ":self"⟩, ⟨2, "stock"⟩],
    propval := [⟨.clear, 0, 3⟩, ⟨.list [.waif 0, .str "two", .waif 0], 0, 3⟩],
    waifPropdefs := some 0 }

def sampleWaif : Waif :=
  { cls := 0, owner := 0, propdefs := some 0, propvals := some [.waif 0], pmap := 1 }

def sampleDb : Db Unit :=
  { objects := [some sampleObject, none], allUsers := [0], waifs := [sampleWaif],
    waifPropdefs := [[⟨1, ":self"⟩]] }

/-- The text of an empty program. -/
def sampleUnparse : Unit → List Char := fun _ => ['.', '\n']

def sampleParse : Reader Loader Unit := do
  let _ ← dbioScxnf [.lit '.']
  pure ()

/-- An empty task queue and no connections. -/
def sampleTasks : List Piece :=
  [.text "0 clocks\n".toList, .text "0 queued tasks\n".toList, .text "0 suspended tasks\n".toList,
    .text "0 active connections with listeners\n".toList]

def sampleReadTasks : Reader Loader Unit := do
  let _ ← dbioScxnf (.num .int :: Fmt.text " clocks")
  let _ ← dbioScxnf (.num .int :: Fmt.text " queued tasks")
  let _ ← dbioScxnf (.num .int :: Fmt.text " suspended tasks")
  let _ ← dbioScxnf (.num .int :: Fmt.text " active connections with listeners")
  pure ()

def sampleFloats : FloatText := { print := fun _ => ['0'], strtoflnum := fun s => (none, s) }

lemma findObject_sample {oid : Int} {o : Object Unit}
    (h : findObject sampleDb.objects oid = some o) : oid = 0 ∧ o = sampleObject := by
  obtain ⟨hpos, hget⟩ := findObject_eq_some h
  match hk : oid.toNat, hget with
  | 0, hget => exact ⟨by omega, by simpa [sampleDb] using hget.symm⟩
  | 1, hget => simp [sampleDb] at hget
  | k + 2, hget => simp [sampleDb] at hget

lemma forest_sample {links : Links Unit} (hup : links.up sampleObject = nothing)
    (hdown : links.down sampleObject = nothing) (hacross : links.across sampleObject = nothing) :
    Forest sampleDb.objects links where
  up := by
    intro oid o ho
    obtain ⟨rfl, rfl⟩ := findObject_sample ho
    exact ⟨[], hup⟩
  down := by
    intro oid o ho
    obtain ⟨rfl, rfl⟩ := findObject_sample ho
    refine ⟨[], hdown, fun k ok hok => ?_⟩
    obtain ⟨rfl, rfl⟩ := findObject_sample hok
    simp [hup, nothing]
  alone := by
    intro oid o ho _
    obtain ⟨rfl, rfl⟩ := findObject_sample ho
    exact hacross

lemma fileFits_sample : sampleDb.FileFits sampleFloats where
  sound := by
    refine ⟨forest_sample rfl rfl rfl, forest_sample rfl rfl rfl, fun oid o ho i hi => ?_⟩
    obtain ⟨rfl, rfl⟩ := findObject_sample ho
    by_cases hlt : i < 16
    · unfold flagFirstTemp at hi
      interval_cases i <;> rfl
    · exact BitVec.getLsbD_of_ge _ i (Nat.not_lt.mp hlt)
  objects := by
    intro o ho
    obtain rfl : o = sampleObject := by simpa [sampleDb] using ho
    refine ⟨by decide, by decide, by decide, by decide, by decide, by decide, by decide,
      by decide, by decide, by decide, by decide, ?_, ?_, ?_⟩
    · intro v hv
      obtain rfl : v = _ := by simpa [sampleObject] using hv
      exact ⟨by decide, by decide⟩
    · intro p hp
      simp only [sampleObject, List.mem_cons, List.not_mem_nil, or_false] at hp
      rcases hp with rfl | rfl <;> decide
    · intro p hp
      simp only [sampleObject, List.mem_cons, List.not_mem_nil, or_false] at hp
      rcases hp with rfl | rfl
      · exact ⟨trivial, by decide⟩
      · exact ⟨⟨by decide, trivial, by simp [Var.Fits], trivial, trivial⟩, by decide⟩
  propval := by
    intro oid o ho
    obtain ⟨rfl, rfl⟩ := findObject_sample ho
    rfl
  nobjs := by decide
  nprogs := by decide
  nusers := by decide
  users := by
    intro u hu
    obtain rfl : u = 0 := by simpa [sampleDb] using hu
    decide

lemma genWaifPropdefs_sample (oid : Int) : genWaifPropdefs sampleDb.objects oid
    = if oid = 0 then [⟨1, ":self"⟩] else [] := by
  split
  · rename_i h
    subst h
    rfl
  · rename_i h
    apply genWaifPropdefs_of_not_isValid
    intro hv
    obtain ⟨o, ho⟩ := Option.isSome_iff_exists.mp hv
    exact h (findObject_sample ho).1

lemma wellFormed_sample : sampleDb.WellFormed sampleFloats where
  file := fileFits_sample
  waifs := by
    intro r w hw
    obtain rfl : w = sampleWaif := by
      have := List.mem_of_getElem? hw
      simpa [sampleDb] using this
    refine ⟨by decide, by decide, ?_, ?_, ?_, fun _ => rfl, ?_⟩
    · simp [sampleWaif, Var.Fits]
    · simp [sampleWaif, Var.waifs, sampleDb]
    · simp [sampleWaif, sampleDb]
    · intro _ a ha defs hdefs
      obtain rfl : a = 0 := by simpa [sampleWaif, eq_comm] using ha
      obtain rfl : defs = [⟨1, ":self"⟩] := by simpa [sampleDb, eq_comm] using hdefs
      refine ⟨?_, by decide⟩
      intro i hi
      by_contra hne
      have : BitVec.getLsbD (1 : BitVec nMappableProps) i = false := by
        have hone : (1 : BitVec nMappableProps) = BitVec.ofNat nMappableProps 1 := rfl
        rw [hone, BitVec.getLsbD_one]
        simp at hne
        simp [hne]
      simp_all [propMapped, sampleWaif]
  waifCount := by decide
  cacheOk := by
    intro oid a ha
    obtain ⟨o, ho, hw⟩ := Option.bind_eq_some_iff.mp ha
    obtain ⟨rfl, rfl⟩ := findObject_sample ho
    cases hw
    rfl
  lists := by
    intro oid
    rw [genWaifPropdefs_sample]
    split <;> decide
  refs := by
    intro o ho p hp
    obtain rfl : o = sampleObject := by simpa [sampleDb] using ho
    simp only [sampleObject, List.mem_cons, List.not_mem_nil, or_false] at hp
    rcases hp with rfl | rfl <;> simp [Var.waifs, Var.waifsOf, sampleDb]

lemma sampleParse_takes (p : Unit) (l : Loader) :
    Takes sampleParse l (sampleUnparse p) p l :=
  (takes_dot l).bind_last (Takes.pure _ l)

lemma tasksBack_sample : TasksBack sampleFloats sampleReadTasks sampleTasks fun _ => () := by
  intro records final n _ _
  refine Restores.text_then (fun l => takes_dbioScxnf (u := "0 clocks".toList) (by simp)
    (by decide) rfl l) ?_
  refine Restores.text_then (fun l => takes_dbioScxnf (u := "0 queued tasks".toList) (by simp)
    (by decide) rfl l) ?_
  refine Restores.text_then (fun l => takes_dbioScxnf (u := "0 suspended tasks".toList) (by simp)
    (by decide) rfl l) ?_
  exact (Restores.text fun l => takes_dbioScxnf
    (u := "0 active connections with listeners".toList) (by simp) (by decide) rfl l).bind_pure _

def sampleIntern (s : String) : Nat := if s = ":self" then 11 else 12

theorem dbLoad_dump_sample :
    (∃ d db', sampleDb.dump sampleFloats sampleUnparse sampleTasks none = .ok () d ∧
      dbLoad sampleIntern sampleFloats sampleParse sampleReadTasks d.output = some (db', ()) ∧
      bareObjects db'.objects
        = sampleDb.objects.map (Option.map (Object.reload sampleIntern d.savedWaifs.idxOf)) ∧
      db'.allUsers = sampleDb.allUsers) ∧
    ∀ v : Var, v.Fits sampleFloats → v.waifs = [] → ∀ writeWaif : Nat → Writer Unit Unit,
      ∃ t, Prints (dbioWriteVar sampleFloats writeWaif v) t ∧
        ∀ (n : Nat) (l : Loader), t.length ≤ n → Takes (dbioReadVar sampleFloats n) l t v l :=
  dbLoad_dump sampleIntern wellFormed_sample (by simp [sampleTasks]) sampleParse_takes
    tasksBack_sample

theorem dbLoad_dump_waifs_sample :
    Reachable sampleDb sampleTasks 0 ∧
    ∃ d db', sampleDb.dump sampleFloats sampleUnparse sampleTasks none = .ok () d ∧
      dbLoad sampleIntern sampleFloats sampleParse sampleReadTasks d.output = some (db', ()) ∧
      ∃ cls owner us, sampleDb.contents 0 = some (cls, owner, us) ∧
        db'.contents (d.savedWaifs.idxOf 0)
          = some (cls, owner, us.map (Var.rename d.savedWaifs.idxOf)) := by
  have hreach : Reachable sampleDb sampleTasks 0 :=
    .object (o := sampleObject) (p := ⟨.list [.waif 0, .str "two", .waif 0], 0, 3⟩)
      (by simp [sampleDb]) (by simp [sampleObject]) (by simp [Var.waifs, Var.waifsOf])
  obtain ⟨d, db', hd, hload, _, _, hcontents, _⟩ := dbLoad_dump_waifs sampleIntern
    wellFormed_sample (by simp [sampleTasks]) sampleParse_takes tasksBack_sample
  exact ⟨hreach, d, db', hd, hload, hcontents 0 hreach⟩

end Sample

end LambdaMOO
