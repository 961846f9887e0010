import LambdaMOO.Db.ObjectSpec
import LambdaMOO.Db.HierarchySpec

/-!
# The file is read back

`read_db_file` on the text of `write_db_file`: the header and the counts, the users, the
objects, their programs and the tasks.
-/

namespace LambdaMOO

open Reader

variable {P T : Type} {ft : FloatText} {records : Nat → Option Record} {final : List Nat} {n : Nat}

/-! ## Header and counts -/

lemma takes_readHeader (l : Loader) :
    Takes readHeader l (headerText currentDbVersion ++ ['\n']) ()
      { l with version := currentDbVersion } := by
  have hscan : Takes (dbioScxnf headerFormat) l (headerText currentDbVersion ++ ['\n'])
      (1, [.num 4]) l :=
    takes_dbioScxnf (by simp [headerFormat, Fmt.text]) (by decide) rfl l
  intro rest
  have hhead : (headerText currentDbVersion ++ ['\n'] ++ rest).head? = some '*' := rfl
  unfold readHeader
  simp only [hhead, if_true, hscan rest]
  rfl

/-- A line of a format with a number on it and nothing else. -/
lemma takes_scanFormat_num {range : IntRange} {i : Int} (h : range.Has i) {fc : List Fmt}
    {skip : Bool} {k : Nat} {out : List Field} {a : Nat × List Field} {t : List Char} {l : Loader}
    (ht : Takes (scanFormat false fc [] k (.num i :: out)) l t a l) {lc : List Char}
    (hskip : skip = true ∨ lc = []) :
    Takes (scanFormat skip (.newline :: .num range :: fc) lc k out) l (intmaxText i ++ t) a l := by
  refine takes_scanFormat_newline (by simp) (newline_notMem_decimal i) hskip ?_
  have hnum : scanFormat (σ := Loader) false (.num range :: fc) (decimal i ++ []) k out
      = scanFormat false fc [] k (.num i :: out) := scanFormat_num h rfl
  rw [List.append_nil] at hnum
  rwa [hnum]

lemma takes_countsFormat {i j k : Nat} (hi : IntRange.unum.Has i) (hj : IntRange.unum.Has j)
    (hk : IntRange.unum.Has k) (l : Loader) :
    Takes (dbioScxnf countsFormat) l
      (intmaxText i ++ (intmaxText j ++ (intmaxText 0 ++ intmaxText k)))
      (1, [.num i, .num j, .num k]) l := by
  have hlast : Takes (scanFormat false [.newline, .num .unum] [] 1 [.num j, .num i]) l
      (intmaxText k ++ []) (1, [.num i, .num j, .num k]) l :=
    takes_scanFormat_num hk (Takes.pure _ l) (Or.inr rfl)
  rw [List.append_nil] at hlast
  refine takes_scanFormat_num hi (takes_scanFormat_num hj ?_ (Or.inr rfl)) (Or.inl rfl)
  have hzero : intmaxText 0 ++ intmaxText k = ['0'] ++ ['\n'] ++ intmaxText k := rfl
  rw [hzero]
  exact takes_scanFormat_newline (by simp) (by decide) (Or.inr rfl) hlast

/-! ## Programs -/

section Programs

variable {unparse : P → List Char} {parse : Reader Loader P}

/-- The lines of the programs among the verbs `vs`, of which the first has the number `k`. -/
def programPieces (unparse : P → List Char) (oid k : Nat) (vs : List (Verbdef P)) : List Piece :=
  (vs.zipIdx k).flatMap fun (v, vcount) =>
    match v.program with
    | none => []
    | some p =>
      [.text ('#' :: decimal oid ++ ':' :: decimal vcount ++ ['\n']), .text (unparse p)]

lemma takes_programFormat {oid vnum : Nat} (hoid : IntRange.num.Has oid)
    (hvnum : IntRange.num.Has vnum) (l : Loader) :
    Takes (dbioScxnf programFormat) l ('#' :: decimal oid ++ ':' :: decimal vnum ++ ['\n'])
      (1, [.num oid, .num vnum]) l := by
  refine takes_dbioScxnf (u := '#' :: decimal oid ++ ':' :: decimal vnum)
    (by simp [programFormat]) ?_ ?_ l
  · simp [newline_notMem_decimal]
  · have h₁ : scanFormat (σ := Loader) false [.num .num, .lit ':', .num .num]
        (decimal oid ++ ':' :: decimal vnum) 1 []
          = scanFormat false [.lit ':', .num .num] (':' :: decimal vnum) 1 [.num oid] :=
      scanFormat_num hoid rfl
    have h₂ : scanFormat (σ := Loader) false [.num .num] (decimal vnum ++ []) 1 [.num oid]
          = scanFormat false [] [] 1 [.num vnum, .num oid] := scanFormat_num hvnum rfl
    rw [List.append_nil] at h₂
    simp only [programFormat, List.cons_append, scanFormat.eq_def false (.lit '#' :: _),
      List.head?_cons, if_true, lift_some, pure_bind, List.tail_cons, h₁,
      scanFormat.eq_def false (.lit ':' :: _), h₂]
    rfl

lemma modify_append_length {α : Type} (front : List α) (x : α) (rest : List α) (g : α → α) :
    (front ++ x :: rest).modify front.length g = front ++ g x :: rest := by
  induction front with
  | nil => rfl
  | cons y front ih => simp [ih]

lemma setProgram_append (o : Object P) (front vs : List (Verbdef P)) (v : Verbdef P) {p : P}
    (hp : v.program = some p) :
    ({ o with verbdefs := front ++ v.blank :: vs } : Object P).setProgram front.length p
      = { o with verbdefs := front ++ v :: vs } := by
  obtain ⟨name, owner, perms, prep, program⟩ := v
  cases hp
  simp [Object.setProgram, modify_append_length, Verbdef.blank]

/-- The verbs of one object get their programs. -/
lemma restores_readPrograms_verbs {objects res : Db.Objects P} {oid m : Nat}
    (hoid : IntRange.num.Has oid) (hlt : oid < objects.length) (o : Object P)
    (front vs : List (Verbdef P)) (hvs : IntRange.num.Has ((front.length + vs.length : Nat) : Int))
    (hparse : ∀ v ∈ vs, ∀ p ∈ v.program, ∀ l, Takes parse l (unparse p) p l) {qs : List Piece}
    (h : Restores ft records final n
      (readPrograms parse m (objects.set oid (some { o with verbdefs := front ++ vs }))) qs res) :
    Restores ft records final n
      (readPrograms parse ((vs.countP fun v => v.program.isSome) + m)
        (objects.set oid (some { o with verbdefs := front ++ vs.map Verbdef.blank })))
      (programPieces unparse oid front.length vs ++ qs) res := by
  induction vs generalizing front with
  | nil => simpa [programPieces] using h
  | cons v vs ih =>
    rw [List.length_cons] at hvs
    have hrest := ih (front ++ [v]) (by simpa [Nat.add_assoc, Nat.add_comm 1] using hvs)
      (fun u hu => hparse u (by simp [hu])) (by simpa using h)
    have hpieces : programPieces unparse oid front.length (v :: vs)
        = programPieces unparse oid front.length [v] ++
          programPieces unparse oid (front.length + 1) vs := by
      simp [programPieces, List.zipIdx_cons]
    rw [hpieces]
    cases hp : v.program with
    | none =>
      have hblank : v.blank = v := by rw [Verbdef.blank, ← hp]
      simpa [programPieces, hp, hblank] using hrest
    | some p =>
      have hnum : IntRange.num.Has front.length := hvs.of_le (by omega)
      have hone : programPieces unparse oid front.length [v]
          = [.text ('#' :: decimal oid ++ ':' :: decimal front.length ++ ['\n']),
              .text (unparse p)] := by
        simp [programPieces, hp]
      rw [hone, List.countP_cons_of_pos (by simp [hp]), Nat.add_right_comm]
      refine Restores.text_then (takes_programFormat hoid hnum) ?_
      have hfind : Db.findObject (objects.set oid
          (some { o with verbdefs := front ++ (v :: vs).map Verbdef.blank })) oid
          = some { o with verbdefs := front ++ (v :: vs).map Verbdef.blank } := by
        simp [Db.findObject, hlt]
      have hvnum : (0 : Int) ≤ front.length ∧
          (front.length : Int) < (front ++ (v :: vs).map Verbdef.blank).length := by
        simp
      simp only [hfind, lift_some, pure_bind, hvnum, and_self, if_true]
      refine Restores.text_then (hparse v (by simp) p hp) ?_
      rw [Int.toNat_natCast, Int.toNat_natCast, List.set_set, List.map_cons,
        setProgram_append o front _ v hp]
      simpa using hrest

/-- The objects get their programs one after the other. -/
lemma restores_readPrograms (front rest : Db.Objects P)
    (hrange : IntRange.num.Has ((front.length + rest.length : Nat) : Int))
    (h : ∀ o, some o ∈ rest → IntRange.num.Has o.verbdefs.length ∧
      ∀ v ∈ o.verbdefs, ∀ p ∈ v.program, ∀ l, Takes parse l (unparse p) p l) :
    Restores ft records final n
      (readPrograms parse (rest.map fun o => (o.map Object.nprogs).getD 0).sum
        (front ++ rest.map (Option.map Object.blank)))
      ((rest.zipIdx front.length).flatMap fun (o, oid) =>
        (o.map (writePrograms unparse oid)).getD []) (front ++ rest) := by
  induction rest generalizing front with
  | nil =>
    simp only [List.map_nil, List.sum_nil, List.append_nil, List.zipIdx_nil, List.flatMap_nil]
    exact Restores.pure front
  | cons o rest ih =>
    rw [List.length_cons] at hrange
    have hrest := ih (front ++ [o]) (by simpa [Nat.add_assoc, Nat.add_comm 1] using hrange)
      fun x hx => h x (by simp [hx])
    simp only [List.zipIdx_cons, List.flatMap_cons, List.map_cons, List.sum_cons]
    cases o with
    | none => simpa using hrest
    | some o =>
      obtain ⟨hvs, hparse⟩ := h o (by simp)
      have hblank : front ++ some o.blank :: rest.map (Option.map Object.blank)
          = (front ++ some o.blank :: rest.map (Option.map Object.blank)).set front.length
            (some { o with verbdefs := [] ++ o.verbdefs.map Verbdef.blank }) := by
        simp [Object.blank]
      rw [Option.map_some, Option.map_some, Option.map_some, Option.getD_some, Option.getD_some,
        hblank]
      refine restores_readPrograms_verbs (hrange.of_le (by omega)) (by simp) o [] o.verbdefs
        (by simpa using hvs) hparse ?_
      simpa using hrest

end Programs

/-! ## The whole file -/

/-- The objects and users of a database that can be written: what belongs together fits
together, the numbers are in range, and no string contains a newline. -/
structure Db.FileFits (ft : FloatText) (db : Db P) : Prop where
  sound : Db.Sound db.objects
  objects : ∀ o, some o ∈ db.objects → o.Fits ft
  propval : ∀ oid o, Db.findObject db.objects oid = some o →
    o.propval.length = Db.countProperties db.objects oid
  nobjs : IntRange.unum.Has db.objects.length
  nprogs : IntRange.unum.Has ((db.objects.map fun o => (o.map Object.nprogs).getD 0).sum : Nat)
  nusers : IntRange.unum.Has db.allUsers.length
  users : ∀ u ∈ db.allUsers, IntRange.num.Has u

/-- The reader of the tasks gives back what was written of them, with the new names of the
waifs. -/
def TasksBack (ft : FloatText) (readTasks : Reader Loader T) (tasks : List Piece)
    (back : (Nat → Nat) → T) : Prop :=
  ∀ records final n, (∀ r R, records r = some R → Record.Fits ft R) →
    IntRange.uint.Has (final.length : Nat) →
    Restores ft records final n readTasks tasks (back final.idxOf)

section File

variable {db : Db P} {intern : String → Nat} {parse : Reader Loader P} {unparse : P → List Char}
  {readTasks : Reader Loader T} {tasks : List Piece} {back : (Nat → Nat) → T}

lemma has_num_of_unum {i : Int} (h : IntRange.unum.Has i) : IntRange.num.Has i :=
  ⟨h.1, h.2.1, by simp [IntRange.bounds]⟩

lemma Db.FileFits.writeObjects_eq (h : db.FileFits ft) :
    db.objects.zipIdx.flatMap (fun (o, oid) =>
        writeObject oid (Db.countProperties db.objects oid) o)
      = db.objects.zipIdx.flatMap fun (o, oid) =>
        writeObject oid ((o.map fun x => x.propval.length).getD 0) o := by
  apply List.flatMap_congr
  rintro ⟨o, oid⟩ hmem
  rw [List.mk_mem_zipIdx_iff_getElem?] at hmem
  cases o with
  | none => rfl
  | some o => simp [h.propval oid o (Db.findObject_of_getElem? hmem)]

/-- The programs of the objects that have been read. -/
lemma Db.FileFits.restores_readPrograms_reload (h : db.FileFits ft) (f : Nat → Nat)
    (hparse : ∀ p l, Takes parse l (unparse p) p l) :
    Restores ft records final n
      (readPrograms parse (db.objects.map fun o => (o.map Object.nprogs).getD 0).sum
        (db.objects.map (Option.map fun x => (x.reload intern f).blank)))
      (db.objects.zipIdx.flatMap fun (o, oid) => (o.map (writePrograms unparse oid)).getD [])
      (db.objects.map (Option.map (Object.reload intern f))) := by
  let objects := db.objects.map (Option.map (Object.reload intern f))
  have hblank : db.objects.map (Option.map fun x => (x.reload intern f).blank)
      = [] ++ objects.map (Option.map Object.blank) := by
    simp only [objects, List.nil_append, List.map_map, Function.comp_def, Option.map_map]
  have hcount : (db.objects.map fun o => (o.map Object.nprogs).getD 0)
      = objects.map fun o => (o.map Object.nprogs).getD 0 := by
    simp only [objects, List.map_map, Function.comp_def, Option.map_map]
    rfl
  have hpieces : (db.objects.zipIdx.flatMap fun (o, oid) =>
        (o.map (writePrograms unparse oid)).getD [])
      = objects.zipIdx.flatMap fun (o, oid) => (o.map (writePrograms unparse oid)).getD [] := by
    simp only [objects, ← List.map_zipIdx, List.flatMap_map, Prod.map, Option.map_map, id_eq]
    rfl
  rw [hblank, hcount, hpieces]
  refine restores_readPrograms [] objects ?_ fun o ho => ?_
  · simpa [objects] using has_num_of_unum h.nobjs
  · obtain ⟨o', ho', heq⟩ := List.mem_map.mp ho
    obtain ⟨x, rfl, rfl⟩ := Option.map_eq_some_iff.mp heq
    exact ⟨(h.objects x ho').nverbdefs, fun v _ p _ => hparse p⟩

/-- `read_db_file` behind the counts. -/
lemma restores_readDbFile_rest (h : db.FileFits ft) (hrec : ∀ r R, records r = some R → R.Fits ft)
    (hfinal : IntRange.uint.Has (final.length : Nat))
    (hparse : ∀ p l, Takes parse l (unparse p) p l) (htasks : TasksBack ft readTasks tasks back) :
    Restores ft records final n (do
        let users ← times dbioReadObjid db.allUsers.length
        let objects ← readObjects intern (dbioReadVar ft n) 0 db.objects.length
        let objects ← lift (Db.validateHierarchies objects)
        let objects ← readPrograms parse
          (db.objects.map fun o => (o.map Object.nprogs).getD 0).sum objects
        let tasks ← readTasks
        pure (users, objects, tasks))
      (db.allUsers.map (fun u => .text (intmaxText u)) ++
        (db.objects.zipIdx.flatMap (fun (o, oid) =>
            writeObject oid (Db.countProperties db.objects oid) o) ++
          (db.objects.zipIdx.flatMap (fun (o, oid) =>
            (o.map (writePrograms unparse oid)).getD []) ++ tasks)))
      (db.allUsers, db.objects.map (Option.map (Object.reload intern final.idxOf)),
        back final.idxOf) := by
  have hnum := has_num_of_unum h.nobjs
  have husers : Restores ft records final n (times dbioReadObjid db.allUsers.length)
      (db.allUsers.map fun u => .text (intmaxText u)) db.allUsers := by
    rw [List.map_eq_flatMap]
    nth_rewrite 3 [← List.map_id db.allUsers]
    exact Restores.times fun u hu => Restores.text (takes_objid (h.users u hu))
  have hvalid := (h.sound.map (g := fun x => (x.reload intern final.idxOf).blank)
    (fun _ => ⟨rfl, rfl, rfl, rfl, rfl, rfl⟩) (fun _ => rfl)).validateHierarchies_eq
  rw [h.writeObjects_eq]
  refine Restores.bind husers ?_
  refine Restores.bind (restores_readObjects (f := final.idxOf) (fun o ho => ⟨h.objects o ho,
    fun p hp => restores_dbioReadVar hrec n n (Nat.le_refl n) p.var
      ((h.objects o ho).propval p hp).var (Or.inr hfinal)⟩) 0 (by simpa using hnum)) ?_
  rw [hvalid, lift_some, pure_bind]
  exact Restores.bind (h.restores_readPrograms_reload _ hparse)
    ((htasks records final n hrec hfinal).bind_pure _)

/-- `read_db_file` reads what `write_db_file` wrote: the same users, the same objects but for
the names of waifs and of properties, and the tasks. -/
lemma takes_readDbFile (intern : String → Nat) (h : db.FileFits ft) (hrec : ∀ r R, records r = some R → R.Fits ft)
    (hfinal : IntRange.uint.Has (final.length : Nat))
    (hparse : ∀ p l, Takes parse l (unparse p) p l) (htasks : TasksBack ft readTasks tasks back)
    {t : List Char} (he : Emits ft records (writeDbFile unparse tasks db) [] t final)
    (hn : t.length ≤ n) :
    Takes (readDbFile intern ft parse readTasks n) { version := prehistory, savedWaifs := [] } t
      (db.allUsers, db.objects.map (Option.map (Object.reload intern final.idxOf)),
        back final.idxOf)
      { version := currentDbVersion, savedWaifs := final.map (loadedWaif records final) } := by
  unfold writeDbFile at he
  simp only [List.append_assoc, List.cons_append, List.nil_append] at he
  -- the first two pieces share a line
  cases he with
  | text he =>
    cases he with
    | @text _ _ _ t _ he =>
      have ht : t.length ≤ n := by
        simp only [List.length_append] at hn
        omega
      have htext : ∀ counts : List Char, headerText currentDbVersion ++ ('\n' :: counts ++ t)
          = headerText currentDbVersion ++ ['\n'] ++ (counts ++ t) := by simp
      rw [htext]
      unfold readDbFile
      refine (takes_readHeader _).bind ((takes_countsFormat h.nobjs h.nprogs h.nusers _).bind ?_)
      simp only [Int.toNat_natCast]
      exact restores_readDbFile_rest h hrec hfinal hparse htasks [] t final ht he List.prefix_rfl _
        rfl

end File

end LambdaMOO
