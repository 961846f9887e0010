import LambdaMOO.Db.Renumber
import LambdaMOO.Db.Slots
import LambdaMOO.Db.Operations

/-!
# Operations on coherent databases

The checks of the built-in functions are what the functions below them rely on. On a coherent
database recycling neither crashes nor goes on without an end.
-/

namespace LambdaMOO

namespace Db

variable {P : Type} {objects objects' : Objects P}

/-! ## Checks -/

/-- A check that has been passed. -/
lemma ite_error_eq_ok {α : Type} {c : Prop} [Decidable c] {e : ErrorCode}
    {x : Option (Except ErrorCode α)} {y : α} :
    (if c then some (.error e) else x) = some (.ok y) ↔ ¬ c ∧ x = some (.ok y) := by
  split_ifs with hc <;> simp [hc]

lemma leadsThrough_eq {field : Object P → Int} {what oid : Int} {ks : List Int}
    (ha : Along objects field oid ks) {n : Nat} (hn : ks.length < n) :
    leadsThrough objects field what n oid = some (ks.contains what) := by
  induction ks generalizing oid n with
  | nil =>
    obtain ⟨n, rfl⟩ : ∃ m, n = m + 1 := ⟨n - 1, by omega⟩
    have hend : oid = nothing := ha
    rw [leadsThrough, if_pos hend]
    rfl
  | cons k ks ih =>
    obtain ⟨n, rfl⟩ : ∃ m, n = m + 1 := ⟨n - 1, by omega⟩
    obtain ⟨rfl, hne, o, ho, hrest⟩ := ha
    rw [leadsThrough, if_neg hne]
    by_cases hwhat : oid = what
    · rw [if_pos hwhat, hwhat]
      simp
    · simp only [if_neg hwhat, ho, Option.bind_eq_bind, Option.bind_some,
        ih hrest (n := n) (by simpa using hn)]
      simp [Ne.symm hwhat]

/-- What the loop is for. -/
lemma notMem_of_leadsThrough {field : Object P → Int} {what oid : Int}
    (h : leadsThrough objects field what (objects.length + 1) oid = some false) :
    ∀ ks, Along objects field oid ks → what ∉ ks := by
  intro ks hks
  rw [leadsThrough_eq hks (Nat.lt_succ_of_le hks.length_le)] at h
  simpa using h

/-! ## Slots -/

/-- A property that is found has its slot within the array, and one that somebody else defines has
it behind the object's own. -/
lemma findOnLine_bounds {pname : String} {m n₀ n : Nat} {c definer : Int} {ks : List Int}
    (ha : Along objects Object.parent c ks)
    (h : findOnLine objects pname m c n₀ = some (definer, n)) :
    n < n₀ + (lineProps objects c).length ∧ n₀ ≤ n ∧
      ∀ o, findObject objects c = some o → definer ≠ c → n₀ + o.propdefs.length ≤ n := by
  induction m generalizing c n₀ ks with
  | zero => cases h
  | succ m ih =>
    rw [findOnLine] at h
    obtain ⟨o, ho, h⟩ := Option.bind_eq_some_iff.mp h
    cases ks with
    | nil =>
      have hend : c = nothing := ha
      exact absurd hend (ne_nothing_of_isValid (isValid_of_findObject ho))
    | cons k ks =>
      have hline := lineProps_eq ha
      obtain ⟨rfl, -, o₂, ho₂, hrest⟩ := ha
      rw [ho] at ho₂
      cases ho₂
      rw [List.flatMap_cons, defs_eq ho, ← lineProps_eq hrest] at hline
      rw [hline, List.length_append]
      cases hi : o.propdefs.findIdx? fun p => strEqual p.name pname with
      | some i =>
        rw [hi] at h
        cases h
        obtain ⟨hlt, -⟩ := List.findIdx?_eq_some_iff_getElem.mp hi
        exact ⟨by omega, by omega, fun _ _ hne => absurd rfl hne⟩
      | none =>
        rw [hi] at h
        obtain ⟨hlt, hle, -⟩ := ih hrest h
        refine ⟨by omega, by omega, fun o' ho' _ => ?_⟩
        rw [ho] at ho'
        cases ho'
        exact hle

lemma Coherent.setPropertyValue (hc : Coherent objects) {oid : Int} {n : Nat} {value : Var}
    (hvalue : value.isClear = false)
    (heq : dbSetPropertyValue objects oid n value = some objects') : Coherent objects' :=
  hc.setSlot heq fun _ _ _ _ _ => hvalue

/-! ## Quotas -/

/-- The slot of a property that has been found. -/
lemma Coherent.slot_of_find (hc : Coherent objects) {oid definer : Int} {o : Object P}
    (ho : findObject objects oid = some o) {pname : String} {n : Nat}
    (h : dbFindProperty objects oid pname = some (.slot definer n)) :
    n < countProperties objects oid ∧ (definer ≠ oid → o.propdefs.length ≤ n) := by
  obtain ⟨ks, hks⟩ := hc.parents.exists_line ho
  have hoid := Along.cons_self ho hks
  unfold dbFindProperty at h
  split at h
  · cases h
  · obtain ⟨⟨d, k⟩, hfind, h⟩ := Option.bind_eq_some_iff.mp h
    cases h
    obtain ⟨hlt, -, hown⟩ := findOnLine_bounds hoid hfind
    rw [countProperties_eq]
    exact ⟨by omega, fun hne => by simpa using hown o ho hne⟩

lemma exists_setPropertyValue (hc : Coherent objects) {oid : Int} {o : Object P}
    (ho : findObject objects oid = some o) {n : Nat} (hn : n < countProperties objects oid)
    (value : Var) :
    ∃ objects', dbSetPropertyValue objects oid n value = some objects' ∧
      Alike objects objects' := by
  have hlt : n < o.propval.length := by rwa [hc.fit.length oid o ho]
  refine ⟨put objects oid { o with
    propval := o.propval.set n { o.propval[n] with var := value } }, ?_, .put ho rfl⟩
  simp only [dbSetPropertyValue, setSlot, ho, Option.bind_eq_bind, Option.bind_some,
    List.getElem?_eq_getElem hlt]
  rfl

lemma findQuota_spec (hc : Coherent objects) (player : Int) :
    ∃ r, findQuota objects player = some r ∧ ∀ n num, r = some (n, num) →
      isValid objects player ∧ n < countProperties objects player := by
  unfold findQuota
  cases hv : isValid objects player with
  | false => exact ⟨none, rfl, by rintro _ _ ⟨⟩⟩
  | true =>
    obtain ⟨o, ho⟩ := isValid_iff.mp hv
    obtain ⟨ks, hks⟩ := hc.parents.exists_line ho
    have hplayer := Along.cons_self ho hks
    cases hfind : dbFindProperty objects player quotaName with
    | none => exact ⟨none, rfl, by rintro _ _ ⟨⟩⟩
    | some h =>
      cases h with
      | builtIn name => exact ⟨none, rfl, by rintro _ _ ⟨⟩⟩
      | slot definer n =>
        obtain ⟨hn, -⟩ := hc.slot_of_find ho hfind
        obtain ⟨v, hvalue, -⟩ := hc.fit.exists_valueOnLine hplayer hplayer.length_le hn
        simp only [hvalue, Option.bind_eq_bind, Option.bind_some, Bool.not_true,
          Bool.false_eq_true, if_false]
        cases v with
        | int num =>
          refine ⟨some (n, num), rfl, fun n' num' heq => ?_⟩
          cases heq
          exact ⟨trivial, hn⟩
        | _ => exact ⟨none, rfl, by rintro _ _ ⟨⟩⟩

/-- `incr_quota` changes a value, if anything. -/
lemma incrQuota_spec (hc : Coherent objects) (player : Int) :
    ∃ objects', incrQuota objects player = some objects' ∧ Alike objects objects' ∧
      Coherent objects' := by
  obtain ⟨r, hr, hslot⟩ := findQuota_spec hc player
  cases r with
  | none => exact ⟨objects, by simp [incrQuota, hr], .refl, hc⟩
  | some r =>
    obtain ⟨n, num⟩ := r
    obtain ⟨hv, hn⟩ := hslot n num rfl
    obtain ⟨o, ho⟩ := isValid_iff.mp hv
    obtain ⟨objects', heq, halike⟩ := exists_setPropertyValue hc ho hn (.int (num + 1))
    exact ⟨objects', by simp [incrQuota, hr, heq], halike, hc.setPropertyValue rfl heq⟩

/-- `decr_quota` changes a value, if anything, and nothing where it refuses. -/
lemma decrQuota_spec (hc : Coherent objects) (player : Int) :
    ∃ ok objects', decrQuota objects player = some (ok, objects') ∧
      (ok = false → objects' = objects) ∧ Alike objects objects' ∧ Coherent objects' := by
  obtain ⟨r, hr, hslot⟩ := findQuota_spec hc player
  cases r with
  | none => exact ⟨true, objects, by simp [decrQuota, hr], by rintro ⟨⟩, .refl, hc⟩
  | some r =>
    obtain ⟨n, num⟩ := r
    by_cases hnum : num ≤ 0
    · exact ⟨false, objects, by simp [decrQuota, hr, hnum], fun _ => rfl, .refl, hc⟩
    · obtain ⟨hv, hn⟩ := hslot n num rfl
      obtain ⟨o, ho⟩ := isValid_iff.mp hv
      obtain ⟨objects', heq, halike⟩ := exists_setPropertyValue hc ho hn (.int (num - 1))
      exact ⟨true, objects', by simp [decrQuota, hr, hnum, heq], by rintro ⟨⟩, halike,
        hc.setPropertyValue rfl heq⟩

/-! ## Objects -/

/-- Changing the parent keeps coherence, whether it is done or refused. -/
lemma Coherent.changeParent (hc : Coherent objects) {oid parent : Int} {o : Object P}
    (ho : findObject objects oid = some o) (hparent : parent = nothing ∨ isValid objects parent)
    (hloop : ∀ ks, Along objects Object.parent parent ks → oid ∉ ks) {done : Bool}
    (heq : dbChangeParent objects oid parent = some (done, objects')) : Coherent objects' := by
  obtain ⟨b, objects₁, heq₁, -, hsame, hdone⟩ :=
    dbChangeParent_spec hc.parents hc.fit ho hparent hloop
  rw [heq] at heq₁
  cases heq₁
  cases done with
  | false => exact hsame rfl ▸ hc
  | true =>
    obtain ⟨old, new, common, hr⟩ := hdone rfl
    exact hr.coherent hc

lemma findObject_dbCreateObject (objects : Objects P) (owner x : Int) :
    findObject (dbCreateObject objects owner).1 x
      = if x = objects.length then some (freshObject owner) else findObject objects x :=
  findObject_concat objects (freshObject owner) x

lemma isValid_dbCreateObject {x : Int} (hx : isValid objects x) (owner : Int) :
    isValid (dbCreateObject objects owner).1 x := by
  rw [isValid, findObject_dbCreateObject, if_neg fun (h : x = objects.length) =>
    not_isValid_length (h ▸ hx)]
  exact hx

/-- Nobody is below a new object. -/
lemma Coherent.notMem_created (hc : Coherent objects) {parent : Int}
    (hparent : parent = nothing ∨ isValid objects parent) (owner : Int) :
    ∀ ks, Along (dbCreateObject objects owner).1 Object.parent parent ks →
      (objects.length : Int) ∉ ks := by
  intro ks hks
  have hself : findObject (dbCreateObject objects owner).1 objects.length
      = some (freshObject owner) := by rw [findObject_dbCreateObject, if_pos rfl]
  refine (hc.create owner).parents.notMem_up hself rfl hks ?_
  rcases hparent with rfl | hv
  · simp only [nothing]
    omega
  · rintro rfl
    exact not_isValid_length hv

/-- A new object gets its parent. -/
lemma createChild_spec (hc : Coherent objects) {parent : Int}
    (hparent : parent = nothing ∨ isValid objects parent) (owner : Int) :
    ∃ objects', createChild objects parent owner = some ((objects.length : Int), objects') ∧
      Coherent objects' := by
  have hcreate := fun owner => hc.create owner
  have hself : ∀ owner, findObject (dbCreateObject objects owner).1 objects.length
      = some (freshObject owner) := fun owner => by rw [findObject_dbCreateObject, if_pos rfl]
  have hfits : ∀ owner, Fits (dbCreateObject objects owner).1 objects.length parent := by
    rintro owner x ⟨pre, post, hx⟩ p hp
    by_cases hxn : x = objects.length
    · rw [hxn, defs_eq (hself owner)] at hp
      exact absurd hp List.not_mem_nil
    · exact absurd (by simp) ((hcreate owner).parents.notMem_up (hself owner) rfl hx hxn)
  -- the check cannot fail for an object without definitions and children
  have hdone : ∀ owner, ∃ objects', dbChangeParent (dbCreateObject objects owner).1 objects.length
      parent = some (true, objects') ∧ Coherent objects' := by
    intro owner
    obtain ⟨b, objects', heq, hiff, -, hdone⟩ := dbChangeParent_spec (hcreate owner).parents
      (hcreate owner).fit (hself owner)
      (hparent.imp_right fun hv => isValid_dbCreateObject hv owner)
      (hc.notMem_created hparent owner)
    obtain rfl := hiff.mpr (hfits owner)
    obtain ⟨old, new, common, hr⟩ := hdone rfl
    exact ⟨objects', heq, hr.coherent (hcreate owner)⟩
  obtain ⟨objects', heq, hc'⟩ :=
    hdone (if owner = nothing then (objects.length : Int) else owner)
  refine ⟨objects', ?_, hc'⟩
  simp only [createChild, Option.bind_eq_bind]
  rw [show (dbCreateObject objects _).2 = (objects.length : Int) from rfl, heq]
  rfl

lemma mayCreate_parent {progr parent owner : Int} (h : mayCreate objects progr parent owner) :
    parent = nothing ∨ isValid objects parent := by
  by_cases hv : isValid objects parent
  · exact .inr hv
  · rw [mayCreate, if_neg hv, Bool.and_eq_true, decide_eq_true_eq] at h
    exact .inl h.1

/-- `bf_create` comes to an end. An error it finds itself leaves the database as it was. -/
lemma Coherent.bfCreate_spec {db : Db P} (hc : Coherent db.objects) (progr parent owner : Int) :
    ∃ r db', db.bfCreate progr parent owner = some (r, db') ∧ Coherent db'.objects ∧
      ∀ e, r = .error e → db' = db := by
  cases hmay : mayCreate db.objects progr parent owner with
  | false =>
    refine ⟨.error .ePerm, db, ?_, hc, fun _ _ => rfl⟩
    rw [Db.bfCreate, hmay, Bool.not_false, if_pos rfl]
  | true =>
    obtain ⟨ok, objects₁, hquota, hnot, halike, hc₁⟩ : ∃ ok objects₁,
        (if isValid db.objects owner then decrQuota db.objects owner
          else some (true, db.objects)) = some (ok, objects₁) ∧
        (ok = false → objects₁ = db.objects) ∧ Alike db.objects objects₁ ∧ Coherent objects₁ := by
      split_ifs
      · exact decrQuota_spec hc owner
      · exact ⟨true, db.objects, rfl, by rintro ⟨⟩, .refl, hc⟩
    have hparent := (mayCreate_parent hmay).imp_right fun hv => halike.isValid parent ▸ hv
    obtain ⟨objects₂, heq₂, hc₂⟩ := createChild_spec hc₁ hparent owner
    rw [Db.bfCreate, hmay, Bool.not_true, if_neg Bool.false_ne_true, hquota]
    cases ok with
    | false =>
      obtain rfl := hnot rfl
      exact ⟨.error .eQuota, db, rfl, hc, fun _ _ => rfl⟩
    | true =>
      refine ⟨.ok objects₁.length, { db with objects := objects₂ }, ?_, hc₂, by rintro _ ⟨⟩⟩
      simp only [Option.bind_eq_bind, Option.bind_some, Bool.not_true, Bool.false_eq_true,
        if_false, heq₂]
      rfl

lemma Coherent.bfChparent {db db' : Db P} (hc : Coherent db.objects) {progr what parent : Int}
    (heq : db.bfChparent progr what parent = some (.ok db')) : Coherent db'.objects := by
  unfold Db.bfChparent at heq
  obtain ⟨hvalid, heq⟩ := ite_error_eq_ok.mp heq
  obtain ⟨-, heq⟩ := ite_error_eq_ok.mp heq
  have hwhat : isValid db.objects what ∧ (parent = nothing ∨ isValid db.objects parent) := by
    revert hvalid
    cases isValid db.objects what <;> cases isValid db.objects parent <;> simp
  obtain ⟨o, ho⟩ := isValid_iff.mp hwhat.1
  obtain ⟨through, hthrough, heq⟩ := Option.bind_eq_some_iff.mp heq
  cases through with
  | true => cases heq
  | false =>
    obtain ⟨⟨done, objects'⟩, hdone, heq⟩ := Option.bind_eq_some_iff.mp heq
    cases done with
    | false => cases heq
    | true =>
      cases heq
      exact hc.changeParent ho hwhat.2 (notMem_of_leadsThrough hthrough) hdone

lemma Coherent.doMove {db db' : Db P} (hc : Coherent db.objects) {progr : Int} {accepts : Bool}
    {what whereTo : Int} (heq : db.doMove progr accepts what whereTo = some (.ok db')) :
    Coherent db'.objects := by
  unfold Db.doMove at heq
  obtain ⟨-, heq⟩ := ite_error_eq_ok.mp heq
  cases ho : findObject db.objects what with
  | none =>
    rw [ho] at heq
    cases heq
    exact hc
  | some o =>
    simp only [ho] at heq
    split_ifs at heq with hstay
    · cases heq
      exact hc
    · have hto : whereTo = nothing ∨ isValid db.objects whereTo := by
        revert hstay
        cases isValid db.objects whereTo <;> simp
        tauto
      obtain ⟨through, hthrough, heq⟩ := Option.bind_eq_some_iff.mp heq
      cases through with
      | true => cases heq
      | false =>
        obtain ⟨objects', hmove, heq⟩ := Option.bind_eq_some_iff.mp heq
        cases heq
        obtain ⟨objects₁, heq₁, hc₁, -⟩ :=
          dbChangeLocation_spec hc ho hto (notMem_of_leadsThrough hthrough)
        rw [hmove] at heq₁
        cases heq₁
        exact hc₁

lemma Coherent.bfRenumber {db db' : Db P} (hc : Coherent db.objects) {progr oid new : Int}
    (heq : db.bfRenumber progr oid = some (.ok (new, db'))) : Coherent db'.objects := by
  unfold Db.bfRenumber at heq
  obtain ⟨-, heq⟩ := ite_error_eq_ok.mp heq
  obtain ⟨-, heq⟩ := ite_error_eq_ok.mp heq
  obtain ⟨⟨n, db₁⟩, hrenumber, heq⟩ := Option.map_eq_some_iff.mp heq
  cases heq
  exact hc.renumber hrenumber

lemma Coherent.bfResetMaxObject {db db' : Db P} (hc : Coherent db.objects) {progr : Int}
    (heq : db.bfResetMaxObject progr = some (.ok db')) : Coherent db'.objects := by
  unfold Db.bfResetMaxObject at heq
  obtain ⟨-, heq⟩ := ite_error_eq_ok.mp heq
  obtain ⟨objects', hreset, heq⟩ := Option.map_eq_some_iff.mp heq
  cases heq
  exact hc.resetLastUsedObjid hreset

/-! ## Properties -/

lemma Coherent.bfAddProp {db db' : Db P} (hc : Coherent db.objects) {progr oid : Int}
    {pname : Propdef} {value info : Var} (hvalue : value.isClear = false)
    (heq : db.bfAddProp progr oid pname value info = some (.ok db')) : Coherent db'.objects := by
  unfold Db.bfAddProp at heq
  cases hinfo : validatePropInfo db.objects info with
  | error e =>
    rw [hinfo] at heq
    cases heq
  | ok r =>
    obtain ⟨owner, flags, newName⟩ := r
    simp only [hinfo] at heq
    obtain ⟨-, heq⟩ := ite_error_eq_ok.mp heq
    obtain ⟨hvalid, heq⟩ := ite_error_eq_ok.mp heq
    obtain ⟨-, heq⟩ := ite_error_eq_ok.mp heq
    obtain ⟨o, ho⟩ := isValid_iff.mp (by simpa using hvalid)
    obtain ⟨b, objects', hadd, -, hparents, hlocations, hfit, -⟩ :=
      dbAddPropdef_spec hc.parents hc.fit ho pname hvalue owner flags
    simp only [hadd, Option.bind_eq_bind, Option.bind_some] at heq
    cases b with
    | false => cases heq
    | true =>
      cases heq
      exact ⟨hparents.consistent hc.parents, hlocations.consistent hc.locations, hfit⟩

lemma Coherent.bfDeleteProp {db db' : Db P} (hc : Coherent db.objects) {progr oid : Int}
    {pname : String} (heq : db.bfDeleteProp progr oid pname = some (.ok db')) :
    Coherent db'.objects := by
  unfold Db.bfDeleteProp at heq
  obtain ⟨hvalid, heq⟩ := ite_error_eq_ok.mp heq
  obtain ⟨-, heq⟩ := ite_error_eq_ok.mp heq
  obtain ⟨o, ho⟩ := isValid_iff.mp (by simpa using hvalid)
  obtain ⟨b, objects', hdelete, -, hparents, hlocations, hfit, -⟩ :=
    dbDeletePropdef_spec hc.parents hc.fit ho pname
  simp only [hdelete, Option.bind_eq_bind, Option.bind_some] at heq
  cases b with
  | false => cases heq
  | true =>
    cases heq
    exact ⟨hparents.consistent hc.parents, hlocations.consistent hc.locations, hfit⟩

lemma Coherent.bfClearProp {db db' : Db P} (hc : Coherent db.objects) {progr oid : Int}
    {pname : String} (heq : db.bfClearProp progr oid pname = some (.ok db')) :
    Coherent db'.objects := by
  unfold Db.bfClearProp at heq
  obtain ⟨hvalid, heq⟩ := ite_error_eq_ok.mp heq
  cases hfind : dbFindProperty db.objects oid pname with
  | none =>
    rw [hfind] at heq
    cases heq
  | some h =>
    cases h with
    | builtIn name =>
      rw [hfind] at heq
      cases heq
    | slot definer n =>
      simp only [hfind] at heq
      obtain ⟨o, ho, heq⟩ := Option.bind_eq_some_iff.mp heq
      obtain ⟨prop, -, heq⟩ := Option.bind_eq_some_iff.mp heq
      obtain ⟨-, heq⟩ := ite_error_eq_ok.mp heq
      obtain ⟨hdefiner, heq⟩ := ite_error_eq_ok.mp heq
      obtain ⟨objects', hset, heq⟩ := Option.bind_eq_some_iff.mp heq
      cases heq
      refine hc.setSlot hset fun o' _ ho' hlt _ => ?_
      have hbehind := (hc.slot_of_find ho' hfind).2 hdefiner
      omega

lemma Coherent.setInfo {db db' : Db P} (hc : Coherent db.objects) {oid owner : Int} {n : Nat}
    {flags : BitVec 16} (heq : db.setInfo oid n owner flags = some (.ok db')) :
    Coherent db'.objects := by
  obtain ⟨objects₁, heq₁, heq⟩ := Option.bind_eq_some_iff.mp heq
  obtain ⟨objects₂, heq₂, heq⟩ := Option.bind_eq_some_iff.mp heq
  cases heq
  exact (hc.setSlot heq₁ fun _ _ _ _ h => h).setSlot heq₂ fun _ _ _ _ h => h

lemma Coherent.setPropInfo {db db' : Db P} (hc : Coherent db.objects) {progr oid : Int}
    {pname : String} {info : Var} {addr : Nat}
    (heq : db.setPropInfo progr oid pname info addr = some (.ok db')) : Coherent db'.objects := by
  unfold Db.setPropInfo at heq
  obtain ⟨-, heq⟩ := ite_error_eq_ok.mp heq
  cases hinfo : validatePropInfo db.objects info with
  | error e =>
    rw [hinfo] at heq
    cases heq
  | ok r =>
    obtain ⟨owner, flags, newName⟩ := r
    simp only [hinfo] at heq
    split at heq
    · cases heq
    · cases heq
    · obtain ⟨o, -, heq⟩ := Option.bind_eq_some_iff.mp heq
      obtain ⟨prop, -, heq⟩ := Option.bind_eq_some_iff.mp heq
      obtain ⟨-, heq⟩ := ite_error_eq_ok.mp heq
      cases newName with
      | none => exact hc.setInfo heq
      | some name =>
        obtain ⟨⟨done, db₁⟩, hrename, heq⟩ := Option.bind_eq_some_iff.mp heq
        obtain ⟨-, heq⟩ := ite_error_eq_ok.mp heq
        split at heq
        · exact (hc.renamePropdef hrename).setInfo heq
        · cases heq

lemma Coherent.putProp {db db' : Db P} (hc : Coherent db.objects) {progr oid : Int}
    {pname : String} {rhs : Var} (hvalue : rhs.isClear = false)
    (heq : db.putProp progr oid pname rhs = some (.ok db')) : Coherent db'.objects := by
  unfold Db.putProp at heq
  obtain ⟨-, heq⟩ := ite_error_eq_ok.mp heq
  split at heq
  · cases heq
  · cases heq
  · obtain ⟨o, -, heq⟩ := Option.bind_eq_some_iff.mp heq
    obtain ⟨prop, -, heq⟩ := Option.bind_eq_some_iff.mp heq
    obtain ⟨-, heq⟩ := ite_error_eq_ok.mp heq
    obtain ⟨objects', hset, heq⟩ := Option.bind_eq_some_iff.mp heq
    cases heq
    exact hc.setPropertyValue hvalue hset

end Db

end LambdaMOO
