import LambdaMOO.Db.OperationsSpec

/-!
# Recycling

Every object that is moved out of the one to be recycled leaves a shorter list behind, and so does
every child, which is never refused by the parent of its parent: whatever it may clash with there
would have clashed before.
-/

namespace LambdaMOO

namespace Db

variable {P : Type} {objects objects' : Objects P} {oid : Int} {o : Object P}

/-! ## Children -/

/-- What is defined at a child or below fits the ancestors of its parent. -/
lemma Coherent.fits_grandparent (hc : Coherent objects) {c : Int} {oc : Object P}
    (ho : findObject objects oid = some o) (hoc : findObject objects c = some oc)
    (hup : oc.parent = oid) : Fits objects c o.parent := by
  rintro x ⟨pre, post, hx⟩ p hp q hq
  obtain ⟨ks, hks⟩ := hc.parents.exists_line ho
  have hoid := Along.cons_self ho hks
  have hc' : Along objects Object.parent c (c :: oid :: ks) :=
    Along.cons_self hoc (hup ▸ hoid)
  obtain ⟨-, rfl⟩ : c = c ∧ post = oid :: ks := List.cons.inj (hx.suffix.unique hc')
  obtain ⟨y, ys, hys⟩ : ∃ y ys, pre ++ [c, oid] = y :: ys := by
    cases pre with
    | nil => exact ⟨c, [oid], rfl⟩
    | cons y ys => exact ⟨y, ys ++ [c, oid], rfl⟩
  have hline : pre ++ c :: oid :: ks = y :: (ys ++ ks) := by
    rw [← List.cons_append, ← hys]
    simp
  rw [hline] at hx
  obtain ⟨ox, hox⟩ := isValid_iff.mp (hx.isValid.resolve_left fun h => hx.2.1 (hx.1 ▸ h))
  have hpair := hc.fit.distinct x ox hox
  rw [lineProps_eq hx, ← hx.1, List.flatMap_cons, List.flatMap_append,
    List.pairwise_append] at hpair
  rw [lineProps_eq hks] at hq
  exact hpair.2.2 p hp q (List.mem_append_right _ hq)

/-- A child is not above its parent. -/
lemma notMem_grandparent {c : Int} {oc : Object P} (ho : findObject objects oid = some o)
    (hoc : findObject objects c = some oc) (hup : oc.parent = oid) :
    ∀ js, Along objects Object.parent o.parent js → c ∉ js := by
  intro js hjs
  have hoid := Along.cons_self ho hjs
  have hline : Along objects Object.parent c (c :: oid :: js) :=
    Along.cons_self hoc (hup ▸ hoid)
  have hnodup := hline.nodup
  simp only [List.nodup_cons, List.mem_cons, not_or] at hnodup
  exact hnodup.1.2

lemma notMem_nothing {field : Object P → Int} {x : Int} :
    ∀ js, Along objects field nothing js → x ∉ js := by
  intro js hjs
  have hend : Along objects field nothing [] := rfl
  rw [hjs.unique hend]
  exact List.not_mem_nil

/-- A child goes to its grandparent. -/
lemma Coherent.exists_changeParent (hc : Coherent objects) {c : Int} {oc : Object P}
    (ho : findObject objects oid = some o) (hoc : findObject objects c = some oc)
    (hup : oc.parent = oid) :
    ∃ objects', dbChangeParent objects c o.parent = some (true, objects') ∧ Coherent objects' ∧
      SameLinks locationLinks objects objects' ∧
      ∃ o', findObject objects' oid = some o' ∧ o'.parent = o.parent ∧
        ∀ ks, Along objects Object.sibling o.child ks →
          Along objects' Object.sibling o'.child (ks.erase c) := by
  obtain ⟨ks, hks⟩ := hc.parents.exists_line ho
  have hoid := Along.cons_self ho hks
  have hline : Along objects Object.parent c (c :: oid :: ks) :=
    Along.cons_self hoc (hup ▸ hoid)
  have hnodup := hline.nodup
  simp only [List.nodup_cons, List.mem_cons, not_or] at hnodup
  obtain ⟨⟨hco, -⟩, hok, -⟩ := hnodup
  obtain ⟨b, objects', heq, hiff, -, hdone⟩ := dbChangeParent_spec hc.parents hc.fit hoc
    hks.isValid (notMem_grandparent ho hoc hup)
  obtain rfl := hiff.mpr (hc.fits_grandparent ho hoc hup)
  obtain ⟨old, new, common, hr⟩ := hdone rfl
  have hparent : oid ≠ o.parent := fun heq => by
    cases ks with
    | nil =>
      have hend : o.parent = nothing := hks
      exact ne_nothing_of_isValid (isValid_of_findObject ho) (heq.trans hend)
    | cons k ks => exact hok (by rw [heq, hks.1]; exact List.mem_cons_self)
  have hupo := hr.up_ne oid (Ne.symm hco)
  rw [ho, Option.map_some] at hupo
  obtain ⟨o', ho', hparent'⟩ := Option.map_eq_some_iff.mp hupo
  refine ⟨objects', heq, hr.coherent hc, hr.locations, o', ho', hparent', fun js hjs => ?_⟩
  obtain ⟨o₂, ho₂, hjs'⟩ := hr.children oid o js hparent ho hjs
  rw [ho'] at ho₂
  cases ho₂
  exact hjs'

/-- The loop over the children ends with none left. -/
lemma changeParents_spec (hc : Coherent objects) (ho : findObject objects oid = some o)
    {ks : List Int} (hks : Along objects Object.sibling o.child ks) {n : Nat}
    (hn : ks.length < n) :
    ∃ objects', changeParents oid n objects = some objects' ∧ Coherent objects' ∧
      SameLinks locationLinks objects objects' ∧
      ∃ o', findObject objects' oid = some o' ∧ o'.child = nothing := by
  induction ks generalizing objects o n with
  | nil =>
    obtain ⟨n, rfl⟩ : ∃ m, n = m + 1 := ⟨n - 1, by omega⟩
    have hend : o.child = nothing := hks
    refine ⟨objects, ?_, hc, .refl, o, ho, hend⟩
    simp only [changeParents, ho, Option.bind_eq_bind, Option.bind_some, if_pos hend]
  | cons c ks ih =>
    obtain ⟨n, rfl⟩ : ∃ m, n = m + 1 := ⟨n - 1, by omega⟩
    obtain ⟨js, hjs, -, hiff⟩ := hc.parents.down oid o ho
    obtain ⟨hchild, hne, oc, hoc, -⟩ := id hks
    have hup : oc.parent = oid :=
      (hiff c oc hoc).mp (hks.unique hjs ▸ List.mem_cons_self)
    obtain ⟨objects₁, heq₁, hc₁, hl₁, o₁, ho₁, -, hlist⟩ :=
      hc.exists_changeParent ho hoc hup
    have hks₁ := hlist _ hks
    rw [List.erase_cons_head] at hks₁
    obtain ⟨objects₂, heq₂, hc₂, hl₂, o₂, ho₂, hend⟩ := ih hc₁ ho₁ hks₁ (n := n) (by
      simpa using hn)
    refine ⟨objects₂, ?_, hc₂, hl₁.trans hl₂, o₂, ho₂, hend⟩
    simp only [changeParents, ho, Option.bind_eq_bind, Option.bind_some, hchild, if_neg hne, heq₁]
    exact heq₂

/-! ## Destruction -/

/-- An object that nothing holds in either hierarchy. -/
def Barren (objects : Objects P) (oid : Int) : Prop :=
  ∃ o, findObject objects oid = some o ∧ o.parent = nothing ∧ o.child = nothing ∧
    o.location = nothing ∧ o.contents = nothing

/-- `db_destroy_object` does not panic. -/
lemma Barren.exists_destroy {db : Db P} (hb : Barren db.objects oid) (hc : Coherent db.objects) :
    ∃ db', db.dbDestroyObject oid = some db' := by
  obtain ⟨o, ho, hparent, hchild, hlocation, hcontents⟩ := hb
  have hlen : ¬ o.propval.length < o.propdefs.length := by
    obtain ⟨ks, hks⟩ := hc.parents.exists_line ho
    rw [hc.fit.length oid o ho, countProperties_eq, lineProps_eq (Along.cons_self ho hks),
      List.flatMap_cons, defs_eq ho, List.length_append]
    omega
  refine ⟨{ db with
    objects := db.objects.set oid.toNat none
    allUsers := if isUser o then db.allUsers.erase oid else db.allUsers }, ?_⟩
  simp only [dbDestroyObject, ho, Option.bind_eq_bind, Option.bind_some, hlocation, hcontents,
    hparent, hchild, ne_eq, not_true_eq_false, or_self, if_false, if_neg hlen]

lemma leaveHierarchy_spec (db : Db P) (hc : Coherent db.objects)
    (ho : findObject db.objects oid = some o) (hlocation : o.location = nothing)
    (hcontents : o.contents = nothing) :
    ∃ db', leaveHierarchy db oid = some (.destroys db') ∧ Coherent db'.objects ∧
      Barren db'.objects oid := by
  obtain ⟨ks, hks, -, -⟩ := hc.parents.down oid o ho
  obtain ⟨objects₁, heq₁, hc₁, hl₁, o₁, ho₁, hchild₁⟩ :=
    changeParents_spec hc ho hks (Nat.lt_succ_of_le hks.length_le)
  -- without children it leaves its own parent
  obtain ⟨b, objects₂, heq₂, hiff, -, hdone⟩ :=
    dbChangeParent_spec hc₁.parents hc₁.fit ho₁ (.inl rfl) notMem_nothing
  obtain rfl := hiff.mpr fun x _ p _ q hq => by
    rw [lineProps_nothing] at hq
    exact absurd hq List.not_mem_nil
  obtain ⟨old, new, common, hr⟩ := hdone rfl
  obtain ⟨o₂, ho₂, hparent₂⟩ := Option.map_eq_some_iff.mp hr.up_self
  have hchild₂ : o₂.child = nothing := by
    obtain ⟨o₃, ho₃, hlist⟩ := hr.children oid o₁ [] (ne_nothing_of_isValid
      (isValid_of_findObject ho₁)) ho₁ hchild₁
    rw [ho₂] at ho₃
    cases ho₃
    exact hlist
  obtain ⟨hloc₂, hcon₂⟩ : o₂.location = nothing ∧ o₂.contents = nothing := by
    have hsame := (hl₁.trans hr.locations) oid
    rw [ho₂, ho, Option.map_some, Option.map_some, Option.some.injEq] at hsame
    obtain ⟨hl, hcn, -⟩ : o₂.location = o.location ∧ o₂.contents = o.contents ∧ _ := by
      simpa [Links.fields, locationLinks] using hsame
    exact ⟨hl.trans hlocation, hcn.trans hcontents⟩
  obtain ⟨objects₃, heq₃, halike, hc₃⟩ := incrQuota_spec (hr.coherent hc₁) o₂.owner
  obtain ⟨o₃, ho₃, hframe⟩ := halike.findObject ho₂
  refine ⟨{ db with objects := objects₃ }, ?_, hc₃, o₃, ho₃, ?_, ?_, ?_, ?_⟩
  · simp only [leaveHierarchy, heq₁, heq₂, ho₂, heq₃, Option.bind_eq_bind, Option.bind_some]
    rfl
  · exact (Object.eq_of_frame Object.parent (fun _ => rfl) hframe).trans hparent₂
  · exact (Object.eq_of_frame Object.child (fun _ => rfl) hframe).trans hchild₂
  · exact (Object.eq_of_frame Object.location (fun _ => rfl) hframe).trans hloc₂
  · exact (Object.eq_of_frame Object.contents (fun _ => rfl) hframe).trans hcon₂

/-! ## Contents -/

/-- Somebody who is in an object, or the object itself, goes nowhere. -/
lemma Coherent.exists_moveToNothing (hc : Coherent objects) {c : Int} {oc : Object P}
    (hoc : findObject objects c = some oc) (callVerb : Objects P → Int → String → Bool) :
    ∃ called objects', moveToNothing callVerb objects c = some (called, objects') ∧
      dbChangeLocation objects c nothing = some objects' ∧ Coherent objects' ∧
      Relinked containment objects objects' c nothing ∧
      ∀ p w ks, findObject objects p = some w → Along objects Object.next w.contents ks →
        ∃ w', findObject objects' p = some w' ∧
          Along objects' Object.next w'.contents (ks.erase c) := by
  obtain ⟨objects', heq, hc', hr, hlists⟩ :=
    dbChangeLocation_spec hc hoc (.inl rfl) notMem_nothing
  refine ⟨callVerb objects' oc.location "exitfunc", objects', ?_, heq, hc', hr,
    fun p w ks hw => ?_⟩
  · simp only [moveToNothing, hoc, heq, Option.bind_eq_bind, Option.bind_some]
    rfl
  · exact hlists p w ks (ne_nothing_of_isValid (isValid_of_findObject hw)) hw

/-- The loop over the contents ends, either with none left or with a call, and then with fewer. -/
lemma moveContents_spec (callVerb : Objects P → Int → String → Bool) (hc : Coherent objects)
    (ho : findObject objects oid = some o) {ks : List Int}
    (hks : Along objects Object.next o.contents ks) {n : Nat} (hn : ks.length < n) :
    ∃ called objects', moveContents callVerb oid n objects = some (called, objects') ∧
      Coherent objects' ∧ ∃ o' ks', findObject objects' oid = some o' ∧
        o'.location = o.location ∧ Along objects' Object.next o'.contents ks' ∧
        (called = false → ks' = []) ∧ (called = true → ks'.length < ks.length) := by
  induction ks generalizing objects o n with
  | nil =>
    obtain ⟨n, rfl⟩ : ∃ m, n = m + 1 := ⟨n - 1, by omega⟩
    have hend : o.contents = nothing := hks
    refine ⟨false, objects, ?_, hc, o, [], ho, rfl, hks, fun _ => rfl, by rintro ⟨⟩⟩
    simp only [moveContents, ho, Option.bind_eq_bind, Option.bind_some, if_pos hend]
    rfl
  | cons c ks ih =>
    obtain ⟨n, rfl⟩ : ∃ m, n = m + 1 := ⟨n - 1, by omega⟩
    obtain ⟨hfirst, hne, oc, hoc, -⟩ := id hks
    obtain ⟨js, hjs, -, hiff⟩ := hc.locations.down oid o ho
    have hin : oc.location = oid := (hiff c oc hoc).mp (hks.unique hjs ▸ List.mem_cons_self)
    have hco : oid ≠ c := by
      rintro rfl
      rw [ho] at hoc
      cases hoc
      exact hc.locations.up_ne ho hin
    obtain ⟨called, objects₁, heq₁, -, hc₁, hr, hlists⟩ := hc.exists_moveToNothing hoc callVerb
    obtain ⟨o₁, ho₁, hks₁⟩ := hlists oid o _ ho hks
    rw [List.erase_cons_head] at hks₁
    have hloc₁ : o₁.location = o.location := by
      have hup := hr.up_ne oid hco
      rw [ho₁, ho] at hup
      exact Option.some.inj hup
    cases called with
    | true =>
      refine ⟨true, objects₁, ?_, hc₁, o₁, ks, ho₁, hloc₁, hks₁, by rintro ⟨⟩, fun _ => by simp⟩
      simp only [moveContents, ho, Option.bind_eq_bind, Option.bind_some, hfirst, if_neg hne,
        heq₁, if_true]
      rfl
    | false =>
      obtain ⟨called, objects₂, heq₂, hc₂, o₂, ks₂, ho₂, hloc₂, hks₂, hnone, hless⟩ :=
        ih hc₁ ho₁ hks₁ (n := n) (by simpa using hn)
      refine ⟨called, objects₂, ?_, hc₂, o₂, ks₂, ho₂, hloc₂.trans hloc₁, hks₂, hnone,
        fun hcalled => (hless hcalled).trans (by simp)⟩
      simp only [moveContents, ho, Option.bind_eq_bind, Option.bind_some, hfirst, if_neg hne,
        heq₁, Bool.false_eq_true, if_false]
      exact heq₂

/-- What is left to be moved: those in the object, and the object if it is in another one. -/
def Burden (objects : Objects P) (oid : Int) (m : Nat) : Prop :=
  ∀ o, findObject objects oid = some o → ∃ ks, Along objects Object.next o.contents ks ∧
    ks.length + (if o.location = nothing then 0 else 1) ≤ m

/-- What `bf_recycle` comes to with the burden `m`: when it calls a verb it has less to do, and
when it destroys the object nothing holds it any more. -/
def Advanced (oid : Int) (m : Nat) : Recycling P → Prop
  | .error _ => False
  | .gone => True
  | .calls db => Coherent db.objects ∧ ∃ m' < m, Burden db.objects oid m'
  | .destroys db => Coherent db.objects ∧ Barren db.objects oid

/-- `bf_recycle` comes to an end or to a call whenever it goes on. -/
lemma movingContents_spec (callVerb : Objects P → Int → String → Bool) {db : Db P}
    (hc : Coherent db.objects) {m : Nat} (hm : Burden db.objects oid m) :
    ∃ r, movingContents callVerb db oid = some r ∧ Advanced oid m r := by
  cases hv : isValid db.objects oid with
  | false => exact ⟨.gone, by simp [movingContents, hv], trivial⟩
  | true =>
    obtain ⟨o, ho⟩ := isValid_iff.mp hv
    obtain ⟨ks, hks, hle⟩ := hm o ho
    obtain ⟨called, objects₁, heq₁, hc₁, o₁, ks₁, ho₁, hloc₁, hks₁, hnone, hless⟩ :=
      moveContents_spec callVerb hc ho hks (Nat.lt_succ_of_le hks.length_le)
    have hgo : movingContents callVerb db oid
        = if called then some (.calls { db with objects := objects₁ })
          else leaveLocation callVerb { db with objects := objects₁ } oid := by
      simp only [movingContents, hv, Bool.not_true, Bool.false_eq_true, if_false, heq₁,
        Option.bind_eq_bind, Option.bind_some]
      rfl
    rw [hgo]
    cases called with
    | true =>
      refine ⟨_, rfl, hc₁, ks₁.length + (if o₁.location = nothing then 0 else 1), ?_,
        fun o₂ ho₂ => ?_⟩
      · rw [hloc₁]
        have := hless rfl
        omega
      · rw [ho₁] at ho₂
        cases ho₂
        exact ⟨ks₁, hks₁, le_rfl⟩
    | false =>
      obtain rfl := hnone rfl
      have hcontents₁ : o₁.contents = nothing := hks₁
      simp only [leaveLocation, ho₁, Option.bind_eq_bind, Option.bind_some, Bool.false_eq_true,
        if_false]
      by_cases hloc : o₁.location = nothing
      · rw [if_pos hloc]
        obtain ⟨db₂, heq₂, hc₂, hb₂⟩ := leaveHierarchy_spec
          { db with objects := objects₁ } hc₁ ho₁ hloc hcontents₁
        exact ⟨_, heq₂, hc₂, hb₂⟩
      · rw [if_neg hloc]
        obtain ⟨called, objects₂, heq₂, -, hc₂, hr, hlists⟩ :=
          hc₁.exists_moveToNothing ho₁ callVerb
        obtain ⟨o₂, ho₂, hks₂⟩ := hlists oid o₁ [] ho₁ hks₁
        have hcontents₂ : o₂.contents = nothing := hks₂
        have hloc₂ : o₂.location = nothing := by
          have hself := hr.up_self
          rw [ho₂, ho₁] at hself
          exact Option.some.inj hself
        simp only [heq₂, Option.bind_some]
        cases called with
        | true =>
          refine ⟨_, rfl, hc₂, 0, ?_, fun o₃ ho₃ => ?_⟩
          · rw [← hloc₁, if_neg hloc] at hle
            omega
          · rw [ho₂] at ho₃
            cases ho₃
            exact ⟨[], hcontents₂, by simp [hloc₂]⟩
        | false =>
          obtain ⟨db₃, heq₃, hc₃, hb₃⟩ := leaveHierarchy_spec
            { db with objects := objects₂ } hc₂ ho₂ hloc₂ hcontents₂
          exact ⟨_, heq₃, hc₃, hb₃⟩

end Db

end LambdaMOO
