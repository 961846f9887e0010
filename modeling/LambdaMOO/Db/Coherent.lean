import LambdaMOO.Db.Reparent

/-!
# Coherent databases

Both hierarchies are consistent and the properties in order. The functions of `db_objects.c` and
`db_properties.c` keep this, each under the conditions its callers check.
-/

namespace LambdaMOO

/-- What the order of properties is about. -/
def Object.shape {P : Type} (o : Object P) : Int × List Propdef × List Var :=
  (o.parent, o.propdefs, o.propval.map Pval.var)

/-- What the property list of an object's waifs depends on, and the list itself. -/
def Object.lineage {P : Type} (o : Object P) : Int × List Propdef × Option Nat :=
  (o.parent, o.propdefs, o.waifPropdefs)

/-- An object but for the cached list of its waifs. -/
def Object.uncached {P : Type} (o : Object P) : Object P := { o with waifPropdefs := none }

namespace Db

variable {P : Type} {objects objects' : Objects P}

/-- Both hierarchies are consistent, and properties are in order. -/
structure Coherent (objects : Objects P) : Prop where
  parents : Consistent objects parentLinks
  locations : Consistent objects locationLinks
  fit : PropsFit objects

/-! ## Properties in order elsewhere -/

/-- The object has its line and its slots in both databases, under one number or two. -/
lemma fit_of_shape {oid oid' : Int} {o o' : Object P} (hfit : PropsFit objects)
    (ho : findObject objects oid = some o)
    (hline : lineProps objects' oid' = lineProps objects oid)
    (hdefs : o'.propdefs = o.propdefs)
    (hval : o'.propval.map Pval.var = o.propval.map Pval.var) :
    o'.propval.length = countProperties objects' oid' ∧
      (lineProps objects' oid').Pairwise Differ ∧
      ∀ pv ∈ o'.propval.take o'.propdefs.length, pv.var.isClear = false := by
  refine ⟨?_, hline ▸ hfit.distinct oid o ho, fun pv hpv => ?_⟩
  · rw [countProperties_eq, hline, ← countProperties_eq, ← hfit.length oid o ho,
      ← List.length_map (f := Pval.var), hval, List.length_map]
  · have hmem : pv.var ∈ (o'.propval.take o'.propdefs.length).map Pval.var :=
      List.mem_map_of_mem hpv
    rw [List.map_take, hval, ← List.map_take, hdefs] at hmem
    obtain ⟨pv', hpv', heq⟩ := List.mem_map.mp hmem
    rw [← heq]
    exact hfit.set oid o ho pv' hpv'

lemma PropsFit.congr (hends : Ends objects Object.parent) (hfit : PropsFit objects)
    (h : ∀ k, (findObject objects' k).map Object.shape = (findObject objects k).map Object.shape) :
    PropsFit objects' := by
  have hdefs : ∀ k, defs objects' k = defs objects k := by
    intro k
    have heq := congrArg (Option.map fun s => s.2.1) (h k)
    simp only [Option.map_map] at heq
    rw [defs, defs]
    exact congrArg (Option.getD · []) heq
  have hparent : ∀ k, (findObject objects' k).map Object.parent
      = (findObject objects k).map Object.parent := by
    intro k
    have heq := congrArg (Option.map Prod.fst) (h k)
    rw [Option.map_map, Option.map_map] at heq
    exact heq
  have hall : ∀ oid o', findObject objects' oid = some o' →
      o'.propval.length = countProperties objects' oid ∧
        (lineProps objects' oid).Pairwise Differ ∧
        ∀ pv ∈ o'.propval.take o'.propdefs.length, pv.var.isClear = false := by
    intro oid o' ho'
    have heq := h oid
    rw [ho', Option.map_some] at heq
    obtain ⟨o, ho, hshape⟩ := Option.map_eq_some_iff.mp heq.symm
    obtain ⟨ks, hks⟩ := hends oid o ho
    have hoid := hks.cons_self ho
    have hoid' : Along objects' Object.parent oid (oid :: ks) :=
      hoid.congr fun k _ => hparent k
    refine fit_of_shape hfit ho ?_ (congrArg (fun s => s.2.1) hshape).symm
      (congrArg (fun s => s.2.2) hshape).symm
    rw [lineProps_eq hoid, lineProps_eq hoid', List.flatMap_congr fun k _ => hdefs k]
  exact ⟨fun oid o ho => (hall oid o ho).1, fun oid o ho => (hall oid o ho).2.1,
    fun oid o ho => (hall oid o ho).2.2⟩

/-- Changes to neither links nor definitions nor values. -/
lemma Coherent.congr (hc : Coherent objects) (hp : SameLinks parentLinks objects objects')
    (hl : SameLinks locationLinks objects objects')
    (h : ∀ k, (findObject objects' k).map Object.shape = (findObject objects k).map Object.shape) :
    Coherent objects' where
  parents := hp.consistent hc.parents
  locations := hl.consistent hc.locations
  fit := hc.fit.congr hc.parents.up h

/-! ## Locations -/

/-- `db_change_location` does what it is for. -/
lemma dbChangeLocation_spec (hc : Coherent objects) {oid location : Int} {o : Object P}
    (ho : findObject objects oid = some o) (hvalid : location = nothing ∨ isValid objects location)
    (hloop : ∀ ks, Along objects Object.location location ks → oid ∉ ks) :
    ∃ objects', dbChangeLocation objects oid location = some objects' ∧ Coherent objects' ∧
      Relinked containment objects objects' oid location ∧
      ∀ p w ks, p ≠ location → findObject objects p = some w →
        Along objects Object.next w.contents ks → ∃ w', findObject objects' p = some w' ∧
          Along objects' Object.next w'.contents (ks.erase oid) := by
  have hleads : ∀ {x : Int}, x = nothing ∨ isValid objects x → (isValid objects x ↔ x ≠ nothing) :=
    fun hx => ⟨ne_nothing_of_isValid, hx.resolve_left⟩
  have hold : o.location = nothing ∨ isValid objects o.location := by
    obtain ⟨ks, hks⟩ := hc.locations.up oid o ho
    exact hks.isValid
  obtain ⟨objects', heq, hr, hlocations, hkids⟩ := relink_spec (h := containment) hc.locations ho
    hvalid hloop (hleads hold) (hleads hvalid)
  have hparents : SameLinks parentLinks objects objects' := hr.map_eq _ fun _ => rfl
  refine ⟨objects', ?_, ⟨hparents.consistent hc.parents, hlocations, ?_⟩, hr, hkids⟩
  · simp only [dbChangeLocation, ho, Option.bind_eq_bind, Option.bind_some]
    exact heq
  · exact hc.fit.congr hc.parents.up (hr.map_eq _ fun _ => rfl)

/-! ## Objects that come and go -/

section

variable {links : Links P} {oid : Int} {o : Object P}

/-- Nothing leads to a number that is not valid. -/
lemma Along.ne_of_not_isValid {field : Object P → Int} {start : Int} {ks : List Int}
    (ha : Along objects field start ks) (hnot : ¬ Db.isValid objects oid) {k : Int} (hk : k ∈ ks) :
    k ≠ oid := by
  rintro rfl
  obtain ⟨_, o, -, ho, -⟩ := ha.exists_of_mem hk
  exact hnot (isValid_of_findObject ho)

lemma Along.add {field : Object P → Int} {start : Int} {ks : List Int}
    (ha : Along objects field start ks) (hnot : ¬ Db.isValid objects oid)
    (h : ∀ x, findObject objects' x = if x = oid then some o else findObject objects x) :
    Along objects' field start ks :=
  ha.congr fun k hk => by rw [h, if_neg (ha.ne_of_not_isValid hnot hk)]

lemma Consistent.add (hc : Consistent objects links) (hnot : ¬ isValid objects oid)
    (hne : oid ≠ nothing) (hup : links.up o = nothing) (hdown : links.down o = nothing)
    (h : ∀ x, findObject objects' x = if x = oid then some o else findObject objects x) :
    Consistent objects' links where
  up := by
    intro x ox hox
    rw [h] at hox
    split_ifs at hox with hx
    · cases hox
      exact ⟨[], hup⟩
    · obtain ⟨ks, hks⟩ := hc.up x ox hox
      exact ⟨ks, hks.add hnot h⟩
  down := by
    intro x ox hox
    rw [h] at hox
    split_ifs at hox with hx
    · cases hox
      refine ⟨[], hdown, List.nodup_nil, fun k ok hok => iff_of_false (by simp) fun heq => ?_⟩
      rw [h] at hok
      split_ifs at hok with hk
      · cases hok
        rw [hup] at heq
        exact hne (hx ▸ heq.symm)
      · obtain ⟨ks, hks⟩ := hc.up k ok hok
        rw [heq, hx] at hks
        exact hks.isValid.elim hne hnot
    · obtain ⟨ks, hks, hnodup, hiff⟩ := hc.down x ox hox
      refine ⟨ks, hks.add hnot h, hnodup, fun k ok hok => ?_⟩
      rw [h] at hok
      split_ifs at hok with hk
      · cases hok
        refine iff_of_false (fun hmem => hks.ne_of_not_isValid hnot hmem hk) fun heq => ?_
        rw [hup] at heq
        exact ne_nothing_of_isValid (isValid_of_findObject hox) heq.symm
      · exact hiff k ok hok

/-- Nothing leads to an object that is below nothing and has nothing below it. -/
lemma Consistent.notMem_up (hc : Consistent objects links) (ho : findObject objects oid = some o)
    (hdown : links.down o = nothing) {x : Int} {ks : List Int}
    (hx : Along objects links.up x ks) (hne : x ≠ oid) : oid ∉ ks := by
  intro hmem
  obtain ⟨pre, post, rfl⟩ := List.append_of_mem hmem
  rcases List.eq_nil_or_concat pre with rfl | ⟨pre, y, rfl⟩
  · exact hne hx.1
  · rw [List.concat_eq_append, List.append_assoc] at hx
    obtain ⟨-, -, oy, hoy, hrest⟩ := hx.suffix
    obtain ⟨ks, hks, -, hiff⟩ := hc.down oid o ho
    rw [hdown] at hks
    have hnil : Along objects links.across nothing [] := rfl
    have hy := (hiff y oy hoy).mpr hrest.1
    rw [hks.unique hnil] at hy
    exact absurd hy List.not_mem_nil

lemma Along.drop {field : Object P → Int} {start : Int} {ks : List Int}
    (ha : Along objects field start ks) (hnot : oid ∉ ks)
    (h : ∀ x, findObject objects' x = if x = oid then none else findObject objects x) :
    Along objects' field start ks :=
  ha.congr fun k hk => by rw [h, if_neg fun (heq : k = oid) => hnot (heq ▸ hk)]

lemma Consistent.drop (hc : Consistent objects links) (ho : findObject objects oid = some o)
    (hup : links.up o = nothing) (hdown : links.down o = nothing)
    (h : ∀ x, findObject objects' x = if x = oid then none else findObject objects x) :
    Consistent objects' links where
  up := by
    intro x ox hox
    rw [h] at hox
    split_ifs at hox with hx
    obtain ⟨ks, hks⟩ := hc.up x ox hox
    have hline := hks.cons_self hox
    refine ⟨ks, hks.drop (fun hmem => ?_) h⟩
    exact hc.notMem_up ho hdown hline hx (List.mem_cons_of_mem _ hmem)
  down := by
    intro x ox hox
    rw [h] at hox
    split_ifs at hox with hx
    obtain ⟨ks, hks, hnodup, hiff⟩ := hc.down x ox hox
    refine ⟨ks, hks.drop (fun hmem => ?_) h, hnodup, fun k ok hok => ?_⟩
    · have heq := (hiff oid o ho).mp hmem
      rw [hup] at heq
      exact ne_nothing_of_isValid (isValid_of_findObject hox) heq.symm
    · rw [h] at hok
      split_ifs at hok
      exact hiff k ok hok

lemma lineProps_congr {x : Int} {ks : List Int} (hx : Along objects Object.parent x ks)
    (hx' : Along objects' Object.parent x ks)
    (h : ∀ k ∈ ks, findObject objects' k = findObject objects k) :
    lineProps objects' x = lineProps objects x := by
  rw [lineProps_eq hx, lineProps_eq hx',
    List.flatMap_congr fun k hk => by rw [defs, h k hk, ← defs]]

lemma PropsFit.add (hc : Consistent objects parentLinks) (hfit : PropsFit objects)
    (hnot : ¬ isValid objects oid) (hup : o.parent = nothing) (hdefs : o.propdefs = [])
    (hval : o.propval = [])
    (h : ∀ x, findObject objects' x = if x = oid then some o else findObject objects x) :
    PropsFit objects' := by
  have hall : ∀ x ox, findObject objects' x = some ox →
      ox.propval.length = countProperties objects' x ∧
        (lineProps objects' x).Pairwise Differ ∧
        ∀ pv ∈ ox.propval.take ox.propdefs.length, pv.var.isClear = false := by
    intro x ox hox
    have hox' := hox
    rw [h] at hox'
    split_ifs at hox' with hx
    · cases hox'
      have hend : Along objects' Object.parent o.parent [] := hup
      have hline : lineProps objects' x = [] := by
        rw [lineProps_eq (hend.cons_self hox), List.flatMap_cons, defs_eq hox, hdefs]
        rfl
      rw [countProperties_eq, hline, hval, hdefs]
      simp
    · obtain ⟨ks, hks⟩ := hc.up x ox hox'
      have hline := hks.cons_self hox'
      refine fit_of_shape hfit hox' ?_ rfl rfl
      exact lineProps_congr hline (hline.add hnot h) fun k hk => by
        rw [h, if_neg (hline.ne_of_not_isValid hnot hk)]
  exact ⟨fun oid o ho => (hall oid o ho).1, fun oid o ho => (hall oid o ho).2.1,
    fun oid o ho => (hall oid o ho).2.2⟩

lemma PropsFit.drop (hc : Consistent objects parentLinks) (hfit : PropsFit objects)
    (ho : findObject objects oid = some o) (hdown : o.child = nothing)
    (h : ∀ x, findObject objects' x = if x = oid then none else findObject objects x) :
    PropsFit objects' := by
  have hall : ∀ x ox, findObject objects' x = some ox →
      ox.propval.length = countProperties objects' x ∧
        (lineProps objects' x).Pairwise Differ ∧
        ∀ pv ∈ ox.propval.take ox.propdefs.length, pv.var.isClear = false := by
    intro x ox hox
    rw [h] at hox
    split_ifs at hox with hx
    obtain ⟨ks, hks⟩ := hc.up x ox hox
    have hline := hks.cons_self hox
    have hnot := hc.notMem_up ho hdown hline hx
    refine fit_of_shape hfit hox ?_ rfl rfl
    exact lineProps_congr hline (hline.drop hnot h) fun k hk => by
      rw [h, if_neg fun (heq : k = oid) => hnot (heq ▸ hk)]
  exact ⟨fun oid o ho => (hall oid o ho).1, fun oid o ho => (hall oid o ho).2.1,
    fun oid o ho => (hall oid o ho).2.2⟩

end

/-! ### Creation -/

lemma findObject_concat (objects : Objects P) (o : Object P) (x : Int) :
    findObject (objects ++ [some o]) x
      = if x = objects.length then some o else findObject objects x := by
  unfold findObject
  by_cases hx : x < 0
  · rw [if_pos hx, if_pos hx, if_neg (by omega)]
  · rw [if_neg hx, if_neg hx]
    by_cases hlt : x.toNat < objects.length
    · rw [List.getElem?_append_left hlt, if_neg (by omega)]
    · rw [List.getElem?_append_right (by omega)]
      by_cases heq : x = objects.length
      · simp [heq]
      · rw [if_neg heq, List.getElem?_eq_none (by simp; omega),
          List.getElem?_eq_none (by omega)]

lemma not_isValid_length : ¬ isValid objects objects.length := by
  rw [isValid_iff]
  rintro ⟨o, ho⟩
  obtain ⟨-, hget⟩ := findObject_eq_some ho
  simp at hget

/-- `db_create_object` keeps coherence; what it makes is below nothing. -/
lemma Coherent.create (hc : Coherent objects) (owner : Int) :
    Coherent (dbCreateObject objects owner).1 := by
  have hne : (objects.length : Int) ≠ nothing := by
    simp only [nothing]
    omega
  have h := findObject_concat objects (freshObject owner)
  exact ⟨hc.parents.add not_isValid_length hne rfl rfl h,
    hc.locations.add not_isValid_length hne rfl rfl h,
    hc.fit.add hc.parents not_isValid_length rfl rfl rfl h⟩

/-! ### Destruction -/

lemma findObject_set_none (objects : Objects P) {oid : Int} (hoid : 0 ≤ oid) (x : Int) :
    findObject (objects.set oid.toNat none) x
      = if x = oid then none else findObject objects x := by
  unfold findObject
  by_cases hx : x < 0
  · rw [if_pos hx, if_pos hx, if_neg (by omega)]
  · rw [if_neg hx, if_neg hx]
    by_cases heq : x = oid
    · subst heq
      rw [if_pos rfl]
      by_cases hlt : x.toNat < objects.length
      · rw [List.getElem?_set_self hlt]
        rfl
      · rw [List.getElem?_eq_none (by rw [List.length_set]; omega)]
        rfl
    · rw [if_neg heq, List.getElem?_set_ne (by omega)]

/-- `db_destroy_object` keeps coherence. -/
lemma Coherent.destroy {db db' : Db P} (hc : Coherent db.objects) {oid : Int}
    (heq : dbDestroyObject db oid = some db') : Coherent db'.objects := by
  simp only [dbDestroyObject, Option.bind_eq_bind] at heq
  obtain ⟨o, ho, heq⟩ := Option.bind_eq_some_iff.mp heq
  simp only [Option.ite_none_left_eq_some, Option.some.injEq] at heq
  obtain ⟨hbarren, -, rfl⟩ := heq
  simp only [ne_eq, not_or, not_not] at hbarren
  obtain ⟨hlocation, hcontents, hparent, hchild⟩ := hbarren
  have h := findObject_set_none db.objects (findObject_eq_some ho).1
  exact ⟨hc.parents.drop ho hparent hchild h, hc.locations.drop ho hlocation hcontents h,
    hc.fit.drop hc.parents ho hchild h⟩

/-! ### The highest number -/

lemma findObject_rdropWhile (objects : Objects P) (x : Int) :
    findObject (objects.rdropWhile Option.isNone) x = findObject objects x := by
  unfold findObject
  split_ifs with hx
  · rfl
  · induction objects using List.reverseRecOn with
    | nil => rfl
    | append_singleton l o ih =>
      cases o with
      | some o => rw [List.rdropWhile_concat_neg _ _ _ (by simp)]
      | none =>
        rw [List.rdropWhile_concat_pos _ _ _ rfl, ih]
        by_cases hlt : x.toNat < l.length
        · rw [List.getElem?_append_left hlt]
        · rw [List.getElem?_eq_none (by omega), List.getElem?_append_right (by omega)]
          cases x.toNat - l.length <;> rfl

lemma Coherent.resetLastUsedObjid (hc : Coherent objects)
    (heq : dbResetLastUsedObjid objects = some objects') : Coherent objects' := by
  unfold dbResetLastUsedObjid at heq
  split_ifs at heq
  cases heq
  have h := findObject_rdropWhile objects
  exact hc.congr (fun k => by rw [h]) (fun k => by rw [h]) fun k => by rw [h]

/-! ## Slots -/

lemma Coherent.setSlot (hc : Coherent objects) {oid : Int} {n : Nat} {f : Pval → Pval}
    (heq : setSlot objects oid n f = some objects')
    (hf : ∀ o pv, findObject objects oid = some o → n < o.propdefs.length →
      pv.var.isClear = false → (f pv).var.isClear = false) : Coherent objects' := by
  simp only [Db.setSlot, Option.bind_eq_bind] at heq
  obtain ⟨o, ho, heq⟩ := Option.bind_eq_some_iff.mp heq
  obtain ⟨prop, hprop, heq⟩ := Option.bind_eq_some_iff.mp heq
  cases heq
  have halike : Alike objects (put objects oid { o with propval := o.propval.set n (f prop) }) :=
    .put ho rfl
  refine ⟨(halike.sameLinks fun _ => rfl).consistent hc.parents,
    (halike.sameLinks fun _ => rfl).consistent hc.locations, ?_, ?_, ?_⟩
  · intro x ox hox
    rw [halike.countProperties]
    rw [findObject_put ho] at hox
    split_ifs at hox with hx
    · cases hox
      rw [List.length_set, hx]
      exact hc.fit.length oid o ho
    · exact hc.fit.length x ox hox
  · intro x ox hox
    rw [halike.lineProps]
    obtain ⟨oy, hoy⟩ := isValid_iff.mp (halike.isValid x ▸ isValid_of_findObject hox)
    exact hc.fit.distinct x oy hoy
  · intro x ox hox pv hpv
    rw [findObject_put ho] at hox
    split_ifs at hox with hx
    · cases hox
      change pv ∈ (o.propval.set n (f prop)).take o.propdefs.length at hpv
      rw [List.take_set] at hpv
      obtain ⟨i, hi⟩ := List.mem_iff_getElem?.mp hpv
      rw [List.getElem?_set] at hi
      split_ifs at hi with hni hlt
      · cases hi
        rw [List.length_take] at hlt
        refine hf o prop ho (by omega) (hc.fit.set oid o ho prop ?_)
        refine List.mem_of_getElem? (i := n) ?_
        rw [List.getElem?_take_of_lt (by omega), hprop]
      · exact hc.fit.set oid o ho pv (List.mem_of_getElem? hi)
    · exact hc.fit.set x ox hox pv hpv

/-! ## Another parent -/

lemma Reparented.coherent {oid parent : Int} {o : Object P} {old new common : List (Int × Propdef)}
    (hr : Reparented objects objects' oid parent o old new common) (hc : Coherent objects) :
    Coherent objects' :=
  ⟨hr.consistent, hr.locations.consistent hc.locations, hr.fit⟩

/-! ## Renaming -/

/-- Only cached lists have changed. -/
def Recached (objects objects' : Objects P) : Prop :=
  ∀ k, (findObject objects' k).map Object.uncached = (findObject objects k).map Object.uncached

namespace Recached

lemma refl : Recached objects objects := fun _ => rfl

lemma trans {objects'' : Objects P} (h : Recached objects objects')
    (h' : Recached objects' objects'') : Recached objects objects'' :=
  fun k => (h' k).trans (h k)

lemma map_eq (h : Recached objects objects') {α : Type} (f : Object P → α)
    (hf : ∀ o, f o.uncached = f o) (k : Int) :
    (findObject objects' k).map f = (findObject objects k).map f := by
  have heq := congrArg (Option.map f) (h k)
  simpa [Function.comp_def, hf] using heq

lemma coherent (h : Recached objects objects') (hc : Coherent objects) : Coherent objects' :=
  hc.congr (h.map_eq _ fun _ => rfl) (h.map_eq _ fun _ => rfl) (h.map_eq _ fun _ => rfl)

lemma defs (h : Recached objects objects') (k : Int) : defs objects' k = defs objects k := by
  rw [Db.defs, h.map_eq Object.propdefs fun _ => rfl]
  rfl

end Recached

lemma recached_renameCached {db db' : Db P} {oid : Int} {old new : Propdef}
    (heq : db.renameCached oid old new = some db') : Recached db.objects db'.objects := by
  simp only [renameCached, Option.bind_eq_bind] at heq
  obtain ⟨o, ho, heq⟩ := Option.bind_eq_some_iff.mp heq
  cases hwpd : o.waifPropdefs with
  | none =>
    rw [hwpd] at heq
    cases heq
    exact .refl
  | some wpd =>
    rw [hwpd] at heq
    simp only [waifRenamePropdef] at heq
    split_ifs at heq with hwaif
    · obtain ⟨defs, -, heq⟩ := Option.bind_eq_some_iff.mp heq
      obtain ⟨i, -, heq⟩ := Option.bind_eq_some_iff.mp heq
      cases heq
      exact .refl
    · cases heq
      intro k
      rw [findObject_put ho]
      split_ifs with hk
      · rw [hk, ho]
        rfl
      · rfl

lemma recached_renameOnList {db db' : Db P} {old new : Propdef} {n : Nat} {c : Int}
    (heq : renameOnList old new n c db = some db') : Recached db.objects db'.objects := by
  induction n generalizing c db db' with
  | zero => cases heq
  | succ n ih =>
    rw [renameOnList] at heq
    split_ifs at heq with hc
    · cases heq
      exact .refl
    · obtain ⟨db₁, heq₁, heq⟩ := Option.bind_eq_some_iff.mp heq
      obtain ⟨o₁, -, heq⟩ := Option.bind_eq_some_iff.mp heq
      obtain ⟨db₂, heq₂, heq⟩ := Option.bind_eq_some_iff.mp heq
      obtain ⟨o₂, -, heq⟩ := Option.bind_eq_some_iff.mp heq
      exact ((recached_renameCached heq₁).trans (ih heq₂)).trans (ih heq)

lemma recached_renamePropRecursively {db db' : Db P} {root : Int} {old new : Propdef}
    (heq : db.renamePropRecursively root old new = some db') :
    Recached db.objects db'.objects := by
  obtain ⟨db₁, heq₁, heq⟩ := Option.bind_eq_some_iff.mp heq
  obtain ⟨o, -, heq⟩ := Option.bind_eq_some_iff.mp heq
  exact (recached_renameCached heq₁).trans (recached_renameOnList heq)

lemma Differ.of_strEqual {p q r : Propdef} (h : Differ p q) (heq : strEqual q.name r.name) :
    Differ p r := by
  rw [differ_iff, strEqual_iff] at h ⊢
  rw [strEqual_iff] at heq
  exact fun h' => h (h'.trans heq.symm)

lemma Along.notMem_of_not_below {k oid : Int} {ks : List Int}
    (hk : Along objects Object.parent k ks) (hnot : ¬ Below objects oid k) : oid ∉ ks := by
  intro hmem
  obtain ⟨pre, post, rfl⟩ := List.append_of_mem hmem
  exact hnot ⟨pre, post, hk⟩

/-- A change to the definitions of an object does not matter to a line that it is not on. -/
lemma lineProps_put (hends : Ends objects Object.parent) {oid : Int} {o o' : Object P}
    (ho : findObject objects oid = some o) {x : Int} (hx : isValid objects x)
    (hnot : ¬ Below objects oid x) :
    lineProps (put objects oid o') x = lineProps objects x := by
  obtain ⟨ox, hox⟩ := isValid_iff.mp hx
  obtain ⟨js, hjs⟩ := hends x ox hox
  have hline := hjs.cons_self hox
  have hmem := hline.notMem_of_not_below hnot
  refine lineProps_congr hline (hline.congr fun k hk => ?_) fun k hk => ?_
  · rw [findObject_put ho, if_neg fun (h : k = oid) => hmem (h ▸ hk)]
  · rw [findObject_put ho, if_neg fun (h : k = oid) => hmem (h ▸ hk)]

/-- A name changes at one place of the line of everybody below. -/
lemma lineProps_rename {oid : Int} {o : Object P} (ho : findObject objects oid = some o)
    {first rest : List Propdef} {p : Propdef} (new : Propdef)
    (hdefs : o.propdefs = first ++ [p] ++ rest) {x : Int} (hx : Below objects oid x) :
    ∃ as bs, lineProps objects x = as ++ p :: bs ∧
      lineProps (put objects oid { o with propdefs := first ++ [new] ++ rest }) x
        = as ++ new :: bs := by
  obtain ⟨pre, post, hx⟩ := hx
  have hput : SameLinks parentLinks objects
      (put objects oid { o with propdefs := first ++ [new] ++ rest }) := .put ho rfl
  have hx' : Along (put objects oid { o with propdefs := first ++ [new] ++ rest })
      Object.parent x (pre ++ oid :: post) := hx.congr fun k _ => hput.map_up k
  refine ⟨pre.flatMap (defs objects) ++ first, rest ++ post.flatMap (defs objects), ?_, ?_⟩
  · rw [lineProps_eq hx, List.flatMap_append, List.flatMap_cons, defs_eq ho, hdefs]
    simp
  · rw [hx'.lineProps_eq_map, tags_redefine ho hx]
    simp [map_snd_tagged, Function.comp_def]

/-- A definition may get another name that is not in use, or the same one in other letters. -/
lemma Coherent.rename (hc : Coherent objects) {oid : Int} {o : Object P}
    (ho : findObject objects oid = some o) {first rest : List Propdef} {p new : Propdef}
    (hdefs : o.propdefs = first ++ [p] ++ rest)
    (hfree : strEqual p.name new.name ∨ Unused objects oid new.name) :
    Coherent (put objects oid { o with propdefs := first ++ [new] ++ rest }) := by
  have hput : SameLinks parentLinks objects
      (put objects oid { o with propdefs := first ++ [new] ++ rest }) := .put ho rfl
  have hlocations : SameLinks locationLinks objects
      (put objects oid { o with propdefs := first ++ [new] ++ rest }) := .put ho rfl
  -- the name changes at one place of a line, or nowhere
  have hline : ∀ {x ox}, findObject objects x = some ox →
      lineProps (put objects oid { o with propdefs := first ++ [new] ++ rest }) x
          = lineProps objects x ∨
        Below objects oid x ∧ ∃ as bs, lineProps objects x = as ++ p :: bs ∧
          lineProps (put objects oid { o with propdefs := first ++ [new] ++ rest }) x
            = as ++ new :: bs := by
    intro x ox hox
    by_cases hx : Below objects oid x
    · exact .inr ⟨hx, lineProps_rename ho new hdefs hx⟩
    · exact .inl (lineProps_put hc.parents.up ho (isValid_of_findObject hox) hx)
  refine ⟨hput.consistent hc.parents, hlocations.consistent hc.locations, ?_, ?_, ?_⟩
  · intro x ox' hox'
    obtain ⟨ox, hox⟩ := isValid_iff.mp (hput.isValid x ▸ isValid_of_findObject hox')
    have hval : ox'.propval = ox.propval := by
      rw [findObject_put ho] at hox'
      split_ifs at hox' with hx
      · cases hox'
        rw [hx, ho] at hox
        cases hox
        rfl
      · rw [hox] at hox'
        cases hox'
        rfl
    rw [hval, hc.fit.length x ox hox, countProperties_eq, countProperties_eq]
    rcases hline hox with heq | ⟨-, as, bs, heq, heq'⟩
    · rw [heq]
    · rw [heq, heq']
      simp
  · intro x ox' hox'
    obtain ⟨ox, hox⟩ := isValid_iff.mp (hput.isValid x ▸ isValid_of_findObject hox')
    have hold := hc.fit.distinct x ox hox
    rcases hline hox with heq | ⟨hx, as, bs, heq, heq'⟩
    · rwa [heq]
    · rw [heq'] at *
      have hfree' : ∀ q, (q ∈ as ∨ q ∈ bs) → Differ q p → Differ q new := by
        intro q hq hdiff
        rcases hfree with hsame | hunused
        · exact hdiff.of_strEqual hsame
        · refine differ_iff.mpr (hunused x hx q ?_)
          rw [heq, List.mem_append, List.mem_cons]
          exact hq.imp_right .inr
      rw [heq, List.pairwise_append, List.pairwise_cons] at hold
      obtain ⟨has, ⟨hp, hbs⟩, hcross⟩ := hold
      refine pairwise_insert (List.pairwise_append.mpr ⟨has, hbs, fun a ha b hb =>
        hcross a ha b (List.mem_cons_of_mem _ hb)⟩) (fun q hq => ?_) fun q hq => ?_
      · exact hfree' q (.inl hq) (hcross q hq p List.mem_cons_self)
      · exact (hfree' q (.inr hq) (hp q hq).symm).symm
  · intro x ox' hox' pv hpv
    rw [findObject_put ho] at hox'
    split_ifs at hox' with hx
    · cases hox'
      refine hc.fit.set oid o ho pv ?_
      rw [hdefs]
      simpa using hpv
    · exact hc.fit.set x ox' hox' pv hpv

lemma Unused.recached {oid : Int} {pname : String} (h : Unused objects oid pname)
    (hre : Recached objects objects') : Unused objects' oid pname := by
  have hsame : SameLinks parentLinks objects objects' := hre.map_eq _ fun _ => rfl
  rintro x ⟨pre, post, hx⟩ p hp
  have hx' : Along objects Object.parent x (pre ++ oid :: post) :=
    hx.congr fun k _ => hsame.symm.map_up k
  rw [lineProps_eq hx, List.flatMap_congr fun k _ => hre.defs k, ← lineProps_eq hx'] at hp
  exact h x ⟨pre, post, hx'⟩ p hp

/-- What `db_rename_propdef` does when it has passed its checks. -/
lemma Coherent.renamePropdef_spec {db db' : Db P} (hc : Coherent db.objects) {oid : Int}
    {old : String} {new : Propdef} {b : Bool}
    (heq : db.dbRenamePropdef oid old new = some (b, db')) :
    db' = db ∨ ∃ objects₁ o first p rest, Recached db.objects objects₁ ∧
      findObject objects₁ oid = some o ∧ o.propdefs = first ++ [p] ++ rest ∧
      (strEqual p.name new.name ∨ Unused objects₁ oid new.name) ∧
      db'.objects = put objects₁ oid { o with propdefs := first ++ [new] ++ rest } := by
  obtain ⟨o, ho, heq⟩ := Option.bind_eq_some_iff.mp heq
  cases hi : o.propdefs.findIdx? fun p => strEqual p.name old with
  | none =>
    rw [hi] at heq
    cases heq
    exact .inl rfl
  | some i =>
    obtain ⟨hlt, hname, -⟩ := List.findIdx?_eq_some_iff_getElem.mp hi
    -- what is left when the checks have been passed
    have hgo : (strEqual old new.name ∨ Unused db.objects oid new.name) → (do
        let p ← o.propdefs[i]?
        let db ← db.renamePropRecursively oid p new
        let o ← findObject db.objects oid
        let o := { o with propdefs := o.propdefs.set i new }
        return (true, { db with objects := put db.objects oid o })) = some (b, db') →
        ∃ objects₁ o first p rest, Recached db.objects objects₁ ∧
          findObject objects₁ oid = some o ∧ o.propdefs = first ++ [p] ++ rest ∧
          (strEqual p.name new.name ∨ Unused objects₁ oid new.name) ∧
          db'.objects = put objects₁ oid { o with propdefs := first ++ [new] ++ rest } := by
      intro hfree heq
      obtain ⟨p, hp, heq⟩ := Option.bind_eq_some_iff.mp heq
      obtain ⟨db₁, heq₁, heq⟩ := Option.bind_eq_some_iff.mp heq
      obtain ⟨o₁, ho₁, heq⟩ := Option.bind_eq_some_iff.mp heq
      cases heq
      have hre := recached_renamePropRecursively heq₁
      have hp' : o.propdefs[i] = p := by
        rw [List.getElem?_eq_getElem hlt] at hp
        exact Option.some.inj hp
      have hdefs₁ : o₁.propdefs = o.propdefs := by
        have hmap := hre.map_eq Object.propdefs (fun _ => rfl) oid
        rw [ho₁, ho] at hmap
        exact Option.some.inj hmap
      have hdefs : o₁.propdefs = o.propdefs.take i ++ [p] ++ o.propdefs.drop (i + 1) := by
        rw [hdefs₁, ← hp', List.append_assoc, List.singleton_append,
          ← List.drop_eq_getElem_cons hlt, List.take_append_drop]
      have hset : o₁.propdefs.set i new
          = o.propdefs.take i ++ [new] ++ o.propdefs.drop (i + 1) := by
        rw [hdefs₁, List.set_eq_take_append_cons_drop, if_pos hlt]
        simp
      rw [hset]
      refine ⟨_, o₁, _, p, _, hre, ho₁, hdefs, hfree.imp (fun heq => ?_) fun h => h.recached hre,
        rfl⟩
      rw [strEqual_iff] at hname heq ⊢
      exact hp' ▸ hname.trans heq
    rw [hi] at heq
    cases hsame : strEqual old new.name with
    | true =>
      rw [hsame] at heq
      exact .inr (hgo (.inl hsame) heq)
    | false =>
      cases hhas : hasProperty db.objects oid new.name with
      | true =>
        rw [hsame, hhas] at heq
        cases heq
        exact .inl rfl
      | false =>
        obtain ⟨found, hfound, hiff⟩ := definedAtOrBelow_spec hc.parents ho new.name
        rw [hsame, hhas, hfound] at heq
        cases found with
        | true =>
          cases heq
          exact .inl rfl
        | false =>
          exact .inr (hgo (.inr (unused_of_checks hc.parents ho hhas fun h => by
            simpa using hiff.mpr h)) heq)

/-- `db_rename_propdef` keeps coherence. -/
lemma Coherent.renamePropdef {db db' : Db P} (hc : Coherent db.objects) {oid : Int} {old : String}
    {new : Propdef} {b : Bool} (heq : db.dbRenamePropdef oid old new = some (b, db')) :
    Coherent db'.objects := by
  obtain rfl | ⟨objects₁, o, first, p, rest, hre, ho, hdefs, hfree, hdone⟩ :=
    hc.renamePropdef_spec heq
  · exact hc
  · rw [hdone]
    exact (hre.coherent hc).rename ho hdefs hfree

end Db

end LambdaMOO
