import LambdaMOO.Db.Coherent

/-!
# Slots by definition

Where the slot for a definition is follows from the definitions that come before it. Told by
definition, the slots of an object are what inheritance speaks of: a property is found if an
ancestor defines it, its value is the nearest one that is not clear, and what happens to other
definitions leaves its slot alone.
-/

namespace LambdaMOO

namespace Db

variable {P : Type} {objects objects' : Objects P}

/-- The slot of `x` for a definition that counts for it. -/
def slotOf (objects : Objects P) (x : Int) (t : Int × Propdef) : Option Pval := do
  let o ← findObject objects x
  o.propval[(tags objects x).idxOf t]?

/-- The value of a property is that of the nearest slot that is not clear. -/
inductive Inherits (objects : Objects P) (t : Int × Propdef) : Int → Var → Prop
  | own {x : Int} {pv : Pval} (h : slotOf objects x t = some pv) (hset : pv.var.isClear = false) :
    Inherits objects t x pv.var
  | parent {x : Int} {o : Object P} {pv : Pval} {v : Var} (ho : findObject objects x = some o)
      (h : slotOf objects x t = some pv) (hclear : pv.var.isClear = true)
      (hup : Inherits objects t o.parent v) : Inherits objects t x v

lemma Inherits.isClear {t : Int × Propdef} {x : Int} {v : Var} (h : Inherits objects t x v) :
    v.isClear = false := by
  induction h with
  | own _ hset => exact hset
  | parent _ _ _ _ ih => exact ih

lemma not_differ_self (p : Propdef) : ¬ Differ p p := by
  simp [differ_iff, strEqual_iff]

lemma PropsFit.nodup_tags (hfit : PropsFit objects) {x : Int} {o : Object P} {ks : List Int}
    (ho : findObject objects x = some o) (hks : Along objects Object.parent x ks) :
    (tags objects x).Nodup := by
  have hdistinct := hfit.distinct x o ho
  rw [hks.lineProps_eq_map] at hdistinct
  exact hdistinct.of_map Prod.snd fun t u h heq => not_differ_self u.2 (by rwa [heq] at h)

lemma slotOf_eq {x : Int} {o : Object P} (ho : findObject objects x = some o)
    (hnodup : (tags objects x).Nodup) {n : Nat} {t : Int × Propdef}
    (ht : (tags objects x)[n]? = some t) : slotOf objects x t = o.propval[n]? := by
  obtain ⟨hlt, rfl⟩ := List.getElem?_eq_some_iff.mp ht
  simp [slotOf, ho, hnodup.idxOf_getElem]

/-! ## Finding a property -/

/-- The search up the line finds the first definition with the name. -/
lemma findOnLine_eq {pname : String} {c : Int} {ks : List Int}
    (ha : Along objects Object.parent c ks) {m : Nat} (hm : ks.length ≤ m) (n₀ : Nat) :
    findOnLine objects pname m c n₀ = do
      let i ← (tagged objects ks).findIdx? fun t => strEqual t.2.name pname
      let t ← (tagged objects ks)[i]?
      return (t.1, n₀ + i) := by
  induction ks generalizing c m n₀ with
  | nil =>
    have hend : c = nothing := ha
    subst hend
    cases m <;> simp [findOnLine, findObject, nothing]
  | cons k ks ih =>
    obtain ⟨m, rfl⟩ : ∃ l, m = l + 1 := ⟨m - 1, by simp at hm; omega⟩
    obtain ⟨rfl, -, o, ho, hrest⟩ := ha
    have hown : (((defs objects c).map (Prod.mk c)).findIdx? fun t => strEqual t.2.name pname)
        = o.propdefs.findIdx? fun p => strEqual p.name pname := by
      rw [List.findIdx?_map, defs_eq ho]
      rfl
    simp only [findOnLine, ho, Option.bind_eq_bind, Option.bind_some, tagged_cons,
      List.findIdx?_append, hown]
    cases hi : o.propdefs.findIdx? fun p => strEqual p.name pname with
    | some i =>
      obtain ⟨hlt, -⟩ := List.findIdx?_eq_some_iff_getElem.mp hi
      simp [defs_eq ho, List.getElem?_append_left, hlt]
    | none =>
      rw [ih hrest (by simpa using hm)]
      cases hj : (tagged objects ks).findIdx? fun t => strEqual t.2.name pname with
      | none => simp
      | some j => simp [defs_eq ho, List.getElem?_append_right, Nat.add_comm, Nat.add_left_comm]

/-- A name that is not built in leads to a slot if some definition that counts has it. -/
lemma dbFindProperty_eq {pname : String} (hname : isBuiltin pname = false) {x : Int}
    {ks : List Int} (hks : Along objects Object.parent x ks) :
    dbFindProperty objects x pname = do
      let i ← (tags objects x).findIdx? fun t => strEqual t.2.name pname
      let t ← (tags objects x)[i]?
      return .slot t.1 i := by
  have hbuiltin : builtinProperties.find? (fun p => strEqual pname p) = none := by
    rw [List.find?_eq_none]
    simpa [isBuiltin] using hname
  rw [dbFindProperty, hbuiltin, hks.tags_eq, findOnLine_eq hks hks.length_le]
  simp only [Option.bind_eq_bind, Option.bind_assoc, Nat.zero_add]
  rfl

/-- The slot that is found is that for a definition with the name. -/
lemma exists_tag_of_find {pname : String} {x : Int} {ks : List Int}
    (hks : Along objects Object.parent x ks) {definer : Int} {n : Nat}
    (h : dbFindProperty objects x pname = some (.slot definer n)) :
    ∃ p, (tags objects x)[n]? = some (definer, p) ∧ strEqual p.name pname := by
  cases hname : isBuiltin pname with
  | true =>
    have hsome : (builtinProperties.find? fun p => strEqual pname p).isSome = true := by
      rwa [List.find?_isSome, ← List.any_eq_true]
    obtain ⟨p, hp⟩ := Option.isSome_iff_exists.mp hsome
    rw [dbFindProperty, hp] at h
    cases h
  | false =>
    rw [dbFindProperty_eq hname hks] at h
    obtain ⟨i, hi, h⟩ := Option.bind_eq_some_iff.mp h
    obtain ⟨t, ht, h⟩ := Option.bind_eq_some_iff.mp h
    cases h
    obtain ⟨hlt, hmatch, -⟩ := List.findIdx?_eq_some_iff_getElem.mp hi
    rw [List.getElem?_eq_getElem hlt] at ht
    cases ht
    exact ⟨_, List.getElem?_eq_getElem hlt, hmatch⟩

/-! ## Values -/

/-- The loop over clear slots ends at the nearest one that is not. -/
lemma PropsFit.exists_inherited (hfit : PropsFit objects) {c : Int} {ks : List Int}
    (ha : Along objects Object.parent c ks) {m n : Nat} (hm : ks.length ≤ m)
    {t : Int × Propdef} (ht : (tags objects c)[n]? = some t) :
    ∃ v, valueOnLine objects m c n = some v ∧ Inherits objects t c v := by
  induction ks generalizing c m n with
  | nil =>
    rw [ha.tags_eq, tagged_nil] at ht
    cases ht
  | cons k ks ih =>
    obtain ⟨m, rfl⟩ : ∃ l, m = l + 1 := ⟨m - 1, by simp at hm; omega⟩
    have hline := ha.tags_eq
    have hcount : countProperties objects c = (lineProps objects c).length := countProperties_eq c
    rw [ha.lineProps_eq_map, List.length_map] at hcount
    have hself := ha
    obtain ⟨rfl, -, o, ho, hrest⟩ := ha
    have hslot := slotOf_eq ho (hfit.nodup_tags ho hself) ht
    obtain ⟨hn, -⟩ := List.getElem?_eq_some_iff.mp ht
    have hlt : n < o.propval.length := by rwa [hfit.length c o ho, hcount]
    rw [List.getElem?_eq_getElem hlt] at hslot
    simp only [valueOnLine, ho, Option.bind_eq_bind, Option.bind_some,
      List.getElem?_eq_getElem hlt]
    cases hclear : o.propval[n].var.isClear with
    | false => exact ⟨_, rfl, .own hslot hclear⟩
    | true =>
      have hown : o.propdefs.length ≤ n := by
        by_contra hlt'
        have hmem : o.propval[n] ∈ o.propval.take o.propdefs.length :=
          List.mem_take_iff_getElem.mpr ⟨n, by omega, rfl⟩
        have hset := hfit.set c o ho _ hmem
        rw [hclear] at hset
        cases hset
      rw [tagged_cons, defs_eq ho] at hline
      have ht' : (tags objects o.parent)[n - o.propdefs.length]? = some t := by
        rw [hline, List.getElem?_append_right (by simpa using hown)] at ht
        rw [hrest.tags_eq]
        simpa using ht
      obtain ⟨v, hv, hup⟩ := ih hrest (by simpa using hm) ht'
      refine ⟨v, ?_, .parent ho hslot hclear hup⟩
      simp only [countLess, if_pos hown, if_true, Option.bind_some]
      exact hv

/-- Every slot has a value, its own or one that is inherited. -/
lemma PropsFit.exists_valueOnLine (hfit : PropsFit objects) {c : Int} {ks : List Int}
    (ha : Along objects Object.parent c ks) {m n : Nat} (hm : ks.length ≤ m)
    (hn : n < countProperties objects c) :
    ∃ v, valueOnLine objects m c n = some v ∧ v.isClear = false := by
  rw [ha.countProperties_eq, ← ha.tags_eq] at hn
  obtain ⟨v, hv, hinherits⟩ := hfit.exists_inherited ha hm (List.getElem?_eq_getElem hn)
  exact ⟨v, hv, hinherits.isClear⟩

/-- `db_find_property` does what inheritance says: a name is found if a definition that counts has
it, the owner and the permissions are those of the object's own slot for it, and the value is
inherited. -/
def FindsInherited (objects : Objects P) (x : Int) (pname : String) : Prop :=
  ((dbFindProperty objects x pname).isSome ↔ ∃ t ∈ tags objects x, strEqual t.2.name pname) ∧
  ∀ handle, dbFindProperty objects x pname = some handle →
    ∃ n, ∃ t ∈ tags objects x, strEqual t.2.name pname ∧ handle = .slot t.1 n ∧
      (findObject objects x).bind (fun o => o.propval[n]?) = slotOf objects x t ∧
      ∃ v, valueOnLine objects objects.length x n = some v ∧ Inherits objects t x v

lemma PropsFit.findsInherited (hfit : PropsFit objects) {x : Int} {o : Object P} {ks : List Int}
    (ho : findObject objects x = some o) (hks : Along objects Object.parent x ks)
    {pname : String} (hname : isBuiltin pname = false) : FindsInherited objects x pname := by
  constructor
  · rw [dbFindProperty_eq hname hks, ← List.any_eq_true, ← List.findIdx?_isSome]
    cases hi : (tags objects x).findIdx? fun t => strEqual t.2.name pname with
    | none => simp
    | some i =>
      obtain ⟨hlt, -⟩ := List.findIdx?_eq_some_iff_getElem.mp hi
      simp [List.getElem?_eq_getElem hlt]
  · intro handle hfind
    obtain ⟨definer, n, rfl⟩ : ∃ definer n, handle = .slot definer n := by
      rw [dbFindProperty_eq hname hks] at hfind
      obtain ⟨i, -, hfind⟩ := Option.bind_eq_some_iff.mp hfind
      obtain ⟨t, -, hfind⟩ := Option.bind_eq_some_iff.mp hfind
      cases hfind
      exact ⟨_, _, rfl⟩
    obtain ⟨p, hp, hmatch⟩ := exists_tag_of_find hks hfind
    obtain ⟨v, hv, hinherits⟩ := hfit.exists_inherited hks hks.length_le hp
    refine ⟨n, _, List.mem_of_getElem? hp, hmatch, rfl, ?_, v, hv, hinherits⟩
    rw [slotOf_eq ho (hfit.nodup_tags ho hks) hp, ho, Option.bind_some]

/-! ## Other definitions -/

/-- Whatever counts for an object before and after has the same slot. -/
def KeepsSlots (objects objects' : Objects P) : Prop :=
  ∀ x, ∀ t ∈ tags objects x, t ∈ tags objects' x → slotOf objects' x t = slotOf objects x t

lemma KeepsSlots.refl : KeepsSlots objects objects := fun _ _ _ _ => rfl

/-- A stretch of slots has been replaced, none of which was for a definition that still counts. -/
lemma Respliced.keepsSlots {oid : Int} {old new common : List (Int × Propdef)}
    (hr : Respliced objects objects' oid old new common) (hc : Coherent objects)
    (hc' : Coherent objects') (hsame : ∀ x, isValid objects' x = isValid objects x)
    (hapart : ∀ t ∈ old, t ∉ new) : KeepsSlots objects objects' := by
  intro x t ht ht'
  cases ho' : findObject objects' x with
  | none =>
    have ho : findObject objects x = none := by
      simpa [isValid, ho'] using hsame x
    simp [slotOf, ho, ho']
  | some o' =>
    by_cases hbelow : Below objects oid x
    · obtain ⟨o, first, slots, ho, htags, htags', hlen, hval, -⟩ := hr.below x o' ho' hbelow
      obtain ⟨ks, hks⟩ := hc.parents.exists_line ho
      obtain ⟨ks', hks'⟩ := hc'.parents.exists_line ho'
      have hnodup := hc.fit.nodup_tags ho (hks.cons_self ho)
      have hnodup' := hc'.fit.nodup_tags ho' (hks'.cons_self ho')
      have hcount : first.length ≤ o.propval.length := by
        rw [hc.fit.length x o ho, countProperties_eq, (hks.cons_self ho).lineProps_eq_map, htags]
        simp
      rw [htags] at hnodup ht
      rw [htags'] at hnodup' ht'
      simp only [slotOf, ho, ho', Option.bind_eq_bind, Option.bind_some, htags, htags', hval]
      by_cases hfirst : t ∈ first
      · have hidx := List.idxOf_lt_length_of_mem hfirst
        rw [List.append_assoc, List.append_assoc, List.idxOf_append_of_mem hfirst,
          List.append_assoc, List.idxOf_append_of_mem hfirst,
          List.getElem?_append_left (by simp; omega), List.getElem?_take_of_lt hidx]
      · have hcommon : t ∈ common := by
          simp only [List.mem_append, hfirst, false_or] at ht ht'
          rcases ht with hold | hcommon
          · exact ht'.resolve_left (hapart t hold)
          · exact hcommon
        have hold : t ∉ first ++ old := fun h => List.disjoint_of_nodup_append hnodup h hcommon
        have hnew : t ∉ first ++ new := fun h => List.disjoint_of_nodup_append hnodup' h hcommon
        rw [List.idxOf_append_of_notMem hold, List.idxOf_append_of_notMem hnew,
          List.getElem?_append_right (by simp; omega), List.getElem?_drop]
        congr 1
        simp
        omega
    · obtain ⟨o, ho, -, hval, htags⟩ := hr.other x o' ho' hbelow
      simp [slotOf, ho, ho', hval, htags]

/-! ## Renaming -/

lemma exists_of_mem_tags {x : Int} {t : Int × Propdef} (h : t ∈ tags objects x) :
    ∃ o, findObject objects x = some o := by
  cases ho : findObject objects x with
  | some o => exact ⟨o, rfl⟩
  | none =>
    simp only [tags, line, ho, Option.bind_eq_bind, Option.bind_none] at h
    split_ifs at h <;> cases h

lemma idxOf_replace {α : Type} [BEq α] [LawfulBEq α] {as bs : List α} {a b t : α}
    (h : (as ++ a :: bs).Nodup) (h' : (as ++ b :: bs).Nodup) (ht : t ∈ as ++ a :: bs)
    (ht' : t ∈ as ++ b :: bs) : (as ++ b :: bs).idxOf t = (as ++ a :: bs).idxOf t := by
  by_cases has : t ∈ as
  · rw [List.idxOf_append_of_mem has, List.idxOf_append_of_mem has]
  · rw [List.idxOf_append_of_notMem has, List.idxOf_append_of_notMem has]
    rw [List.mem_append, List.mem_cons] at ht ht'
    have hbs := (List.nodup_cons.mp (List.nodup_append.mp h).2.1).1
    have hbs' := (List.nodup_cons.mp (List.nodup_append.mp h').2.1).1
    by_cases heq : t = a
    · have hb := (ht'.resolve_left has).resolve_right (heq ▸ hbs)
      rw [← heq, ← hb, List.idxOf_cons_self]
    · have hmem := (ht.resolve_left has).resolve_left heq
      have heq' : t ≠ b := fun hb => hbs' (hb ▸ hmem)
      rw [List.idxOf_cons_ne _ (Ne.symm heq), List.idxOf_cons_ne _ (Ne.symm heq')]

lemma Coherent.keepsSlots_rename (hc : Coherent objects) {oid : Int} {o : Object P}
    (ho : findObject objects oid = some o) {first rest : List Propdef} {p new : Propdef}
    (hdefs : o.propdefs = first ++ [p] ++ rest)
    (hc' : Coherent (put objects oid { o with propdefs := first ++ [new] ++ rest })) :
    KeepsSlots objects (put objects oid { o with propdefs := first ++ [new] ++ rest }) := by
  intro x t ht ht'
  obtain ⟨ox, hox⟩ := exists_of_mem_tags ht
  obtain ⟨js, hjs⟩ := hc.parents.exists_line hox
  have hx : Along objects Object.parent x (x :: js) := hjs.cons_self hox
  have hput : SameLinks parentLinks objects
      (put objects oid { o with propdefs := first ++ [new] ++ rest }) := .put ho rfl
  have hx' : Along (put objects oid { o with propdefs := first ++ [new] ++ rest })
      Object.parent x (x :: js) :=
    hx.congr fun k _ => hput.map_up k
  obtain ⟨ox', hox', hval⟩ : ∃ ox', findObject
      (put objects oid { o with propdefs := first ++ [new] ++ rest }) x = some ox' ∧
      ox'.propval = ox.propval := by
    rw [findObject_put ho]
    split_ifs with hxo
    · rw [hxo, ho] at hox
      cases hox
      exact ⟨_, rfl, rfl⟩
    · exact ⟨ox, hox, rfl⟩
  have hnodup := hc.fit.nodup_tags hox hx
  have hnodup' := hc'.fit.nodup_tags hox' hx'
  suffices hidx : (tags (put objects oid { o with propdefs := first ++ [new] ++ rest }) x).idxOf t
      = (tags objects x).idxOf t by
    simp only [slotOf, hox, hox', hval, hidx, Option.bind_eq_bind, Option.bind_some]
  by_cases hmem : oid ∈ x :: js
  · obtain ⟨pre, post, hsplit⟩ := List.append_of_mem hmem
    rw [hsplit] at hx
    have htags' : tags (put objects oid { o with propdefs := first ++ [new] ++ rest }) x
        = (tagged objects pre ++ first.map (Prod.mk oid)) ++
          (oid, new) :: (rest.map (Prod.mk oid) ++ tagged objects post) := by
      rw [tags_redefine ho hx]
      simp
    have htags : tags objects x = (tagged objects pre ++ first.map (Prod.mk oid)) ++
        (oid, p) :: (rest.map (Prod.mk oid) ++ tagged objects post) := by
      rw [hx.tags_eq, tagged_append, tagged_cons, defs_eq ho, hdefs]
      simp
    rw [htags] at ht hnodup
    rw [htags'] at ht' hnodup'
    rw [htags, htags']
    exact idxOf_replace hnodup hnodup' ht ht'
  · have htags : tagged (put objects oid { o with propdefs := first ++ [new] ++ rest }) (x :: js)
        = tagged objects (x :: js) := tagged_congr fun k hk => by
      rw [defs_put ho, if_neg fun (h : k = oid) => hmem (h ▸ hk)]
    rw [hx'.tags_eq, hx.tags_eq, htags]

namespace Recached

lemma tags (h : Recached objects objects') (hends : Ends objects Object.parent) (x : Int) :
    tags objects' x = tags objects x := by
  have hback : ∀ k, (findObject objects' k).map Object.parent
      = (findObject objects k).map Object.parent := h.map_eq _ fun _ => rfl
  cases ho : findObject objects x with
  | none =>
    have ho' : findObject objects' x = none := by
      have hnone := hback x
      rw [ho] at hnone
      exact Option.map_eq_none_iff.mp hnone
    simp only [Db.tags, line, ho, ho', Option.bind_eq_bind, Option.bind_none]
    split_ifs <;> rfl
  | some o =>
    obtain ⟨ks, hks⟩ := hends x o ho
    have hx := hks.cons_self ho
    have hx' : Along objects' Object.parent x (x :: ks) := hx.congr fun k _ => hback k
    rw [hx.tags_eq, hx'.tags_eq, tagged_congr fun k _ => h.defs k]

lemma slotOf (h : Recached objects objects') (hends : Ends objects Object.parent) (x : Int)
    (t : Int × Propdef) : slotOf objects' x t = slotOf objects x t := by
  have hval := h.map_eq (fun o => o.propval[(Db.tags objects x).idxOf t]?) (fun _ => rfl) x
  have hbind := congrArg (fun v => Option.bind v id) hval
  simp only [Option.bind_map] at hbind
  rw [Db.slotOf, Db.slotOf, h.tags hends]
  exact hbind

end Recached

/-! ## Operations -/

lemma Coherent.keepsSlots_addPropdef (hc : Coherent objects) {oid : Int} {pname : Propdef}
    {value : Var} (hvalue : value.isClear = false) {owner : Int} {flags : BitVec 16} {b : Bool}
    (heq : dbAddPropdef objects oid pname value owner flags = some (b, objects')) :
    KeepsSlots objects objects' := by
  cases ho : findObject objects oid with
  | none =>
    simp only [dbAddPropdef, definedAtOrBelow, ho, Option.bind_eq_bind, Option.bind_none] at heq
    split_ifs at heq
    cases heq
    exact .refl
  | some o =>
    obtain ⟨b', objects₁, heq₁, hnot, hparents, hlocations, hfit, hdone⟩ :=
      dbAddPropdef_spec hc.parents hc.fit ho pname hvalue owner flags
    rw [heq] at heq₁
    cases heq₁
    cases b with
    | false =>
      rw [hnot rfl]
      exact .refl
    | true =>
      exact (hdone rfl).keepsSlots hc
        ⟨hparents.consistent hc.parents, hlocations.consistent hc.locations, hfit⟩
        hparents.isValid (fun _ h => absurd h List.not_mem_nil)

lemma Coherent.keepsSlots_deletePropdef (hc : Coherent objects) {oid : Int} {pname : String}
    {b : Bool} (heq : dbDeletePropdef objects oid pname = some (b, objects')) :
    KeepsSlots objects objects' := by
  obtain ⟨o, ho, -⟩ := Option.bind_eq_some_iff.mp heq
  obtain ⟨b', objects₁, heq₁, hnot, hparents, hlocations, hfit, hdone⟩ :=
    dbDeletePropdef_spec hc.parents hc.fit ho pname
  rw [heq] at heq₁
  cases heq₁
  cases b with
  | false =>
    rw [hnot rfl]
    exact .refl
  | true =>
    obtain ⟨first, p, rest, -, -, hr⟩ := hdone rfl
    exact hr.keepsSlots hc
      ⟨hparents.consistent hc.parents, hlocations.consistent hc.locations, hfit⟩
      hparents.isValid fun _ _ => List.not_mem_nil

lemma Coherent.keepsSlots_changeParent (hc : Coherent objects) {oid parent : Int} {o : Object P}
    (ho : findObject objects oid = some o) (hparent : parent = nothing ∨ isValid objects parent)
    (hloop : ∀ ks, Along objects Object.parent parent ks → oid ∉ ks) {b : Bool}
    (heq : dbChangeParent objects oid parent = some (b, objects')) :
    KeepsSlots objects objects' := by
  obtain ⟨b', objects₁, heq₁, -, hnot, hdone⟩ :=
    dbChangeParent_spec hc.parents hc.fit ho hparent hloop
  rw [heq] at heq₁
  cases heq₁
  cases b with
  | false =>
    rw [hnot rfl]
    exact .refl
  | true =>
    obtain ⟨old, new, common, hr⟩ := hdone rfl
    exact hr.slots.keepsSlots hc (hr.coherent hc) hr.locations.isValid hr.apart

lemma Coherent.keepsSlots_renamePropdef {db db' : Db P} (hc : Coherent db.objects) {oid : Int}
    {old : String} {new : Propdef} {b : Bool}
    (heq : db.dbRenamePropdef oid old new = some (b, db')) :
    KeepsSlots db.objects db'.objects := by
  obtain rfl | ⟨objects₁, o, first, p, rest, hre, ho, hdefs, hfree, hdone⟩ :=
    hc.renamePropdef_spec heq
  · exact .refl
  · have hc₁ := hre.coherent hc
    intro x t ht ht'
    rw [hdone] at ht' ⊢
    rw [← hre.tags hc.parents.up] at ht
    rw [hc₁.keepsSlots_rename ho hdefs (hc₁.rename ho hdefs hfree) x t ht ht',
      hre.slotOf hc.parents.up]

end Db

end LambdaMOO
