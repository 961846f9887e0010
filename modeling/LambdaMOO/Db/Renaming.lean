import LambdaMOO.Db.Caches
import LambdaMOO.Db.Slots
import Mathlib.Data.Set.Insert

/-!
# Renaming in cached lists

A property that is for waifs under both its names is renamed in the cached lists of everybody
below, where it is found by the address of the old name; any other renaming takes these lists away.
-/

namespace LambdaMOO

namespace Db

variable {P : Type} {db : Db P} {oid : Int} {old new : Propdef}

/-- No two classes share a cached list. -/
def CachesApart (objects : Objects P) : Prop :=
  ∀ j k n, cacheOf objects j = some n → cacheOf objects k = some n → j = k

/-- Definitions whose names are at one address have the same name. -/
def Named (objects : Objects P) : Prop :=
  ∀ j k, ∀ p ∈ defs objects j, ∀ q ∈ defs objects k, p.addr = q.addr → p.name = q.name

/-- The list with the name at the address of the old one replaced. -/
def patch (old new : Propdef) (ds : List Propdef) : Option (List Propdef) :=
  (ds.findIdx? fun p => p.addr = old.addr).map fun i => ds.set i new

lemma patch_append {as bs : List Propdef} (h : ∀ p ∈ as, p.addr ≠ old.addr) :
    patch old new (as ++ old :: bs) = some (as ++ new :: bs) := by
  have hfind : (as ++ old :: bs).findIdx? (fun p => p.addr = old.addr) = some as.length := by
    rw [List.findIdx?_append, List.findIdx?_eq_none_iff.mpr fun p hp => by simpa using h p hp]
    simp [List.findIdx?_cons]
  rw [patch, hfind, Option.map_some, List.set_append_right _ _ (Nat.le_refl _), Nat.sub_self]
  rfl

lemma isValid_of_below {objects : Objects P} {k : Int} (h : Below objects oid k) :
    isValid objects k := by
  obtain ⟨pre, post, hline⟩ := h
  refine hline.isValid.resolve_left fun hnil => ?_
  rw [hnil] at hline
  have hend : Along objects Object.parent nothing [] := rfl
  simpa using hline.unique hend

/-! ## The walk -/

/-- The recursion goes on as long as each object can be dealt with. -/
lemma exists_renameOnList {objects : Objects P} {R : Set Int → Db P → Prop} {s : Set Int}
    (hR : ∀ seen db, R seen db → Alike objects db.objects)
    (hstep : ∀ seen db k, R seen db → k ∈ s → k ∉ seen →
      ∃ db', db.renameCached k old new = some db' ∧ R (insert k seen) db')
    {q start : Int} {f : Offspring} (h : Hangs objects q start f) (hnodup : f.members.Nodup)
    (hsub : ∀ k ∈ f.members, k ∈ s) {n : Nat} (hn : f.height < n) {seen : Set Int}
    (hdb : R seen db) (hnew : ∀ k ∈ f.members, k ∉ seen) :
    ∃ db', renameOnList old new n start db = some db' ∧ R (seen ∪ {k | k ∈ f.members}) db' := by
  induction f generalizing q start n seen db with
  | nil =>
    obtain ⟨n, rfl⟩ : ∃ m, n = m + 1 := ⟨n - 1, by omega⟩
    refine ⟨db, ?_, by simpa [Offspring.members] using hdb⟩
    rw [renameOnList, if_pos (show start = nothing from h)]
  | cons k below beside ihb ihs =>
    obtain ⟨n, rfl⟩ : ∃ m, n = m + 1 := ⟨n - 1, by omega⟩
    obtain ⟨rfl, hne, o, ho, -, hb, hs⟩ := h
    rw [Offspring.height] at hn
    simp only [Offspring.members, List.mem_cons, List.mem_append] at hsub hnew
    rw [Offspring.members, List.nodup_cons, List.mem_append, not_or, List.nodup_append] at hnodup
    obtain ⟨⟨hkb, hks⟩, hnb, hns, hapart⟩ := hnodup
    have hlinks : ∀ {seen : Set Int} {db : Db P}, R seen db → ∃ o',
        findObject db.objects start = some o' ∧ o'.child = o.child ∧ o'.sibling = o.sibling := by
      intro seen db hdb
      obtain ⟨o', ho', hframe⟩ := (hR seen db hdb).findObject ho
      exact ⟨o', ho', Object.eq_of_frame Object.child (fun _ => rfl) hframe,
        Object.eq_of_frame Object.sibling (fun _ => rfl) hframe⟩
    -- the object itself, those below it and those beside it
    obtain ⟨db₁, heq₁, hdb₁⟩ := hstep seen db start hdb (hsub start (.inl rfl)) (hnew start (.inl rfl))
    obtain ⟨o₁, ho₁, hchild, -⟩ := hlinks hdb₁
    obtain ⟨db₂, heq₂, hdb₂⟩ := ihb hb hnb (fun x hx => hsub x (.inr (.inl hx))) (n := n) (by omega)
      hdb₁ fun x hx hmem => hmem.elim (fun h => hkb (h ▸ hx)) (hnew x (.inr (.inl hx)))
    obtain ⟨o₂, ho₂, -, hsibling⟩ := hlinks hdb₂
    obtain ⟨db₃, heq₃, hdb₃⟩ := ihs hs hns (fun x hx => hsub x (.inr (.inr hx))) (n := n) (by omega)
      hdb₂ fun x hx hmem => hmem.elim
        (fun hmem => hmem.elim (fun h => hks (h ▸ hx)) (hnew x (.inr (.inr hx))))
        fun hxb => hapart x hxb x hx rfl
    refine ⟨db₃, ?_, ?_⟩
    · simp only [renameOnList, if_neg hne, heq₁, Option.bind_eq_bind, Option.bind_some, ho₁, hchild,
        heq₂, ho₂, hsibling, heq₃]
    · convert hdb₃ using 1
      ext x
      simp only [Offspring.members, Set.mem_union, Set.mem_ofPred_eq, List.mem_cons,
        List.mem_append, Set.mem_insert_iff]
      tauto

/-- The same from the object on whose definition is renamed. -/
lemma exists_renamePropRecursively {R : Set Int → Db P → Prop}
    (hc : Consistent db.objects parentLinks) {o : Object P}
    (ho : findObject db.objects oid = some o)
    (hR : ∀ seen db', R seen db' → Alike db.objects db'.objects)
    (hstep : ∀ seen db' k, R seen db' → Below db.objects oid k → k ∉ seen →
      ∃ db'', db'.renameCached k old new = some db'' ∧ R (insert k seen) db'')
    (hdb : R ∅ db) :
    ∃ db', db.renamePropRecursively oid old new = some db' ∧
      R {k | Below db.objects oid k} db' := by
  obtain ⟨ks, hks⟩ := hc.up oid o ho
  have hoid := hks.cons_self ho
  obtain ⟨f, hf⟩ := hc.exists_hangs ho
  have hbelow : ∀ x, Below db.objects oid x ↔ x = oid ∨ x ∈ f.members :=
    fun x => hf.below_iff hc ho
  obtain ⟨db₁, heq₁, hdb₁⟩ := hstep ∅ db oid hdb ((hbelow oid).mpr (.inl rfl)) (Set.notMem_empty _)
  obtain ⟨o₁, ho₁, hframe⟩ := (hR _ db₁ hdb₁).findObject ho
  have hchild : o₁.child = o.child := Object.eq_of_frame Object.child (fun _ => rfl) hframe
  have hlen : db₁.objects.length = db.objects.length := (hR _ db₁ hdb₁).length
  obtain ⟨db₂, heq₂, hdb₂⟩ := exists_renameOnList (s := {k | Below db.objects oid k}) hR hstep hf
    (hf.nodup_members hoid) (fun k hk => (hbelow k).mpr (.inr hk))
    (n := db.objects.length + 1) (Nat.lt_succ_of_le (hf.height_le hoid)) hdb₁ (by
      intro k hk hmem
      obtain rfl : k = oid := by simpa using hmem
      exact hf.notMem hoid hk)
  refine ⟨db₂, ?_, ?_⟩
  · simp only [renamePropRecursively, heq₁, Option.bind_eq_bind, Option.bind_some, ho₁, hchild, hlen,
      heq₂]
  · convert hdb₂ using 1
    ext x
    simp [hbelow]

/-! ## Properties that are not for waifs under both names -/

/-- Where the list of an object is cached, it is taken away. -/
lemma exists_renameCached_sheds (hwaif : (isWaifProp old && isWaifProp new) = false) {k : Int}
    (hk : isValid db.objects k) : ∃ objects', db.renameCached k old new
      = some { db with objects := objects' } ∧ Sheds db.objects objects' [k] := by
  obtain ⟨o, ho⟩ := isValid_iff.mp hk
  cases hcache : o.waifPropdefs with
  | none =>
    refine ⟨db.objects, ?_, .refl, ?_, fun _ => .inr rfl⟩
    · simp only [renameCached, ho, Option.bind_eq_bind, Option.bind_some, hcache]
      rfl
    · intro x hx
      rw [List.mem_singleton.mp hx, cacheOf_eq ho, hcache]
  | some wpd =>
    refine ⟨put db.objects k { o with waifPropdefs := none }, ?_, .put ho rfl rfl⟩
    simp only [renameCached, ho, Option.bind_eq_bind, Option.bind_some, hcache, waifRenamePropdef,
      hwaif, Bool.false_eq_true, if_false]

/-- Only objects have changed, and certain ones have lost their cached lists. -/
structure Uncached (db db' : Db P) (seen : Set Int) : Prop where
  sheds : ∃ ks, Sheds db.objects db'.objects ks ∧ ∀ k, k ∈ seen ↔ k ∈ ks
  rest : db' = { db with objects := db'.objects }

lemma exists_renamePropRecursively_sheds (hwaif : (isWaifProp old && isWaifProp new) = false)
    (hc : Consistent db.objects parentLinks) {o : Object P}
    (ho : findObject db.objects oid = some o) :
    ∃ db', db.renamePropRecursively oid old new = some db' ∧
      Uncached db db' {k | Below db.objects oid k} := by
  refine exists_renamePropRecursively (R := fun seen db' => Uncached db db' seen) hc ho ?_ ?_ ?_
  · rintro seen db' ⟨⟨ks, hs, -⟩, -⟩
    exact hs.alike
  · rintro seen db' k ⟨⟨ks, hs, hseen⟩, hrest⟩ hk -
    have hvalid : isValid db'.objects k := by
      rw [hs.alike.isValid]
      exact isValid_of_below hk
    obtain ⟨objects', heq, hs'⟩ := exists_renameCached_sheds hwaif hvalid
    refine ⟨_, heq, ⟨ks ++ [k], hs.trans hs', fun x => ?_⟩, ?_⟩
    · rw [List.mem_append, List.mem_singleton, ← hseen, Set.mem_insert_iff, or_comm]
    · rw [hrest]
  · exact ⟨⟨[], .refl, fun k => by simp⟩, rfl⟩

/-! ## Properties that are for waifs under both names -/

/-- Only lists have changed, and certain classes have the new name in theirs. -/
structure Patched (old new : Propdef) (db db' : Db P) (seen : Set Int) : Prop where
  rest : db' = { db with waifPropdefs := db'.waifPropdefs }
  lengths : ∀ a : Nat, (db'.waifPropdefs[a]?).map List.length = (db.waifPropdefs[a]?).map List.length
  done : ∀ k n, k ∈ seen → cacheOf db.objects k = some n →
    db'.waifPropdefs[n]? = patch old new (genWaifPropdefs db.objects k)
  todo : ∀ k n, k ∉ seen → cacheOf db.objects k = some n →
    db'.waifPropdefs[n]? = some (genWaifPropdefs db.objects k)

lemma Patched.step {db' : Db P} {seen : Set Int} (h : Patched old new db db' seen)
    (hwaif : (isWaifProp old && isWaifProp new) = true) (hapart : CachesApart db.objects) {k : Int}
    (hk : isValid db.objects k) (hnot : k ∉ seen)
    (hfound : (patch old new (genWaifPropdefs db.objects k)).isSome) :
    ∃ db'', db'.renameCached k old new = some db'' ∧ Patched old new db db'' (insert k seen) := by
  have hobjects : db'.objects = db.objects := by rw [h.rest]
  obtain ⟨o, ho⟩ := isValid_iff.mp hk
  cases hcache : o.waifPropdefs with
  | none =>
    refine ⟨db', ?_, h.rest, h.lengths, fun x n hx hn => ?_, fun x n hx hn => ?_⟩
    · simp only [renameCached, hobjects, ho, Option.bind_eq_bind, Option.bind_some, hcache]
      rfl
    · rcases hx with rfl | hx
      · rw [cacheOf_eq ho, hcache] at hn
        cases hn
      · exact h.done x n hx hn
    · exact h.todo x n (fun hmem => hx (.inr hmem)) hn
  | some wpd =>
    have hwpd : cacheOf db.objects k = some wpd := by rw [cacheOf_eq ho, hcache]
    have hlist := h.todo k wpd hnot hwpd
    obtain ⟨ds, hds⟩ := Option.isSome_iff_exists.mp hfound
    obtain ⟨i, hi, rfl⟩ := Option.map_eq_some_iff.mp hds
    have hlt := (List.getElem?_eq_some_iff.mp hlist).1
    have hother : ∀ x n, x ≠ k → cacheOf db.objects x = some n → n ≠ wpd := by
      rintro x n hne hn rfl
      exact hne (hapart x k n hn hwpd)
    refine ⟨{ db' with waifPropdefs :=
      db'.waifPropdefs.set wpd ((genWaifPropdefs db.objects k).set i new) }, ?_, ?_, ?_, ?_, ?_⟩
    · simp only [renameCached, hobjects, ho, Option.bind_eq_bind, Option.bind_some, hcache,
        waifRenamePropdef, hwaif, if_true, hlist, hi]
      rfl
    · rw [h.rest]
    · intro a
      rw [← h.lengths a]
      by_cases ha : a = wpd
      · rw [ha, List.getElem?_set_self hlt, hlist, Option.map_some, Option.map_some,
          List.length_set]
      · rw [List.getElem?_set_ne (Ne.symm ha)]
    · rintro x n hx hn
      by_cases hxk : x = k
      · subst hxk
        rw [hwpd] at hn
        cases hn
        rw [hds, List.getElem?_set_self hlt]
      · rw [List.getElem?_set_ne (hother x n hxk hn).symm]
        exact h.done x n (hx.resolve_left hxk) hn
    · intro x n hx hn
      have hxk : x ≠ k := fun heq => hx (.inl heq)
      rw [List.getElem?_set_ne (hother x n hxk hn).symm]
      exact h.todo x n (fun hmem => hx (.inr hmem)) hn

lemma exists_renamePropRecursively_patched (hwaif : (isWaifProp old && isWaifProp new) = true)
    (hc : Consistent db.objects parentLinks) (hok : CacheOk db) (hapart : CachesApart db.objects)
    {o : Object P} (ho : findObject db.objects oid = some o)
    (hfound : ∀ k, Below db.objects oid k →
      (patch old new (genWaifPropdefs db.objects k)).isSome) :
    ∃ db', db.renamePropRecursively oid old new = some db' ∧
      Patched old new db db' {k | Below db.objects oid k} := by
  refine exists_renamePropRecursively (R := fun seen db' => Patched old new db db' seen) hc ho ?_ ?_
    ?_
  · intro seen db' h
    rw [h.rest]
    exact .refl
  · intro seen db' k h hk hnot
    exact h.step hwaif hapart (isValid_of_below hk) hnot (hfound k hk)
  · exact ⟨rfl, fun _ => rfl, fun _ _ hk => absurd hk (Set.notMem_empty _), fun k n _ hn => hok k n hn⟩

/-! ## Lists after renaming -/

lemma isValid_of_mem_defs {objects : Objects P} {k : Int} {p : Propdef} (h : p ∈ defs objects k) :
    isValid objects k := by
  cases ho : findObject objects k with
  | none =>
    rw [defs, ho] at h
    cases h
  | some o => exact isValid_of_findObject ho

lemma exists_mem_defs {objects : Objects P} (hc : Consistent objects parentLinks) {k : Int}
    {p : Propdef} (hk : isValid objects k) (h : p ∈ lineProps objects k) :
    ∃ j, p ∈ defs objects j := by
  obtain ⟨o, ho⟩ := isValid_iff.mp hk
  obtain ⟨ks, hks⟩ := hc.up k o ho
  rw [lineProps_eq (hks.cons_self ho)] at h
  obtain ⟨j, -, hj⟩ := List.mem_flatMap.mp h
  exact ⟨j, hj⟩

/-- The old name is found in the list of everybody below, and the new one takes its place. -/
lemma patch_genWaifPropdefs (hc : Coherent db.objects) (hnamed : Named db.objects) {o : Object P}
    (ho : findObject db.objects oid = some o) {first rest : List Propdef}
    (hdefs : o.propdefs = first ++ [old] ++ rest)
    (hwaif : (isWaifProp old && isWaifProp new) = true) {k : Int}
    (hk : Below db.objects oid k) :
    patch old new (genWaifPropdefs db.objects k) = some (genWaifPropdefs
      (put db.objects oid { o with propdefs := first ++ [new] ++ rest }) k) := by
  obtain ⟨as, bs, hline, hline'⟩ := lineProps_rename ho new hdefs hk
  obtain ⟨hold, hnew⟩ := Bool.and_eq_true_iff.mp hwaif
  rw [genWaifPropdefs_eq, genWaifPropdefs_eq, hline, hline', List.filter_append,
    List.filter_append, List.filter_cons_of_pos hold, List.filter_cons_of_pos hnew]
  refine patch_append fun p hp haddr => ?_
  -- no other name on the line is at the address
  obtain ⟨ok, hok⟩ := isValid_iff.mp (isValid_of_below hk)
  have hp' : p ∈ as := (List.mem_filter.mp hp).1
  obtain ⟨j, hj⟩ := exists_mem_defs hc.parents (isValid_of_below hk)
    (hline ▸ List.mem_append_left _ hp' : p ∈ lineProps db.objects k)
  have hmem : old ∈ Db.defs db.objects oid := by
    rw [defs_eq ho, hdefs]
    simp
  have hname := hnamed j oid p hj old hmem haddr
  have hdistinct := hc.fit.distinct k ok hok
  rw [hline, List.pairwise_append] at hdistinct
  have hdiffer := hdistinct.2.2 p hp' old List.mem_cons_self
  rw [differ_iff, hname] at hdiffer
  exact hdiffer (strEqual_iff.mpr rfl)

/-- What has become of cached lists where one name may have been replaced. -/
structure RenamedLists (new : Propdef) (db db' : Db P) : Prop where
  cacheOk : CacheOk db'
  apart : CachesApart db'.objects
  defs : ∀ k, ∀ p ∈ defs db'.objects k, p ∈ [new] ∨ ∃ j, p ∈ Db.defs db.objects j
  waifs : db'.waifs = db.waifs
  lengths : ∀ a : Nat, (db'.waifPropdefs[a]?).map List.length
    = (db.waifPropdefs[a]?).map List.length

lemma RenamedLists.refl (hok : CacheOk db) (hapart : CachesApart db.objects) :
    RenamedLists new db db :=
  ⟨hok, hapart, fun k _ hp => .inr ⟨k, hp⟩, rfl, fun _ => rfl⟩

lemma defs_rename {objects : Objects P} {o : Object P} (ho : findObject objects oid = some o)
    {first rest : List Propdef} (hdefs : o.propdefs = first ++ [old] ++ rest) (k : Int) :
    ∀ p ∈ defs (put objects oid { o with propdefs := first ++ [new] ++ rest }) k,
      p ∈ [new] ∨ ∃ j, p ∈ defs objects j := by
  intro p hp
  rw [defs_put ho] at hp
  split_ifs at hp with hk
  · have hmem : p ∈ [new] ∨ p ∈ o.propdefs := by
      rw [hdefs]
      simp only [List.mem_append] at hp ⊢
      tauto
    exact hmem.imp_right fun hmem => ⟨oid, by rwa [defs_eq ho]⟩
  · exact .inr ⟨k, hp⟩

/-- An object gets other definitions. -/
lemma cacheOf_redefine {objects : Objects P} {o : Object P} (ho : findObject objects oid = some o)
    (propdefs : List Propdef) (k : Int) :
    cacheOf (put objects oid { o with propdefs := propdefs }) k = cacheOf objects k := by
  refine cacheOf_congr ?_
  rw [findObject_put ho]
  split_ifs with hk
  · rw [hk, ho]
    rfl
  · rfl

lemma Uncached.renamedLists {db' : Db P}
    (h : Uncached db db' {k | Below db.objects oid k}) (hc : Coherent db.objects)
    (hok : CacheOk db) (hapart : CachesApart db.objects) {o : Object P}
    (ho : findObject db'.objects oid = some o) {first rest : List Propdef}
    (hdefs : o.propdefs = first ++ [old] ++ rest) :
    RenamedLists new db { db' with
      objects := put db'.objects oid { o with propdefs := first ++ [new] ++ rest } } := by
  obtain ⟨⟨ks, hs, hseen⟩, hrest⟩ := h
  have hlinks : SameLinks parentLinks db.objects db'.objects := hs.alike.sameLinks fun _ => rfl
  have hends : Ends db'.objects Object.parent := (hlinks.consistent hc.parents).up
  have hcache : ∀ {k n}, cacheOf (put db'.objects oid
      { o with propdefs := first ++ [new] ++ rest }) k = some n →
      cacheOf db.objects k = some n ∧ ¬ Below db.objects oid k := by
    intro k n hn
    rw [cacheOf_redefine ho] at hn
    refine ⟨(hs.kept k).elim (fun hnone => ?_) fun heq => heq ▸ hn, fun hk => ?_⟩
    · rw [hn] at hnone
      cases hnone
    · rw [hs.gone k ((hseen k).mp hk)] at hn
      cases hn
  refine ⟨fun k n hn => ?_, fun j k n hj hk => hapart j k n (hcache hj).1 (hcache hk).1,
    fun k p hp => ?_, by rw [hrest], fun a => by rw [hrest]⟩
  · obtain ⟨hn, hk⟩ := hcache hn
    have hk' : ¬ Below db'.objects oid k := by
      rintro ⟨pre, post, hline⟩
      exact hk ⟨pre, post, hs.alike.symm.along (fun _ => rfl) hline⟩
    have hvalid : isValid db'.objects k := by
      rw [hs.alike.isValid]
      exact isValid_of_cacheOf hn
    rw [genWaifPropdefs_eq, lineProps_put hends ho hvalid hk', hs.alike.lineProps,
      ← genWaifPropdefs_eq, ← hok k n hn, hrest]
  · refine (defs_rename ho hdefs k p hp).imp_right fun ⟨j, hj⟩ => ⟨j, ?_⟩
    rwa [← hs.alike.defs]

lemma Patched.renamedLists {db' : Db P}
    (h : Patched old new db db' {k | Below db.objects oid k}) (hc : Coherent db.objects)
    (hapart : CachesApart db.objects) (hnamed : Named db.objects)
    (hwaif : (isWaifProp old && isWaifProp new) = true) {o : Object P}
    (ho : findObject db'.objects oid = some o) {first rest : List Propdef}
    (hdefs : o.propdefs = first ++ [old] ++ rest) :
    RenamedLists new db { db' with
      objects := put db'.objects oid { o with propdefs := first ++ [new] ++ rest } } := by
  have hobjects : db'.objects = db.objects := by rw [h.rest]
  rw [hobjects] at ho ⊢
  have hcache := cacheOf_redefine ho (first ++ [new] ++ rest)
  refine ⟨fun k n hn => ?_, fun j k n hj hk => ?_, defs_rename ho hdefs, by rw [h.rest],
    h.lengths⟩
  · replace hn : cacheOf db.objects k = some n := (hcache k).symm.trans hn
    by_cases hk : Below db.objects oid k
    · rw [← patch_genWaifPropdefs hc hnamed ho hdefs hwaif hk]
      exact h.done k n hk hn
    · rw [genWaifPropdefs_eq, lineProps_put hc.parents.up ho (isValid_of_cacheOf hn) hk,
        ← genWaifPropdefs_eq]
      exact h.todo k n hk hn
  · exact hapart j k n ((hcache j).symm.trans hj) ((hcache k).symm.trans hk)

/-- `db_rename_propdef` comes to an end without a panic, and cached lists are as they should be. -/
lemma dbRenamePropdef_spec (hc : Coherent db.objects) (hok : CacheOk db)
    (hapart : CachesApart db.objects) (hnamed : Named db.objects) {o : Object P}
    (ho : findObject db.objects oid = some o) (pname : String) (new : Propdef) :
    ∃ b db', db.dbRenamePropdef oid pname new = some (b, db') ∧ RenamedLists new db db' := by
  cases hi : o.propdefs.findIdx? fun p => strEqual p.name pname with
  | none =>
    refine ⟨false, db, ?_, .refl hok hapart⟩
    simp only [dbRenamePropdef, ho, Option.bind_eq_bind, Option.bind_some, hi]
    rfl
  | some i =>
    obtain ⟨hlt, -, -⟩ := List.findIdx?_eq_some_iff_getElem.mp hi
    have hdefs : o.propdefs = o.propdefs.take i ++ [o.propdefs[i]] ++ o.propdefs.drop (i + 1) := by
      rw [List.append_assoc, List.singleton_append, ← List.drop_eq_getElem_cons hlt,
        List.take_append_drop]
    have hset : o.propdefs.set i new = o.propdefs.take i ++ [new] ++ o.propdefs.drop (i + 1) := by
      rw [List.set_eq_take_append_cons_drop, if_pos hlt]
      simp
    -- what is left when the checks have been passed
    obtain ⟨db₁, heq₁, o₁, ho₁, hdefs₁, hlists⟩ : ∃ db₁, db.renamePropRecursively oid
        o.propdefs[i] new = some db₁ ∧ ∃ o₁, findObject db₁.objects oid = some o₁ ∧
        o₁.propdefs = o.propdefs ∧ RenamedLists new db { db₁ with
          objects := put db₁.objects oid
            { o₁ with propdefs := o.propdefs.take i ++ [new] ++ o.propdefs.drop (i + 1) } } := by
      cases hwaif : isWaifProp o.propdefs[i] && isWaifProp new with
      | false =>
        obtain ⟨db₁, heq₁, h⟩ := exists_renamePropRecursively_sheds hwaif hc.parents ho
        obtain ⟨ks, hs, -⟩ := h.sheds
        obtain ⟨o₁, ho₁, hframe⟩ := hs.alike.findObject ho
        have hdefs₁ : o₁.propdefs = o.propdefs :=
          Object.eq_of_frame Object.propdefs (fun _ => rfl) hframe
        exact ⟨db₁, heq₁, o₁, ho₁, hdefs₁, h.renamedLists hc hok hapart ho₁ (hdefs₁.trans hdefs)⟩
      | true =>
        obtain ⟨db₁, heq₁, h⟩ := exists_renamePropRecursively_patched hwaif hc.parents hok hapart ho
          fun k hk => by
            rw [patch_genWaifPropdefs hc hnamed ho hdefs hwaif hk]
            rfl
        have ho₁ : findObject db₁.objects oid = some o := by
          rw [h.rest]
          exact ho
        exact ⟨db₁, heq₁, o, ho₁, rfl, h.renamedLists hc hapart hnamed hwaif ho₁ hdefs⟩
    have hgo : (do
        let p ← o.propdefs[i]?
        let db ← db.renamePropRecursively oid p new
        let o ← findObject db.objects oid
        let o := { o with propdefs := o.propdefs.set i new }
        return (true, { db with objects := put db.objects oid o }) : Option (Bool × Db P))
        = some (true, { db₁ with
          objects := put db₁.objects oid
            { o₁ with propdefs := o.propdefs.take i ++ [new] ++ o.propdefs.drop (i + 1) } }) := by
      simp only [List.getElem?_eq_getElem hlt, Option.bind_eq_bind, Option.bind_some, heq₁, ho₁,
        hdefs₁, hset]
      rfl
    obtain ⟨found, hfound, -⟩ := definedAtOrBelow_spec hc.parents ho new.name
    simp only [dbRenamePropdef, ho, Option.bind_eq_bind, Option.bind_some, hi, hfound] at hgo ⊢
    split_ifs
    · exact ⟨false, db, rfl, .refl hok hapart⟩
    · exact ⟨false, db, rfl, .refl hok hapart⟩
    · exact ⟨true, _, hgo, hlists⟩
    · exact ⟨true, _, hgo, hlists⟩

end Db

end LambdaMOO
