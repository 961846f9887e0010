import LambdaMOO.Db.Layout

/-!
# Adding and deleting definitions

A slot comes or goes on the object and, behind as many others, on everybody below it.
-/

namespace LambdaMOO

namespace Db

variable {P : Type} {objects objects' : Objects P}

/-! ## A definition list changes -/

lemma Consistent.exists_line (hc : Consistent objects parentLinks) {oid : Int} {o : Object P}
    (ho : findObject objects oid = some o) : ∃ ks, Along objects Object.parent o.parent ks :=
  hc.up oid o ho

lemma defs_put {oid : Int} {o : Object P} (ho : findObject objects oid = some o) (o' : Object P)
    (k : Int) :
    defs (put objects oid o') k = if k = oid then o'.propdefs else defs objects k := by
  rw [defs, findObject_put ho]
  split_ifs <;> rfl

lemma Below.congr (h : SameLinks parentLinks objects objects') {oid x : Int}
    (hx : Below objects oid x) : Below objects' oid x := by
  obtain ⟨pre, post, hline⟩ := hx
  exact ⟨pre, post, hline.congr fun k _ => h.map_up k⟩

/-- The slots from `pos` on, `old` many, have made room for `new` others with the values `good`
allows. -/
def Reslotted (good : Var → Prop) (pos old new : Nat) (o o' : Object P) : Prop :=
  ∃ slots : List Pval, slots.length = new ∧ (∀ pv ∈ slots, good pv.var) ∧
    o'.propval = o.propval.take pos ++ slots ++ o.propval.drop (pos + old)

lemma take_splice {α : Type} {l slots rest : List α} {m n : Nat} (hmn : m ≤ n)
    (hn : n ≤ l.length) : (l.take n ++ slots ++ rest).take m = l.take m := by
  rw [List.append_assoc, List.take_append_of_le_length (by rw [List.length_take]; omega),
    List.take_take, min_eq_left hmn]

/-- The definitions that count for somebody below an object whose own definitions change. -/
lemma tags_redefine {oid x : Int} {o : Object P} (ho : findObject objects oid = some o)
    {pre post : List Int} (hx : Along objects Object.parent x (pre ++ oid :: post))
    (ds : List Propdef) :
    tags (put objects oid { o with propdefs := ds }) x
      = tagged objects pre ++ ds.map (Prod.mk oid) ++ tagged objects post := by
  have hput : SameLinks parentLinks objects (put objects oid { o with propdefs := ds }) :=
    .put ho rfl
  have hx' : Along (put objects oid { o with propdefs := ds }) Object.parent x
      (pre ++ oid :: post) :=
    hx.congr fun k _ => hput.map_up k
  have hnodup := hx.nodup
  rw [List.nodup_append] at hnodup
  have hpre : tagged (put objects oid { o with propdefs := ds }) pre = tagged objects pre :=
    tagged_congr fun k hk => by
      rw [defs_put ho, if_neg fun h => hnodup.2.2 k hk oid List.mem_cons_self h]
  have hpost : tagged (put objects oid { o with propdefs := ds }) post = tagged objects post :=
    tagged_congr fun k hk => by
      rw [defs_put ho, if_neg fun (h : k = oid) => (List.nodup_cons.mp hnodup.2.1).1 (h ▸ hk)]
  rw [hx'.tags_eq, tagged_append, tagged_cons, hpre, hpost, defs_put ho, if_pos rfl]
  simp

/-- The numbers of definitions and of slots on the way. -/
lemma count_redefine {oid x : Int} {o ox : Object P} {first old new rest : List Propdef}
    (hfit : PropsFit objects) (ho : findObject objects oid = some o)
    (hdefs : o.propdefs = first ++ old ++ rest) {pre post : List Int}
    (hx : Along (put objects oid { o with propdefs := first ++ new ++ rest }) Object.parent x
      (pre ++ oid :: post))
    (hox : findObject (put objects oid { o with propdefs := first ++ new ++ rest }) x = some ox) :
    ∃ n behind, n = first.length + (pre.flatMap
        (defs (put objects oid { o with propdefs := first ++ new ++ rest }))).length ∧
      countProperties (put objects oid { o with propdefs := first ++ new ++ rest }) x
        = n + new.length + behind ∧
      ox.propval.length = n + old.length + behind := by
  set base := put objects oid { o with propdefs := first ++ new ++ rest } with hbase
  have hput : SameLinks parentLinks objects base := .put ho rfl
  have hxo : Along objects Object.parent x (pre ++ oid :: post) :=
    hx.congr fun k _ => hput.symm.map_up k
  obtain ⟨oy, hoy, hlen⟩ : ∃ oy, findObject objects x = some oy ∧ ox.propval = oy.propval := by
    rw [hbase, findObject_put ho] at hox
    split_ifs at hox with h
    · cases hox
      exact ⟨o, h ▸ ho, rfl⟩
    · exact ⟨ox, hox, rfl⟩
  refine ⟨_, rest.length + (tagged objects post).length, rfl, ?_, ?_⟩
  · have hpre : pre.flatMap (defs base) = pre.flatMap (defs objects) :=
      List.flatMap_congr fun k hk => by
        rw [hbase, defs_put ho, if_neg fun (h : k = oid) => hxo.notMem_prefix (h ▸ hk)]
    rw [countProperties_eq, hx.lineProps_eq_map, hbase, tags_redefine ho hxo, ← hbase, hpre]
    simp only [List.length_map, List.length_append, length_tagged]
    omega
  · have hpre : pre.flatMap (defs base) = pre.flatMap (defs objects) :=
      List.flatMap_congr fun k hk => by
        rw [hbase, defs_put ho, if_neg fun (h : k = oid) => hxo.notMem_prefix (h ▸ hk)]
    rw [hlen, hfit.length x oy hoy, countProperties_eq, hxo.lineProps_eq_map, hxo.tags_eq,
      tagged_append, tagged_cons, defs_eq ho, hdefs, hpre]
    simp only [List.length_map, List.length_append, length_tagged]
    omega

/-- A walk that does below the object what has been done to it, in the place where its definitions
have changed. -/
lemma Cascade.respliced {oid : Int} {o : Object P} {first old new rest : List Propdef}
    {good₀ good : Var → Prop}
    (hc : Consistent objects parentLinks) (hfit : PropsFit objects)
    (ho : findObject objects oid = some o) {ks : List Int}
    (hks : Along objects Object.parent o.parent ks) (hdefs : o.propdefs = first ++ old ++ rest)
    {o' : Object P}
    (hcas : Cascade (put objects oid { o with propdefs := first ++ new ++ rest }) objects' oid o'
      first.length fun p x x' => Reslotted good (p + x.propdefs.length) old.length new.length x x')
    (hself : Reslotted good₀ first.length old.length new.length o o')
    (hown : ∀ pv ∈ o'.propval.take o'.propdefs.length,
      pv ∈ o.propval.take o.propdefs.length ∨ pv.var.isClear = false) :
    Respliced objects objects' oid (old.map (Prod.mk oid)) (new.map (Prod.mk oid))
      (rest.map (Prod.mk oid) ++ tagged objects ks) := by
  have hoid := hks.cons_self ho
  set base := put objects oid { o with propdefs := first ++ new ++ rest } with hbase
  have hfind : ∀ {x}, x ≠ oid → findObject base x = findObject objects x := by
    intro x hx
    rw [hbase, findObject_put ho, if_neg hx]
  have hput : SameLinks parentLinks objects base := .put ho rfl
  have hsame : SameLinks parentLinks objects objects' :=
    hput.trans (hcas.alike.sameLinks fun _ => rfl)
  have hdefsAt : ∀ {k}, k ≠ oid → defs objects' k = defs objects k := by
    intro k hk
    rw [hcas.alike.defs, defs_put ho, if_neg hk]
  have hline : ∀ {x pre post}, Along objects Object.parent x (pre ++ oid :: post) →
      tags objects x = tagged objects pre ++ first.map (Prod.mk oid) ++ old.map (Prod.mk oid) ++
        (rest.map (Prod.mk oid) ++ tagged objects ks) ∧
      tags objects' x = tagged objects pre ++ first.map (Prod.mk oid) ++
        new.map (Prod.mk oid) ++ (rest.map (Prod.mk oid) ++ tagged objects ks) := by
    intro x pre post hx
    obtain ⟨-, heq⟩ : oid = oid ∧ post = ks := List.cons.inj (hx.suffix.unique hoid)
    subst heq
    have hxbase : Along base Object.parent x (pre ++ oid :: post) :=
      hx.congr fun k _ => hput.map_up k
    have hx' : Along objects' Object.parent x (pre ++ oid :: post) :=
      hx.congr fun k _ => hsame.map_up k
    have htags' : tags objects' x = tags base x := by
      rw [hx'.tags_eq, hxbase.tags_eq, tagged_congr fun k _ => hcas.alike.defs k]
    rw [htags', hbase, tags_redefine ho hx, hx.tags_eq, tagged_append, tagged_cons, defs_eq ho,
      hdefs]
    simp
  constructor
  case other =>
    intro x ox' hox' hx
    have hxo : x ≠ oid := by
      rintro rfl
      exact hx ⟨[], ks, hoid⟩
    have hox : findObject objects x = some ox' := by
      rw [← hox', hcas.other x fun h => hx (h.congr hput.symm), hfind hxo]
    refine ⟨ox', hox, rfl, rfl, ?_⟩
    obtain ⟨js, hjs⟩ := hc.up x ox' hox
    have hxjs := hjs.cons_self hox
    have hnot : oid ∉ x :: js := by
      intro hmem
      obtain ⟨pre, post, hsplit⟩ := List.append_of_mem hmem
      exact hx ⟨pre, post, hsplit ▸ hxjs⟩
    have hxjs' : Along objects' Object.parent x (x :: js) :=
      hxjs.congr fun k _ => hsame.map_up k
    rw [hxjs.tags_eq, hxjs'.tags_eq,
      tagged_congr fun k hk => hdefsAt fun (h : k = oid) => hnot (h ▸ hk)]
  case below =>
    rintro x ox' hox' ⟨pre, post, hx⟩
    obtain ⟨htags, htags'⟩ := hline hx
    by_cases hxo : x = oid
    · subst hxo
      rw [hcas.self] at hox'
      cases hox'
      obtain rfl : pre = [] := by
        have hlen := congrArg List.length (hx.unique hoid)
        have hlen' := congrArg List.length (hx.suffix.unique hoid)
        simp only [List.length_append, List.length_cons] at hlen hlen'
        exact List.length_eq_zero_iff.mp (by omega)
      obtain ⟨slots, hslots, -, hval⟩ := hself
      refine ⟨o, first.map (Prod.mk x), slots, ho, by simpa [tagged] using htags,
        by simpa [tagged] using htags', by simpa using hslots, by simpa using hval, hown⟩
    · obtain ⟨ox, hox⟩ := isValid_iff.mp (hsame.isValid x ▸ isValid_of_findObject hox')
      have hxbase : Along base Object.parent x (pre ++ oid :: post) :=
        hx.congr fun k _ => hput.map_up k
      obtain ⟨ox₂, p, hox₂, hp, slots, hslots, -, hval⟩ :=
        hcas.below x ox pre post hxbase hxo (by rw [hfind hxo, hox])
      rw [hox'] at hox₂
      cases hox₂
      have hfirst : p + ox.propdefs.length
          = (tagged objects pre ++ first.map (Prod.mk oid)).length := by
        have hpre : ∀ k ∈ pre, defs base k = defs objects k := fun k hk => by
          rw [defs_put ho, if_neg fun (h : k = oid) => hx.notMem_prefix (h ▸ hk)]
        rw [hp, List.flatMap_congr hpre, List.length_append, length_tagged, List.length_map,
          Nat.add_comm]
      rw [hfirst] at hval
      have hlen := hfit.length x ox hox
      rw [countProperties_eq, hx.lineProps_eq_map, List.length_map, htags] at hlen
      obtain ⟨ox₃, hox₃, hframe⟩ := hcas.alike.findObject (by rw [hfind hxo, hox])
      rw [hox'] at hox₃
      cases hox₃
      have hsameDefs : ox'.propdefs = ox.propdefs := Object.eq_of_frame _ (fun _ => rfl) hframe
      refine ⟨ox, _, slots, hox, htags, htags', by simpa using hslots, by simpa using hval,
        fun pv hpv => .inl ?_⟩
      rwa [hval, hsameDefs, take_splice (by omega)
        (by simp only [List.length_append] at hlen ⊢; omega)] at hpv

/-! ## Slots that come and go -/

/-- What `act` does to an object when its slots are still those of before: it replaces the
`old` slots behind `n` ones by `new` ones. -/
def Replaces (act : Objects P → Int → Nat → Option (Objects P)) (good : Var → Prop)
    (old new : Nat) : Prop :=
  ∀ objects x o n behind, findObject objects x = some o →
    countProperties objects x = n + new + behind → o.propval.length = n + old + behind →
    ∃ o', act objects x n = some (put objects x o') ∧ o'.frame = o.frame ∧
      Reslotted good n old new o o'

lemma exists_cascade_redefine (hc : Consistent objects parentLinks) (hfit : PropsFit objects)
    {oid : Int} {o o' : Object P} {first old new rest : List Propdef} {good : Var → Prop}
    (ho : findObject objects oid = some o) (hdefs : o.propdefs = first ++ old ++ rest)
    (hframe : o'.frame = { o with propdefs := first ++ new ++ rest }.frame)
    {act : Objects P → Int → Nat → Option (Objects P)}
    (hact : Replaces act good old.length new.length) :
    ∃ objects', forChildren (fun objects c pos => do
        let o ← findObject objects c
        act objects c (pos + o.propdefs.length)) (objects.length + 1) o.child first.length
          (put (put objects oid { o with propdefs := first ++ new ++ rest }) oid o')
          = some objects' ∧
      Cascade (put objects oid { o with propdefs := first ++ new ++ rest }) objects' oid o'
        first.length
        fun p x x' => Reslotted good (p + x.propdefs.length) old.length new.length x x' := by
  have hput : SameLinks parentLinks objects
      (put objects oid { o with propdefs := first ++ new ++ rest }) := .put ho rfl
  have hbo : findObject (put objects oid { o with propdefs := first ++ new ++ rest }) oid
      = some { o with propdefs := first ++ new ++ rest } := by
    rw [findObject_put ho, if_pos rfl]
  have hcas := exists_cascade
    (fun objects c pos => do
      let o ← findObject objects c
      act objects c (pos + o.propdefs.length))
    (fun _ _ => True)
    (fun p x x' => Reslotted good (p + x.propdefs.length) old.length new.length x x')
    first.length (hput.consistent hc) hbo hframe trivial
    (by
      intro x ox pre post p hx hox hp cur oq hcur hcx _ _
      obtain ⟨n, behind, hn, hcount, hlen⟩ := count_redefine hfit ho hdefs hx hox
      rw [← hp] at hn
      rw [← hcur.countProperties] at hcount
      obtain ⟨ox', heq, hframe, heffect⟩ := hact cur x ox n behind hcx hcount hlen
      subst hn
      refine ⟨ox', ?_, hframe, heffect, trivial⟩
      simp only [hcx, Option.bind_eq_bind, Option.bind_some, heq])
  rwa [length_put] at hcas

/-- The same for the object the definition is on. -/
lemma Replaces.self {act : Objects P → Int → Nat → Option (Objects P)} {oid : Int} {o : Object P}
    {first old new rest : List Propdef} {good : Var → Prop}
    (hact : Replaces act good old.length new.length)
    (hc : Consistent objects parentLinks) (hfit : PropsFit objects)
    (ho : findObject objects oid = some o) (hdefs : o.propdefs = first ++ old ++ rest) :
    ∃ o', act (put objects oid { o with propdefs := first ++ new ++ rest }) oid first.length
        = some (put (put objects oid { o with propdefs := first ++ new ++ rest }) oid o') ∧
      o'.frame = { o with propdefs := first ++ new ++ rest }.frame ∧
      Reslotted good first.length old.length new.length o o' := by
  have hput : SameLinks parentLinks objects
      (put objects oid { o with propdefs := first ++ new ++ rest }) := .put ho rfl
  have hbo : findObject (put objects oid { o with propdefs := first ++ new ++ rest }) oid
      = some { o with propdefs := first ++ new ++ rest } := by
    rw [findObject_put ho, if_pos rfl]
  obtain ⟨ks, hks⟩ := hc.up oid o ho
  have hoid : Along (put objects oid { o with propdefs := first ++ new ++ rest }) Object.parent oid
      ([] ++ oid :: ks) :=
    (hks.cons_self ho).congr fun k _ => hput.map_up k
  obtain ⟨n, behind, hn, hcount, hlen⟩ := count_redefine hfit ho hdefs hoid hbo
  obtain rfl : n = first.length := by simpa using hn
  exact hact _ oid _ _ behind hbo hcount hlen

lemma replaces_insertProp (pv : Pval) :
    Replaces (fun (objects : Objects P) x pos => insertProp objects x pos pv)
      (fun v => v = pv.var) 0 1 := by
  intro objects x o n behind ho hcount hlen
  have hcond : ¬ (countProperties objects x ≤ n ∨
      o.propval.length + 1 < countProperties objects x) := by omega
  have htake : (o.propval.drop n).take (countProperties objects x - n - 1) = o.propval.drop n :=
    List.take_of_length_le (by rw [List.length_drop]; omega)
  simp only [insertProp, ho, Option.bind_eq_bind, Option.bind_some, if_neg hcond, htake]
  exact ⟨_, rfl, rfl, [{ pv with owner := _ }], rfl, by simp, by simp; rfl⟩

lemma replaces_removeProp :
    Replaces (fun (objects : Objects P) x pos => removeProp objects x pos)
      (fun _ => False) 1 0 := by
  intro objects x o n behind ho hcount hlen
  have hcond : ¬ (countProperties objects x < n ∨ o.propval.length ≤ n ∨
      o.propval.length < countProperties objects x + 1) := by omega
  have htake : (o.propval.drop (n + 1)).take (countProperties objects x - n)
      = o.propval.drop (n + 1) :=
    List.take_of_length_le (by rw [List.length_drop]; omega)
  simp only [removeProp, ho, Option.bind_eq_bind, Option.bind_some, if_neg hcond, htake]
  exact ⟨_, rfl, rfl, [], rfl, by simp, by simp⟩

lemma Cascade.sameLinks {oid : Int} {o o' o₁ : Object P} {pos : Nat}
    {effect : Nat → Object P → Object P → Prop} (ho : findObject objects oid = some o)
    (hcas : Cascade (put objects oid o₁) objects' oid o' pos effect) {links : Links P}
    (hfields : links.fields o₁ = links.fields o)
    (hframe : ∀ o, links.fields o.frame = links.fields o) : SameLinks links objects objects' :=
  (SameLinks.put ho hfields).trans (hcas.alike.sameLinks hframe)

/-- The slots of the object's own definitions after some have been replaced. -/
lemma Reslotted.own {o o' : Object P} {first old new rest : List Propdef} {good : Var → Prop}
    (h : Reslotted good first.length old.length new.length o o')
    (hgood : ∀ v, good v → v.isClear = false) (hdefs : o.propdefs = first ++ old ++ rest)
    (hdefs' : o'.propdefs = first ++ new ++ rest) (hlen : first.length ≤ o.propval.length)
    {pv : Pval} (hpv : pv ∈ o'.propval.take o'.propdefs.length) :
    pv ∈ o.propval.take o.propdefs.length ∨ pv.var.isClear = false := by
  obtain ⟨slots, hslots, hall, hval⟩ := h
  have hbehind : (first ++ new ++ rest).length
      = (o.propval.take first.length ++ slots).length + rest.length := by
    simp only [List.length_append, List.length_take, hslots]
    omega
  rw [hval, hdefs', hbehind, List.take_length_add_append, List.mem_append, List.mem_append] at hpv
  have hsub : ∀ n, n ≤ o.propdefs.length → pv ∈ o.propval.take n →
      pv ∈ o.propval.take o.propdefs.length := fun n hn hmem =>
    List.take_subset_take_left o.propval hn hmem
  have hcount : o.propdefs.length = first.length + old.length + rest.length := by
    simp [hdefs, Nat.add_assoc]
  rcases hpv with (hpv | hpv) | hpv
  · exact .inl (hsub _ (by omega) hpv)
  · exact .inr (hgood _ (hall pv hpv))
  · rw [List.take_drop] at hpv
    exact .inl (hsub _ (by omega) (List.mem_of_mem_drop hpv))

/-- The recursions that change the slots of an object, with `act₀`, and of those below it. -/
lemma exists_recursively (new : List Propdef) (hc : Consistent objects parentLinks)
    (hfit : PropsFit objects) {oid : Int} {o : Object P} {first old rest : List Propdef}
    {good₀ good : Var → Prop}
    (ho : findObject objects oid = some o) (hdefs : o.propdefs = first ++ old ++ rest)
    {act₀ act : Objects P → Int → Nat → Option (Objects P)}
    (hact₀ : Replaces act₀ good₀ old.length new.length)
    (hgood : ∀ v, good₀ v → v.isClear = false) (hact : Replaces act good old.length new.length) :
    ∃ objects', (do
        let objects ← act₀ (put objects oid { o with propdefs := first ++ new ++ rest }) oid
          first.length
        let o ← findObject objects oid
        forChildren (fun objects c pos => do
          let o ← findObject objects c
          act objects c (pos + o.propdefs.length)) (objects.length + 1) o.child first.length objects)
        = some objects' ∧
      SameLinks parentLinks objects objects' ∧ SameLinks locationLinks objects objects' ∧
      Respliced objects objects' oid (old.map (Prod.mk oid)) (new.map (Prod.mk oid))
        (rest.map (Prod.mk oid) ++ tags objects o.parent) := by
  obtain ⟨ks, hks⟩ := hc.exists_line ho
  obtain ⟨o', heq, hframe, hslots⟩ := hact₀.self hc hfit ho hdefs
  obtain ⟨objects', heq', hcas⟩ := exists_cascade_redefine hc hfit ho hdefs hframe hact
  have hbo : findObject (put objects oid { o with propdefs := first ++ new ++ rest }) oid
      = some { o with propdefs := first ++ new ++ rest } := by
    rw [findObject_put ho, if_pos rfl]
  have hfind := findObject_put hbo o' oid
  rw [if_pos rfl] at hfind
  have hchild : o'.child = o.child := (Object.eq_of_frame Object.child (fun _ => rfl) hframe :)
  have hdefs' : o'.propdefs = first ++ new ++ rest :=
    (Object.eq_of_frame Object.propdefs (fun _ => rfl) hframe :)
  have hlen : first.length ≤ o.propval.length := by
    rw [hfit.length oid o ho, (hks.cons_self ho).countProperties_eq, tagged_cons, defs_eq ho, hdefs]
    simp only [List.length_append, List.length_map]
    omega
  refine ⟨objects', ?_, hcas.sameLinks ho rfl fun _ => rfl, hcas.sameLinks ho rfl fun _ => rfl, ?_⟩
  · simp only [heq, Option.bind_eq_bind, Option.bind_some, hfind, hchild, length_put]
    exact heq'
  · rw [hks.tags_eq]
    exact hcas.respliced hc hfit ho hks hdefs hslots fun pv hpv =>
      hslots.own hgood hdefs hdefs' hlen hpv

/-! ## Definitions that come and go -/

lemma mem_tagged {k : Int} {p : Propdef} {ks : List Int} (hmem : (k, p) ∈ tagged objects ks) :
    k ∈ ks ∧ p ∈ defs objects k := by
  obtain ⟨k', hk, hp⟩ := List.mem_flatMap.mp hmem
  obtain ⟨p', hp', heq⟩ := List.mem_map.mp hp
  obtain ⟨rfl, rfl⟩ := Prod.mk.inj heq
  exact ⟨hk, hp'⟩

/-- No definition that counts for the object or for somebody below it has the name. -/
def Unused (objects : Objects P) (oid : Int) (pname : String) : Prop :=
  ∀ x, Below objects oid x → ∀ p ∈ lineProps objects x, ¬ strEqual p.name pname

/-- Both checks together find every definition that matters. -/
lemma unused_of_checks (hc : Consistent objects parentLinks) {oid : Int} {o : Object P}
    (ho : findObject objects oid = some o) {pname : String}
    (hhas : hasProperty objects oid pname = false)
    (hdef : ¬ ∃ x, Below objects oid x ∧ definesAt objects pname x) :
    Unused objects oid pname := by
  rintro x ⟨pre, post, hx⟩ p hp
  obtain ⟨ks, hks⟩ := hc.up oid o ho
  have hoid := hks.cons_self ho
  rw [hasProperty, Bool.or_eq_false_iff, List.any_eq_false, lineProps_eq hoid] at hhas
  rw [lineProps_eq hx, List.flatMap_append, List.mem_append] at hp
  rcases hp with hp | hp
  · obtain ⟨k, hk, hp⟩ := List.mem_flatMap.mp hp
    intro heq
    exact hdef ⟨k, hx.below (List.mem_append_left _ hk), List.any_eq_true.mpr ⟨p, hp, heq⟩⟩
  · rw [hx.suffix.unique hoid] at hp
    exact hhas.2 p hp

lemma pairwise_insert {α : Type} {r : α → α → Prop} {l₁ l₂ : List α} {a : α}
    (h : (l₁ ++ l₂).Pairwise r) (h₁ : ∀ b ∈ l₁, r b a) (h₂ : ∀ b ∈ l₂, r a b) :
    (l₁ ++ a :: l₂).Pairwise r := by
  rw [List.pairwise_append] at h ⊢
  obtain ⟨hl₁, hl₂, hcross⟩ := h
  refine ⟨hl₁, List.pairwise_cons.mpr ⟨h₂, hl₂⟩, fun b hb c hc => ?_⟩
  rcases List.mem_cons.mp hc with rfl | hc
  · exact h₁ b hb
  · exact hcross b hb c hc

/-- Where a definition is added, it gets a slot on the object and on everybody below. -/
lemma dbAddPropdef_spec (hc : Consistent objects parentLinks) (hfit : PropsFit objects)
    {oid : Int} {o : Object P} (ho : findObject objects oid = some o) (pname : Propdef)
    {value : Var} (hvalue : value.isClear = false) (owner : Int) (flags : BitVec 16) :
    ∃ b objects', dbAddPropdef objects oid pname value owner flags = some (b, objects') ∧
      (b = false → objects' = objects) ∧
      SameLinks parentLinks objects objects' ∧ SameLinks locationLinks objects objects' ∧
      PropsFit objects' ∧
      (b = true → Respliced objects objects' oid [] [(oid, pname)] (tags objects o.parent)) := by
  obtain ⟨found, hfound, hiff⟩ := definedAtOrBelow_spec hc ho pname.name
  obtain ⟨ks, hks⟩ := hc.up oid o ho
  cases hhas : hasProperty objects oid pname.name with
  | true =>
    refine ⟨false, objects, ?_, fun _ => rfl, .refl, .refl, hfit, fun h => by cases h⟩
    simp only [dbAddPropdef, hhas, if_true]
    rfl
  | false =>
  cases found with
  | true =>
    refine ⟨false, objects, ?_, fun _ => rfl, .refl, .refl, hfit, fun h => by cases h⟩
    simp only [dbAddPropdef, hhas, hfound, Option.bind_eq_bind, Option.bind_some, if_true]
    rfl
  | false =>
    have hunused := unused_of_checks hc ho hhas fun h => by simpa using hiff.mpr h
    have hdefs : o.propdefs = o.propdefs ++ [] ++ [] := by simp
    obtain ⟨objects', heq, hparents, hlocations, hr⟩ := exists_recursively [pname] hc hfit
      ho hdefs (replaces_insertProp { var := value, owner := owner, perms := flags })
      (fun v hv => hv ▸ hvalue)
      (replaces_insertProp { var := .clear, owner := owner, perms := flags })
    simp only [List.append_nil, List.map_nil, List.map_cons, List.nil_append] at heq hr
    have hins : insertPropRecursively
        (put objects oid { o with propdefs := o.propdefs ++ [pname] }) oid o.propdefs.length
        { var := value, owner := owner, perms := flags } = some objects' := heq
    refine ⟨true, objects', ?_, by rintro ⟨⟩, hparents, hlocations, ?_, fun _ => hr⟩
    · simp only [dbAddPropdef, hhas, hfound, ho, Option.bind_eq_bind, Option.bind_some,
        Bool.false_eq_true, if_false, hins]
      rfl
    · refine hr.propsFit hc.up (hparents.consistent hc).up hfit ?_
      rintro x ⟨pre, post, hx⟩ hv
      obtain ⟨ox, hox⟩ := isValid_iff.mp (hparents.isValid x ▸ hv)
      obtain ⟨ox', hox'⟩ := isValid_iff.mp hv
      obtain ⟨-, first, -, -, htags, htags', -⟩ := hr.below x ox' hox' ⟨pre, post, hx⟩
      have hold := hfit.distinct x ox hox
      have hfree := hunused x ⟨pre, post, hx⟩
      rw [hx.lineProps_eq_map, htags] at hold hfree
      rw [htags']
      simp only [List.append_nil, List.map_append, List.map_cons,
        List.append_assoc, List.singleton_append, List.mem_append] at hold hfree ⊢
      exact pairwise_insert hold (fun p hp => differ_iff.mpr (hfree p (.inl hp)))
        fun p hp => (differ_iff.mpr (hfree p (.inr hp))).symm

/-- Where a definition is deleted, its slot goes from the object and from everybody below. -/
lemma dbDeletePropdef_spec (hc : Consistent objects parentLinks) (hfit : PropsFit objects)
    {oid : Int} {o : Object P} (ho : findObject objects oid = some o) (pname : String) :
    ∃ b objects', dbDeletePropdef objects oid pname = some (b, objects') ∧
      (b = false → objects' = objects) ∧
      SameLinks parentLinks objects objects' ∧ SameLinks locationLinks objects objects' ∧
      PropsFit objects' ∧
      (b = true → ∃ first p rest, o.propdefs = first ++ [p] ++ rest ∧ strEqual p.name pname ∧
        Respliced objects objects' oid [(oid, p)] []
          (rest.map (Prod.mk oid) ++ tags objects o.parent)) := by
  cases hi : o.propdefs.findIdx? fun p => strEqual p.name pname with
  | none =>
    refine ⟨false, objects, ?_, fun _ => rfl, .refl, .refl, hfit, by rintro ⟨⟩⟩
    simp only [dbDeletePropdef, ho, Option.bind_eq_bind, Option.bind_some, hi]
    rfl
  | some i =>
    obtain ⟨hlt, hname, -⟩ := List.findIdx?_eq_some_iff_getElem.mp hi
    have hdefs : o.propdefs = o.propdefs.take i ++ [o.propdefs[i]] ++ o.propdefs.drop (i + 1) := by
      rw [List.append_assoc, List.singleton_append, ← List.drop_eq_getElem_cons hlt,
        List.take_append_drop]
    have herase : o.propdefs.eraseIdx i = o.propdefs.take i ++ [] ++ o.propdefs.drop (i + 1) := by
      rw [List.eraseIdx_eq_take_drop_succ, List.append_nil]
    obtain ⟨objects', heq, hparents, hlocations, hr⟩ := exists_recursively [] hc hfit ho
      hdefs replaces_removeProp (fun _ => False.elim) replaces_removeProp
    rw [List.length_take_of_le hlt.le, ← herase] at heq
    have hrem : removePropRecursively
        (put objects oid { o with propdefs := o.propdefs.eraseIdx i }) oid i = some objects' := heq
    refine ⟨true, objects', ?_, by rintro ⟨⟩, hparents, hlocations, ?_,
      fun _ => ⟨_, _, _, hdefs, hname, hr⟩⟩
    · simp only [dbDeletePropdef, ho, Option.bind_eq_bind, Option.bind_some, hi, hrem]
      rfl
    · refine hr.propsFit hc.up (hparents.consistent hc).up hfit ?_
      rintro x ⟨pre, post, hx⟩ hv
      obtain ⟨ox, hox⟩ := isValid_iff.mp (hparents.isValid x ▸ hv)
      obtain ⟨ox', hox'⟩ := isValid_iff.mp hv
      obtain ⟨-, first, -, -, htags, htags', -⟩ := hr.below x ox' hox' ⟨pre, post, hx⟩
      have hold := hfit.distinct x ox hox
      rw [hx.lineProps_eq_map, htags] at hold
      rw [htags']
      refine hold.sublist (List.Sublist.map _ ?_)
      exact ((List.Sublist.refl first).append (List.nil_sublist _)).append (List.Sublist.refl _)

end Db

end LambdaMOO
