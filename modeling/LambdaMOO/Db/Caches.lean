import LambdaMOO.Db.Reachable
import LambdaMOO.Db.Record

/-!
# Cached property lists

The property list for the waifs of a class depends on the whole line of the class. Whatever
changes the definitions on a line takes the cached lists away from everybody below; what is still
cached after an operation stands for the same definitions as before.
-/

namespace LambdaMOO

namespace Db

variable {P : Type} {objects objects' : Objects P}

lemma genWaifPropdefs_eq (oid : Int) :
    genWaifPropdefs objects oid = (lineProps objects oid).filter isWaifProp := by
  rw [genWaifPropdefs, lineProps, List.filter_flatMap]

lemma cacheOf_eq {k : Int} {o : Object P} (ho : findObject objects k = some o) :
    cacheOf objects k = o.waifPropdefs := by
  rw [cacheOf, ho, Option.bind_some]

lemma cacheOf_congr {k : Int} (h : (findObject objects' k).map Object.waifPropdefs
    = (findObject objects k).map Object.waifPropdefs) : cacheOf objects' k = cacheOf objects k := by
  have heq := congrArg (Option.bind · id) h
  simp only [Option.bind_map] at heq
  exact heq

lemma isValid_of_cacheOf {k : Int} {n : Nat} (h : cacheOf objects k = some n) :
    isValid objects k := by
  obtain ⟨o, ho, -⟩ := Option.bind_eq_some_iff.mp h
  exact isValid_of_findObject ho

/-- What is still cached belongs to the same objects, which may have got other numbers, and their
lines have the same definitions. No definitions have come but `fresh`. -/
structure KeepsCaches (fresh : List Propdef) (objects objects' : Objects P) : Prop where
  cache : ∃ f : Equiv.Perm Int, ∀ k n, cacheOf objects' k = some n →
    cacheOf objects (f k) = some n ∧ lineProps objects' k = lineProps objects (f k)
  defs : ∀ k, ∀ p ∈ defs objects' k, p ∈ fresh ∨ ∃ j, p ∈ defs objects j

namespace KeepsCaches

variable {fresh : List Propdef}

/-- Nobody gets another number. -/
lemma of_cacheOf (hcache : ∀ k n, cacheOf objects' k = some n →
      cacheOf objects k = some n ∧ lineProps objects' k = lineProps objects k)
    (hdefs : ∀ k, ∀ p ∈ Db.defs objects' k, p ∈ fresh ∨ ∃ j, p ∈ Db.defs objects j) :
    KeepsCaches fresh objects objects' where
  cache := ⟨Equiv.refl Int, hcache⟩
  defs := hdefs

lemma refl : KeepsCaches fresh objects objects :=
  of_cacheOf (fun _ _ h => ⟨h, rfl⟩) fun k _ hp => .inr ⟨k, hp⟩

lemma trans {objects'' : Objects P} (h : KeepsCaches fresh objects objects')
    (h' : KeepsCaches fresh objects' objects'') : KeepsCaches fresh objects objects'' where
  cache := by
    obtain ⟨f, hf⟩ := h.cache
    obtain ⟨f', hf'⟩ := h'.cache
    refine ⟨f'.trans f, fun k n hn => ?_⟩
    obtain ⟨hcache', hline'⟩ := hf' k n hn
    obtain ⟨hcache, hline⟩ := hf (f' k) n hcache'
    exact ⟨hcache, hline'.trans hline⟩
  defs := by
    intro k p hp
    rcases h'.defs k p hp with hfresh | ⟨j, hj⟩
    · exact .inl hfresh
    · exact h.defs j p hj

/-- Neither parents nor definitions nor cached lists change. -/
lemma of_lineage (hends : Ends objects Object.parent)
    (h : ∀ k, (findObject objects' k).map Object.lineage
      = (findObject objects k).map Object.lineage) : KeepsCaches fresh objects objects' := by
  have hmap : ∀ {α : Type} (f : Int × List Propdef × Option Nat → α) k,
      (findObject objects' k).map (f ∘ Object.lineage)
        = (findObject objects k).map (f ∘ Object.lineage) := by
    intro α f k
    have heq := congrArg (Option.map f) (h k)
    rwa [Option.map_map, Option.map_map] at heq
  have hdefs : ∀ k, Db.defs objects' k = Db.defs objects k := by
    intro k
    exact congrArg (Option.getD · []) (hmap (fun l => l.2.1) k)
  have hcache : ∀ k, cacheOf objects' k = cacheOf objects k := fun k =>
    cacheOf_congr (hmap (fun l => l.2.2) k)
  refine of_cacheOf (fun k n hn => ?_) fun k p hp => .inr ⟨k, hdefs k ▸ hp⟩
  rw [hcache] at hn
  obtain ⟨o, ho⟩ := isValid_iff.mp (isValid_of_cacheOf hn)
  obtain ⟨ks, hks⟩ := hends k o ho
  have hline := hks.cons_self ho
  have hline' : Along objects' Object.parent k (k :: ks) :=
    hline.congr fun j _ => hmap Prod.fst j
  refine ⟨hn, ?_⟩
  rw [lineProps_eq hline, lineProps_eq hline', List.flatMap_congr fun j _ => hdefs j]

end KeepsCaches

/-! ## Losing cached lists -/

/-- Apart from values of properties nothing has changed but that cached lists are gone, those of
certain objects all. -/
structure Sheds (objects objects' : Objects P) (ks : List Int) : Prop where
  alike : Alike objects objects'
  gone : ∀ k ∈ ks, cacheOf objects' k = none
  kept : ∀ k, cacheOf objects' k = none ∨ cacheOf objects' k = cacheOf objects k

namespace Sheds

lemma refl : Sheds objects objects [] := ⟨.refl, by rintro _ ⟨⟩, fun _ => .inr rfl⟩

lemma trans {objects'' : Objects P} {ks ks' : List Int} (h : Sheds objects objects' ks)
    (h' : Sheds objects' objects'' ks') : Sheds objects objects'' (ks ++ ks') where
  alike := h.alike.trans h'.alike
  gone := by
    intro k hk
    rcases List.mem_append.mp hk with hk | hk
    · exact (h'.kept k).elim id fun heq => heq.trans (h.gone k hk)
    · exact h'.gone k hk
  kept := by
    intro k
    rcases h'.kept k with hnone | heq
    · exact .inl hnone
    · rw [heq]
      exact h.kept k

/-- An object gets other values and loses its cached list. -/
lemma put {k : Int} {o o' : Object P} (ho : findObject objects k = some o)
    (hframe : o'.frame = o.frame) (hnone : o'.waifPropdefs = none) :
    Sheds objects (Db.put objects k o') [k] := by
  have hcache : ∀ x, cacheOf (Db.put objects k o') x
      = if x = k then none else cacheOf objects x := by
    intro x
    rw [cacheOf, findObject_put ho]
    split_ifs
    · exact hnone
    · rfl
  refine ⟨.put ho hframe, fun x hx => ?_, fun x => ?_⟩
  · rw [hcache, if_pos (List.mem_singleton.mp hx)]
  · rw [hcache]
    split_ifs
    · exact .inl rfl
    · exact .inr rfl

end Sheds

/-- Where every call takes the cached list from the visited object, the walk takes it from
everybody in the tree. -/
lemma sheds_forChildren {act : Objects P → Int → Nat → Option (Objects P)}
    (hact : ∀ cur x p cur', act cur x p = some cur' → Sheds cur cur' [x]) {q start : Int}
    {f : Offspring} (h : Hangs objects q start f) {cur : Objects P} (hcur : Alike objects cur)
    {n pos : Nat} (heq : forChildren act n start pos cur = some objects') :
    Sheds cur objects' f.members := by
  induction f generalizing q start n pos cur objects' with
  | nil =>
    cases n with
    | zero => cases heq
    | succ n =>
      rw [forChildren, if_pos (show start = nothing from h)] at heq
      cases heq
      exact .refl
  | cons k below beside ihb ihs =>
    cases n with
    | zero => cases heq
    | succ n =>
      obtain ⟨rfl, hne, o, ho, -, hb, hs⟩ := h
      rw [forChildren, if_neg hne] at heq
      obtain ⟨cur₁, heq₁, heq⟩ := Option.bind_eq_some_iff.mp heq
      obtain ⟨o₁, ho₁, heq⟩ := Option.bind_eq_some_iff.mp heq
      obtain ⟨cur₂, heq₂, heq⟩ := Option.bind_eq_some_iff.mp heq
      obtain ⟨o₂, ho₂, heq⟩ := Option.bind_eq_some_iff.mp heq
      have hself := hact cur start pos cur₁ heq₁
      -- the links are still those of the tree
      have hlinks : ∀ {cur' : Objects P} {o' : Object P}, Alike objects cur' →
          findObject cur' start = some o' → o'.child = o.child ∧ o'.sibling = o.sibling := by
        intro cur' o' hcur' ho'
        obtain ⟨o₃, ho₃, hframe⟩ := hcur'.findObject ho
        rw [ho'] at ho₃
        cases ho₃
        exact ⟨Object.eq_of_frame Object.child (fun _ => rfl) hframe,
          Object.eq_of_frame Object.sibling (fun _ => rfl) hframe⟩
      have hcur₁ := hcur.trans hself.alike
      rw [(hlinks hcur₁ ho₁).1] at heq₂
      have hbelow := ihb hb hcur₁ heq₂
      have hcur₂ := hcur₁.trans hbelow.alike
      rw [(hlinks hcur₂ ho₂).2] at heq
      exact hself.trans (hbelow.trans (ihs hs hcur₂ heq))

/-- The recursions that go on below the object once it has been visited. -/
lemma sheds_recursively (hc : Consistent objects parentLinks) {oid : Int} {o : Object P}
    (ho : findObject objects oid = some o) {cur : Objects P} (hself : Sheds objects cur [oid])
    {act : Objects P → Int → Nat → Option (Objects P)}
    (hact : ∀ cur x p cur', act cur x p = some cur' → Sheds cur cur' [x]) {n : Nat}
    {pos : Object P → Nat}
    (heq : (do
      let o ← findObject cur oid
      forChildren act n o.child (pos o) cur) = some objects') :
    ∃ ks, Sheds objects objects' ks ∧ ∀ x, Below objects oid x → x ∈ ks := by
  obtain ⟨f, hf⟩ := hc.exists_hangs ho
  obtain ⟨o₁, ho₁, heq⟩ := Option.bind_eq_some_iff.mp heq
  obtain ⟨o₂, ho₂, hframe⟩ := hself.alike.findObject ho
  rw [ho₁] at ho₂
  cases ho₂
  have hchild : o₁.child = o.child := Object.eq_of_frame Object.child (fun _ => rfl) hframe
  rw [hchild] at heq
  refine ⟨_, hself.trans (sheds_forChildren hact hf hself.alike heq), fun x hx => ?_⟩
  exact List.mem_cons.mpr ((hf.below_iff hc ho).mp hx)

lemma sheds_insertProp {oid : Int} {pos : Nat} {pv : Pval}
    (heq : insertProp objects oid pos pv = some objects') : Sheds objects objects' [oid] := by
  obtain ⟨o, ho, heq⟩ := Option.bind_eq_some_iff.mp heq
  obtain ⟨-, heq⟩ := Option.ite_none_left_eq_some.mp heq
  cases heq
  exact .put ho rfl rfl

lemma sheds_removeProp {oid : Int} {pos : Nat}
    (heq : removeProp objects oid pos = some objects') : Sheds objects objects' [oid] := by
  obtain ⟨o, ho, heq⟩ := Option.bind_eq_some_iff.mp heq
  split_ifs at heq
  cases heq
  exact .put ho rfl rfl

lemma sheds_fixSlots {old new common parentLocal : Nat} {oid : Int}
    (heq : fixSlots old new common objects oid parentLocal = some objects') :
    Sheds objects objects' [oid] := by
  obtain ⟨o, ho, heq⟩ := Option.bind_eq_some_iff.mp heq
  obtain ⟨copied, -, heq⟩ := Option.bind_eq_some_iff.mp heq
  split_ifs at heq
  cases heq
  exact .put ho rfl rfl

lemma sheds_insertPropRecursively (hc : Consistent objects parentLinks) {oid : Int} {o : Object P}
    (ho : findObject objects oid = some o) {pos : Nat} {pv : Pval}
    (heq : insertPropRecursively objects oid pos pv = some objects') :
    ∃ ks, Sheds objects objects' ks ∧ ∀ x, Below objects oid x → x ∈ ks := by
  obtain ⟨cur, hcur, heq⟩ := Option.bind_eq_some_iff.mp heq
  refine sheds_recursively hc ho (sheds_insertProp hcur) (fun cur x p cur' hx => ?_) heq
  obtain ⟨ox, -, hx⟩ := Option.bind_eq_some_iff.mp hx
  exact sheds_insertProp hx

lemma sheds_removePropRecursively (hc : Consistent objects parentLinks) {oid : Int} {o : Object P}
    (ho : findObject objects oid = some o) {pos : Nat}
    (heq : removePropRecursively objects oid pos = some objects') :
    ∃ ks, Sheds objects objects' ks ∧ ∀ x, Below objects oid x → x ∈ ks := by
  obtain ⟨cur, hcur, heq⟩ := Option.bind_eq_some_iff.mp heq
  refine sheds_recursively hc ho (sheds_removeProp hcur) (fun cur x p cur' hx => ?_) heq
  obtain ⟨ox, -, hx⟩ := Option.bind_eq_some_iff.mp hx
  exact sheds_removeProp hx

lemma sheds_fixProps (hc : Consistent objects parentLinks) {oid : Int} {o : Object P}
    (ho : findObject objects oid = some o) {parentLocal old new common : Nat}
    (heq : fixProps objects oid parentLocal old new common = some objects') :
    ∃ ks, Sheds objects objects' ks ∧ ∀ x, Below objects oid x → x ∈ ks := by
  obtain ⟨cur, hcur, heq⟩ := Option.bind_eq_some_iff.mp heq
  exact sheds_recursively hc ho (sheds_fixSlots hcur) (fun _ _ _ _ hx => sheds_fixSlots hx) heq

/-! ## Definitions and parents -/

/-- The definitions of an object change, and everybody below loses the cached list. -/
lemma keepsCache_of_redefine (hc : Consistent objects parentLinks) {oid : Int} {o : Object P}
    (ho : findObject objects oid = some o) {propdefs : List Propdef} {ks : List Int}
    (hs : Sheds (put objects oid { o with propdefs := propdefs }) objects' ks)
    (hbelow : ∀ x, Below (put objects oid { o with propdefs := propdefs }) oid x → x ∈ ks) :
    ∀ k n, cacheOf objects' k = some n →
      cacheOf objects k = some n ∧ lineProps objects' k = lineProps objects k := by
  intro k n hn
  have hput : SameLinks parentLinks objects (put objects oid { o with propdefs := propdefs }) :=
    .put ho rfl
  have hcache : cacheOf objects k = some n := by
    rcases hs.kept k with hnone | heq
    · rw [hn] at hnone
      cases hnone
    · rw [hn, cacheOf, findObject_put ho] at heq
      split_ifs at heq with hk
      · rw [hk, cacheOf_eq ho]
        exact heq.symm
      · exact heq.symm
  have hnot : ¬ Below objects oid k := by
    rintro ⟨pre, post, hk⟩
    rw [hs.gone k (hbelow k ⟨pre, post, hk.congr fun j _ => hput.map_up j⟩)] at hn
    cases hn
  refine ⟨hcache, ?_⟩
  rw [hs.alike.lineProps]
  exact lineProps_put hc.up ho (isValid_of_cacheOf hcache) hnot

lemma Coherent.keepsCaches_changeParent (hc : Coherent objects) {oid parent : Int} {o : Object P}
    (ho : findObject objects oid = some o) (hparent : parent = nothing ∨ isValid objects parent)
    (hloop : ∀ ks, Along objects Object.parent parent ks → oid ∉ ks) {done : Bool}
    (heq : dbChangeParent objects oid parent = some (done, objects')) :
    KeepsCaches [] objects objects' := by
  obtain ⟨fits, -, heq⟩ := Option.bind_eq_some_iff.mp heq
  cases fits with
  | false =>
    cases heq
    exact .refl
  | true =>
    have hwas : decide (o.parent ≠ nothing) = true ↔ inheritance.up o ≠ nothing :=
      decide_eq_true_iff
    obtain ⟨objects₁, hrelink, hr, hc₁, -⟩ := relink_spec (h := inheritance) hc.parents ho hparent
      hloop hwas decide_eq_true_iff
    obtain ⟨o', ho', heq⟩ := Option.bind_eq_some_iff.mp heq
    rw [ho] at ho'
    cases ho'
    obtain ⟨_, hrelink', heq⟩ := Option.bind_eq_some_iff.mp heq
    rw [hrelink] at hrelink'
    cases hrelink'
    obtain ⟨_, hfix, heq⟩ := Option.bind_eq_some_iff.mp heq
    cases heq
    -- the property lists from the object down are gone
    obtain ⟨o₁, ho₁⟩ := isValid_iff.mp ((hr.isValid oid).trans (isValid_of_findObject ho))
    obtain ⟨_, -, hfix⟩ := Option.bind_eq_some_iff.mp hfix
    obtain ⟨_, -, hfix⟩ := Option.bind_eq_some_iff.mp hfix
    obtain ⟨_, -, hfix⟩ := Option.bind_eq_some_iff.mp hfix
    obtain ⟨_, -, hfix⟩ := Option.bind_eq_some_iff.mp hfix
    obtain ⟨_, -, hfix⟩ := Option.bind_eq_some_iff.mp hfix
    obtain ⟨ks, hs, hbelow⟩ := sheds_fixProps hc₁ ho₁ hfix
    obtain ⟨js, hjs⟩ := hc.parents.exists_line ho
    obtain ⟨js', hjs'⟩ : ∃ js', Along objects Object.parent parent js' :=
      hc.parents.up.exists_along hparent
    have hdefs : ∀ k, Db.defs objects' k = Db.defs objects k := fun k => by
      rw [hs.alike.defs, hr.defs fun _ => rfl]
    refine .of_cacheOf (fun k n hn => ?_) fun k p hp => .inr ⟨k, hdefs k ▸ hp⟩
    have hcache : cacheOf objects k = some n := by
      rcases hs.kept k with hnone | heq
      · rw [hn] at hnone
        cases hnone
      · rw [← hn, heq, cacheOf_congr (hr.map_eq Object.waifPropdefs (fun _ => rfl) k)]
    obtain ⟨ok, hok⟩ := isValid_iff.mp (isValid_of_cacheOf hcache)
    obtain ⟨is, his⟩ := hc.parents.up k ok hok
    have hline : Along objects Object.parent k (k :: is) := his.cons_self hok
    have hnot : oid ∉ k :: is := hline.notMem_of_not_below fun hk => by
      have hk₁ := (hr.below_iff hc.parents.up (hjs.cons_self ho) hjs' (hloop js' hjs') k).mpr hk
      rw [hs.gone k (hbelow k hk₁)] at hn
      cases hn
    have hline₁ : Along objects₁ Object.parent k (k :: is) := hr.along_of_notMem hline hnot
    refine ⟨hcache, ?_⟩
    rw [hs.alike.lineProps, lineProps_eq hline, lineProps_eq hline₁,
      List.flatMap_congr fun j _ => hr.defs (fun _ => rfl) j]

/-- A new definition. -/
lemma Coherent.keepsCaches_addPropdef (hc : Coherent objects) {oid : Int} {pname : Propdef}
    {value : Var} {owner : Int} {flags : BitVec 16} {b : Bool}
    (heq : dbAddPropdef objects oid pname value owner flags = some (b, objects')) :
    KeepsCaches [pname] objects objects' := by
  unfold dbAddPropdef at heq
  split_ifs at heq with hhas
  · cases heq
    exact .refl
  · obtain ⟨defined, -, heq⟩ := Option.bind_eq_some_iff.mp heq
    cases defined with
    | true =>
      cases heq
      exact .refl
    | false =>
      obtain ⟨o, ho, heq⟩ := Option.bind_eq_some_iff.mp heq
      obtain ⟨_, hins, heq⟩ := Option.bind_eq_some_iff.mp heq
      cases heq
      have hput : SameLinks parentLinks objects
          (put objects oid { o with propdefs := o.propdefs ++ [pname] }) := .put ho rfl
      have ho' : findObject (put objects oid { o with propdefs := o.propdefs ++ [pname] }) oid
          = some { o with propdefs := o.propdefs ++ [pname] } := by
        rw [findObject_put ho, if_pos rfl]
      obtain ⟨ks, hs, hbelow⟩ :=
        sheds_insertPropRecursively (hput.consistent hc.parents) ho' hins
      refine .of_cacheOf (keepsCache_of_redefine hc.parents ho hs hbelow) fun k p hp => ?_
      rw [hs.alike.defs, defs_put ho] at hp
      split_ifs at hp with hk
      · rcases List.mem_append.mp hp with hp | hp
        · exact .inr ⟨oid, by rwa [defs_eq ho]⟩
        · exact .inl hp
      · exact .inr ⟨k, hp⟩

lemma Coherent.keepsCaches_deletePropdef (hc : Coherent objects) {oid : Int} {pname : String}
    {b : Bool} (heq : dbDeletePropdef objects oid pname = some (b, objects')) :
    KeepsCaches [] objects objects' := by
  obtain ⟨o, ho, heq⟩ := Option.bind_eq_some_iff.mp heq
  split at heq
  · cases heq
    exact .refl
  · rename_i i hi
    obtain ⟨_, hrem, heq⟩ := Option.bind_eq_some_iff.mp heq
    cases heq
    have hput : SameLinks parentLinks objects
        (put objects oid { o with propdefs := o.propdefs.eraseIdx i }) := .put ho rfl
    have ho' : findObject (put objects oid { o with propdefs := o.propdefs.eraseIdx i }) oid
        = some { o with propdefs := o.propdefs.eraseIdx i } := by
      rw [findObject_put ho, if_pos rfl]
    obtain ⟨ks, hs, hbelow⟩ :=
      sheds_removePropRecursively (hput.consistent hc.parents) ho' hrem
    refine .of_cacheOf (keepsCache_of_redefine hc.parents ho hs hbelow) fun k p hp => ?_
    rw [hs.alike.defs, defs_put ho] at hp
    split_ifs at hp with hk
    · exact .inr ⟨oid, by rw [defs_eq ho]; exact List.mem_of_mem_eraseIdx hp⟩
    · exact .inr ⟨k, hp⟩

/-! ## Links and values -/

lemma Coherent.keepsCaches_changeLocation (hc : Coherent objects) {oid location : Int}
    {o : Object P} (ho : findObject objects oid = some o)
    (hvalid : location = nothing ∨ isValid objects location)
    (hloop : ∀ ks, Along objects Object.location location ks → oid ∉ ks)
    (heq : dbChangeLocation objects oid location = some objects') :
    KeepsCaches [] objects objects' := by
  obtain ⟨objects₁, heq₁, -, hr, -⟩ := dbChangeLocation_spec hc ho hvalid hloop
  rw [heq] at heq₁
  cases heq₁
  exact .of_lineage hc.parents.up (hr.map_eq Object.lineage fun _ => rfl)

lemma Coherent.keepsCaches_setSlot (hc : Coherent objects) {oid : Int} {n : Nat} {f : Pval → Pval}
    (heq : Db.setSlot objects oid n f = some objects') : KeepsCaches [] objects objects' := by
  obtain ⟨o, ho, heq⟩ := Option.bind_eq_some_iff.mp heq
  obtain ⟨prop, -, heq⟩ := Option.bind_eq_some_iff.mp heq
  cases heq
  refine .of_lineage hc.parents.up fun k => ?_
  rw [findObject_put ho]
  split_ifs with hk
  · rw [hk, ho]
    rfl
  · rfl

/-! ## Objects that come and go -/

lemma Coherent.keepsCaches_create (hc : Coherent objects) (owner : Int) :
    KeepsCaches [] objects (dbCreateObject objects owner).1 := by
  have h : ∀ x, findObject (dbCreateObject objects owner).1 x
      = if x = objects.length then some (freshObject owner) else findObject objects x :=
    findObject_concat objects (freshObject owner)
  refine .of_cacheOf (fun k n hn => ?_) fun k p hp => ?_
  · have hk : k ≠ objects.length := by
      rintro rfl
      rw [cacheOf, h, if_pos rfl] at hn
      cases hn
    rw [cacheOf, h, if_neg hk] at hn
    refine ⟨hn, ?_⟩
    obtain ⟨ok, hok⟩ := isValid_iff.mp (isValid_of_cacheOf hn)
    obtain ⟨ks, hks⟩ := hc.parents.up k ok hok
    have hline := hks.cons_self hok
    exact lineProps_congr hline (hline.add not_isValid_length h) fun j hj => by
      rw [h, if_neg (hline.ne_of_not_isValid not_isValid_length hj)]
  · rw [Db.defs, h] at hp
    split_ifs at hp with hk
    · cases hp
    · exact .inr ⟨k, hp⟩

lemma Coherent.keepsCaches_destroy {db db' : Db P} (hc : Coherent db.objects) {oid : Int}
    (heq : dbDestroyObject db oid = some db') : KeepsCaches [] db.objects db'.objects := by
  simp only [dbDestroyObject, Option.bind_eq_bind] at heq
  obtain ⟨o, ho, heq⟩ := Option.bind_eq_some_iff.mp heq
  simp only [Option.ite_none_left_eq_some, Option.some.injEq] at heq
  obtain ⟨hbarren, -, rfl⟩ := heq
  simp only [ne_eq, not_or, not_not] at hbarren
  have h := findObject_set_none db.objects (findObject_eq_some ho).1
  refine .of_cacheOf (fun k n hn => ?_) fun k p hp => ?_
  · rw [cacheOf, h] at hn
    split_ifs at hn with hk
    · cases hn
    · refine ⟨hn, ?_⟩
      obtain ⟨ok, hok⟩ := isValid_iff.mp (isValid_of_cacheOf hn)
      obtain ⟨ks, hks⟩ := hc.parents.up k ok hok
      have hline := hks.cons_self hok
      have hnot := hc.parents.notMem_up ho hbarren.2.2.2 hline hk
      exact lineProps_congr hline (hline.drop hnot h) fun j hj => by
        rw [h, if_neg fun (heq : j = oid) => hnot (heq ▸ hj)]
  · rw [Db.defs, h] at hp
    split_ifs at hp with hk
    · cases hp
    · exact .inr ⟨k, hp⟩

lemma Coherent.keepsCaches_resetLastUsedObjid (hc : Coherent objects)
    (heq : dbResetLastUsedObjid objects = some objects') : KeepsCaches [] objects objects' := by
  unfold dbResetLastUsedObjid at heq
  split_ifs at heq
  cases heq
  exact .of_lineage hc.parents.up fun k => by rw [findObject_rdropWhile]

lemma renumberAllOwners_lineage {old new : Int} {oids : List Nat}
    (heq : renumberAllOwners old new oids objects = some objects') (k : Int) :
    (findObject objects' k).map Object.lineage = (findObject objects k).map Object.lineage := by
  induction oids generalizing objects with
  | nil =>
    cases heq
    rfl
  | cons oid oids ih =>
    rw [renumberAllOwners] at heq
    cases ho : findObject objects oid with
    | none =>
      rw [ho] at heq
      exact ih heq
    | some o =>
      rw [ho] at heq
      obtain ⟨o', ho', heq⟩ := Option.bind_eq_some_iff.mp heq
      obtain ⟨-, ho'⟩ := Option.ite_none_left_eq_some.mp ho'
      rw [ih heq, findObject_put ho]
      split_ifs with hk
      · cases ho'
        rw [hk, ho]
        rfl
      · rfl

lemma swap_renamed {old new k : Int} (hk : k ≠ new) :
    Equiv.swap old new (renamed old new k) = k := by
  by_cases hold : k = old
  · rw [hold, renamed_self, Equiv.swap_apply_right]
  · rw [renamed_of_ne hold, Equiv.swap_apply_of_ne_of_ne hold hk]

/-- The cached list moves with the object. -/
lemma Renumbered.keepsCaches {old new : Int} (hr : Renumbered objects objects' old new)
    (hc : Coherent objects) (hold : old ≠ nothing) (hnew : new ≠ nothing) :
    KeepsCaches [] objects objects' := by
  have hback : ∀ {k o'}, findObject objects' k = some o' → ∃ k₀ o,
      findObject objects k₀ = some o ∧ k = renamed old new k₀ ∧ k₀ ≠ new ∧
        o'.propdefs = o.propdefs ∧ o'.waifPropdefs = o.waifPropdefs := by
    intro k o' ho'
    obtain ⟨k₀, hk₀, rfl⟩ := hr.only k (isValid_of_findObject ho')
    obtain ⟨o, ho⟩ := isValid_iff.mp hk₀
    obtain ⟨o₂, ho₂, -, hdefs, hcache⟩ := hr.find k₀ o ho
    rw [ho'] at ho₂
    cases ho₂
    exact ⟨k₀, o, ho, rfl, fun heq => hr.free (heq ▸ hk₀), hdefs, hcache⟩
  refine ⟨⟨Equiv.swap old new, fun k n hn => ?_⟩, fun k p hp => ?_⟩
  · obtain ⟨o', ho'⟩ := isValid_iff.mp (isValid_of_cacheOf hn)
    obtain ⟨k₀, o, ho, rfl, hne, -, hcache⟩ := hback ho'
    rw [swap_renamed hne, cacheOf_eq ho, ← hcache, ← cacheOf_eq ho']
    refine ⟨hn, ?_⟩
    obtain ⟨ks, hks⟩ := hc.parents.up k₀ o ho
    have hline : Along objects Object.parent k₀ (k₀ :: ks) := hks.cons_self ho
    have hline' := hline.rename hold hnew fun x _ ox hox => by
      obtain ⟨ox', hox', hup, -⟩ := hr.find x ox hox
      exact ⟨ox', hox', hup⟩
    rw [lineProps_eq hline, lineProps_eq hline', List.flatMap_map]
    refine List.flatMap_congr fun x hx => ?_
    obtain ⟨_, ox, -, hox, -⟩ := hline.exists_of_mem hx
    obtain ⟨ox', hox', -, hdefs, -⟩ := hr.find x ox hox
    rw [defs_eq hox, defs_eq hox', hdefs]
  · obtain ⟨o', ho', hp'⟩ : ∃ o', findObject objects' k = some o' ∧ p ∈ o'.propdefs := by
      cases ho' : findObject objects' k with
      | none =>
        rw [Db.defs, ho'] at hp
        cases hp
      | some o' => exact ⟨o', rfl, by rwa [defs_eq ho'] at hp⟩
    obtain ⟨k₀, o, ho, -, -, hdefs, -⟩ := hback ho'
    exact .inr ⟨k₀, by rwa [defs_eq ho, ← hdefs]⟩

lemma Coherent.keepsCaches_renumber {db db' : Db P} (hc : Coherent db.objects) {old n : Int}
    (heq : db.dbRenumberObject old = some (n, db')) : KeepsCaches [] db.objects db'.objects := by
  obtain ⟨hvalid, rfl | ⟨objects₂, oids, hnew, hr, howners, -⟩⟩ := hc.renumber_spec heq
  · exact .refl
  · exact (hr.keepsCaches hc (ne_nothing_of_isValid hvalid) hnew).trans
      (.of_lineage hr.coherent.parents.up (renumberAllOwners_lineage howners))

end Db

end LambdaMOO
