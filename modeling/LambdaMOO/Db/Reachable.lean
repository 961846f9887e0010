import LambdaMOO.Db.Recycle
import LambdaMOO.Db.HierarchyCheck

/-!
# Reached databases

The database starts as one that has been loaded, and programs change it. What every operation
keeps holds in whatever order they run, also between the calls of verbs in the middle of one.
-/

namespace LambdaMOO

/-- An object but for what neither hierarchies nor properties depend on. -/
def Object.core {P : Type} (o : Object P) : Object P :=
  { o with name := "", flags := 0, owner := 0, verbdefs := [], waifPropdefs := none }

namespace Db

variable {P : Type}

/-! ## Steps -/

/-- What a program does to the database at a time. Values of programs are never clear. `bf_recycle`
goes from one verb to the next or to `db_destroy_object`; the passes of its loops are steps of
their own, too. -/
inductive Step : Db P → Db P → Prop
  | create {db db' : Db P} {progr parent owner : Int} {r : Except ErrorCode Int}
      (h : db.bfCreate progr parent owner = some (r, db')) : Step db db'
  | chparent {db db' : Db P} {progr what parent : Int}
      (h : db.bfChparent progr what parent = some (.ok db')) : Step db db'
  | move {db db' : Db P} {progr : Int} {accepts : Bool} {what whereTo : Int}
      (h : db.doMove progr accepts what whereTo = some (.ok db')) : Step db db'
  | recycling {db db' : Db P} {callVerb : Objects P → Int → String → Bool} {oid : Int}
      (h : movingContents callVerb db oid = some (.calls db')) : Step db db'
  | recycle {db db₁ db' : Db P} {callVerb : Objects P → Int → String → Bool} {oid : Int}
      (h : movingContents callVerb db oid = some (.destroys db₁))
      (hdestroy : db₁.dbDestroyObject oid = some db') : Step db db'
  | movesOut {db : Db P} {oid : Int} {o : Object P} {objects : Objects P}
      (ho : findObject db.objects oid = some o) (hcontents : o.contents ≠ nothing)
      (h : dbChangeLocation db.objects o.contents nothing = some objects) :
      Step db { db with objects := objects }
  | movesUp {db : Db P} {oid : Int} {o : Object P} {done : Bool} {objects : Objects P}
      (ho : findObject db.objects oid = some o) (hchild : o.child ≠ nothing)
      (h : dbChangeParent db.objects o.child o.parent = some (done, objects)) :
      Step db { db with objects := objects }
  | renumber {db db' : Db P} {progr oid new : Int}
      (h : db.bfRenumber progr oid = some (.ok (new, db'))) : Step db db'
  | resetMaxObject {db db' : Db P} {progr : Int}
      (h : db.bfResetMaxObject progr = some (.ok db')) : Step db db'
  | addProp {db db' : Db P} {progr oid : Int} {pname : Propdef} {value info : Var}
      (hvalue : value.isClear = false)
      (h : db.bfAddProp progr oid pname value info = some (.ok db')) : Step db db'
  | deleteProp {db db' : Db P} {progr oid : Int} {pname : String}
      (h : db.bfDeleteProp progr oid pname = some (.ok db')) : Step db db'
  | clearProp {db db' : Db P} {progr oid : Int} {pname : String}
      (h : db.bfClearProp progr oid pname = some (.ok db')) : Step db db'
  | setPropInfo {db db' : Db P} {progr oid : Int} {pname : String} {info : Var} {addr : Nat}
      (h : db.setPropInfo progr oid pname info addr = some (.ok db')) : Step db db'
  | putProp {db db' : Db P} {progr oid : Int} {pname : String} {rhs : Var}
      (hvalue : rhs.isClear = false)
      (h : db.putProp progr oid pname rhs = some (.ok db')) : Step db db'
  | other {db db' : Db P} (h : ∀ k, (findObject db'.objects k).map Object.core
      = (findObject db.objects k).map Object.core) : Step db db'

/-- Any number of steps. -/
def Steps : Db P → Db P → Prop := Relation.ReflTransGen Step

/-- A database starts with hierarchies that have been validated and properties in order, as a
server writes them. -/
inductive Reached : Db P → Prop
  | load {objects : Objects P} {db : Db P} (h : validateHierarchies objects = some db.objects)
      (hfit : PropsFit db.objects) : Reached db
  | step {db db' : Db P} (hdb : Reached db) (h : Step db db') : Reached db'

lemma Reached.steps {db db' : Db P} (hdb : Reached db) (h : Steps db db') : Reached db' := by
  induction h with
  | refl => exact hdb
  | tail _ h ih => exact ih.step h

/-! ## Coherence -/

/-- Every object is a burden of some size. -/
lemma Coherent.exists_burden {objects : Objects P} (hc : Coherent objects) (oid : Int) :
    ∃ m, Burden objects oid m := by
  cases ho : findObject objects oid with
  | none => exact ⟨0, fun o ho' => by rw [ho] at ho'; cases ho'⟩
  | some o =>
    obtain ⟨ks, hks, -⟩ := hc.locations.down oid o ho
    refine ⟨ks.length + 1, fun o' ho' => ?_⟩
    rw [ho] at ho'
    cases ho'
    refine ⟨ks, hks, ?_⟩
    split_ifs <;> omega

lemma Coherent.movesOut {objects objects' : Objects P} (hc : Coherent objects) {oid : Int}
    {o : Object P} (ho : findObject objects oid = some o) (hne : o.contents ≠ nothing)
    (h : dbChangeLocation objects o.contents nothing = some objects') : Coherent objects' := by
  obtain ⟨ks, hks, -⟩ := hc.locations.down oid o ho
  obtain ⟨oc, hoc⟩ := isValid_iff.mp (hks.isValid.resolve_left hne)
  obtain ⟨-, objects₁, -, heq, hc₁, -⟩ := hc.exists_moveToNothing hoc fun _ _ _ => false
  rw [show locationLinks.down o = o.contents from rfl, h] at heq
  cases heq
  exact hc₁

lemma Coherent.movesUp {objects objects' : Objects P} (hc : Coherent objects) {oid : Int}
    {o : Object P} (ho : findObject objects oid = some o) (hne : o.child ≠ nothing) {done : Bool}
    (h : dbChangeParent objects o.child o.parent = some (done, objects')) : Coherent objects' := by
  obtain ⟨ks, hks, -, hiff⟩ := hc.parents.down oid o ho
  cases ks with
  | nil => exact absurd hks hne
  | cons c ks =>
    obtain ⟨hchild, -, oc, hoc, -⟩ := hks
    have hup : oc.parent = oid := (hiff c oc hoc).mp List.mem_cons_self
    obtain ⟨objects₁, heq, hc₁, -⟩ := hc.exists_changeParent ho hoc hup
    rw [← show o.child = c from hchild, h] at heq
    cases heq
    exact hc₁

/-- Every operation keeps coherence. -/
lemma Step.coherent {db db' : Db P} (h : Step db db') (hc : Coherent db.objects) :
    Coherent db'.objects := by
  cases h with
  | @create _ progr parent owner r h =>
    obtain ⟨r', db₁, heq, hc₁, -⟩ := hc.bfCreate_spec progr parent owner
    rw [h] at heq
    cases heq
    exact hc₁
  | chparent h => exact hc.bfChparent h
  | move h => exact hc.doMove h
  | @recycling _ callVerb oid h =>
    obtain ⟨m, hm⟩ := hc.exists_burden oid
    obtain ⟨r, hr, hadv⟩ := movingContents_spec callVerb hc hm
    rw [h] at hr
    cases hr
    exact hadv.1
  | @recycle db₁ _ callVerb oid h hdestroy =>
    obtain ⟨m, hm⟩ := hc.exists_burden oid
    obtain ⟨r, hr, hadv⟩ := movingContents_spec callVerb hc hm
    rw [h] at hr
    cases hr
    exact hadv.1.destroy hdestroy
  | movesOut ho hcontents h => exact hc.movesOut ho hcontents h
  | movesUp ho hchild h => exact hc.movesUp ho hchild h
  | renumber h => exact hc.bfRenumber h
  | resetMaxObject h => exact hc.bfResetMaxObject h
  | addProp hvalue h => exact hc.bfAddProp hvalue h
  | deleteProp h => exact hc.bfDeleteProp h
  | clearProp h => exact hc.bfClearProp h
  | setPropInfo h => exact hc.setPropInfo h
  | putProp hvalue h => exact hc.putProp hvalue h
  | other h =>
    have hmap : ∀ {α : Type} (f : Object P → α), (∀ o, f o.core = f o) → ∀ k,
        (findObject db'.objects k).map f = (findObject db.objects k).map f := by
      intro α f hf k
      simpa [Function.comp_def, hf] using congrArg (Option.map f) (h k)
    exact hc.congr (hmap _ fun _ => rfl) (hmap _ fun _ => rfl) (hmap _ fun _ => rfl)

lemma Reached.coherent {db : Db P} (h : Reached db) : Coherent db.objects := by
  induction h with
  | @load objects db h hfit =>
    obtain ⟨ok, objects', hvalid, hok⟩ := validation_consistent objects
    simp only [validateHierarchies, hvalid] at h
    cases ok with
    | false => cases h
    | true =>
      cases h
      exact ⟨(hok rfl).1, (hok rfl).2, hfit⟩
  | step _ h ih => exact h.coherent ih

/-! ## What always holds -/

/-- The list from `start` on has exactly the objects with `up` as their link, each once. -/
def ListsExactly (objects : Objects P) (across up : Object P → Int) (start oid : Int) : Prop :=
  ∃ ks, Along objects across start ks ∧ ks.Nodup ∧
    ∀ k o, findObject objects k = some o → (k ∈ ks ↔ up o = oid)

/-- The links from an object on come to an end without meeting an object twice. -/
def NoCycle (objects : Objects P) (up : Object P → Int) (oid : Int) : Prop :=
  ∃ ks, Along objects up oid ks ∧ ks.Nodup

/-- In whatever order programs create, recycle, renumber, reparent and move objects, both
hierarchies are well formed. -/
theorem Reached.hierarchies {db : Db P} (h : Reached db) (oid : Int) (o : Object P)
    (ho : findObject db.objects oid = some o) :
    ListsExactly db.objects Object.sibling Object.parent o.child oid ∧
    ListsExactly db.objects Object.next Object.location o.contents oid ∧
    NoCycle db.objects Object.parent oid ∧ NoCycle db.objects Object.location oid := by
  have hc := h.coherent
  refine ⟨hc.parents.down oid o ho, hc.locations.down oid o ho, ?_, ?_⟩
  · obtain ⟨ks, hks⟩ := hc.parents.up oid o ho
    have hoid := Along.cons_self ho hks
    exact ⟨_, hoid, hoid.nodup⟩
  · obtain ⟨ks, hks⟩ := hc.locations.up oid o ho
    have hoid := Along.cons_self ho hks
    exact ⟨_, hoid, hoid.nodup⟩

/-- A generic object with a property, and a child of it that is inside it. -/
def motherAndChild : Objects Unit :=
  [some { name := "", flags := 0, owner := 0, location := nothing, contents := 1, next := nothing,
          parent := nothing, child := 1, sibling := nothing, verbdefs := [],
          propdefs := [{ addr := 0, name := "size" }], propval := [⟨.int 5, 0, 0⟩],
          waifPropdefs := none },
   some { name := "", flags := 0, owner := 0, location := 0, contents := nothing,
          next := nothing, parent := 0, child := nothing, sibling := nothing, verbdefs := [],
          propdefs := [], propval := [⟨.clear, 0, 0⟩], waifPropdefs := none }]

lemma motherAndChild_cases {k : Int} {o : Object Unit}
    (ho : findObject motherAndChild k = some o) : k = 0 ∨ k = 1 := by
  obtain ⟨hnonneg, hlt⟩ := findObject_bounds ho
  have hlen : motherAndChild.length = 2 := rfl
  omega

lemma propsFit_motherAndChild : PropsFit motherAndChild := by
  refine ⟨fun k o ho => ?_, fun k o ho => ?_, fun k o ho => ?_⟩ <;>
  obtain rfl | rfl := motherAndChild_cases ho <;> cases ho
  · rfl
  · rfl
  · exact List.pairwise_singleton _ _
  · exact List.pairwise_singleton _ _
  · intro pv hpv
    rw [List.mem_singleton.mp hpv]
    rfl
  · exact fun pv hpv => absurd hpv List.not_mem_nil

def motherDb : Db Unit :=
  { objects := motherAndChild, allUsers := [], waifs := [], waifPropdefs := [] }

lemma reached_motherDb : Reached motherDb :=
  .load (show validateHierarchies motherAndChild = some motherAndChild from rfl)
    propsFit_motherAndChild

theorem Reached.hierarchies_motherAndChild :
    ListsExactly motherAndChild Object.sibling Object.parent 1 0 :=
  (reached_motherDb.hierarchies 0 _ rfl).1

/-- The slots of an object are those for the definitions on its line, in their order. No name is
defined twice on the line, and no slot is clear where its definition is. -/
theorem Reached.properties {db : Db P} (h : Reached db) (oid : Int) (o : Object P)
    (ho : findObject db.objects oid = some o) :
    o.propval.length = countProperties db.objects oid ∧
    lineProps db.objects oid = o.propdefs ++ lineProps db.objects o.parent ∧
    (∀ pname definer n, dbFindProperty db.objects oid pname = some (.slot definer n) →
      ∃ p, (lineProps db.objects oid)[n]? = some p ∧ strEqual p.name pname) ∧
    (lineProps db.objects oid).Pairwise Differ ∧
    ∀ pv ∈ o.propval.take o.propdefs.length, pv.var.isClear = false := by
  have hc := h.coherent
  obtain ⟨ks, hks⟩ := hc.parents.exists_line ho
  have hoid := hks.cons_self ho
  refine ⟨hc.fit.length oid o ho, lineProps_of_parent hc.parents.up ho, ?_,
    hc.fit.distinct oid o ho, hc.fit.set oid o ho⟩
  intro pname definer n hfind
  obtain ⟨p, hp, hname⟩ := exists_tag_of_find hoid hfind
  rw [hoid.lineProps_eq_map, List.getElem?_map, hp]
  exact ⟨p, rfl, hname⟩

theorem Reached.properties_motherAndChild :
    (lineProps motherAndChild 1).Pairwise Differ :=
  (reached_motherDb.properties 1 _ rfl).2.2.2.1

/-- Properties are found as inheritance says, and what is done to one definition leaves the slots
for all others alone. -/
theorem Reached.inheritance {db : Db P} (h : Reached db) :
    (∀ x pname, isValid db.objects x → isBuiltin pname = false →
      FindsInherited db.objects x pname) ∧
    (∀ oid pname value owner flags b objects', value.isClear = false →
      dbAddPropdef db.objects oid pname value owner flags = some (b, objects') →
      KeepsSlots db.objects objects') ∧
    (∀ oid pname b objects', dbDeletePropdef db.objects oid pname = some (b, objects') →
      KeepsSlots db.objects objects') ∧
    (∀ oid old new b db', db.dbRenamePropdef oid old new = some (b, db') →
      KeepsSlots db.objects db'.objects) ∧
    ∀ oid parent b objects', isValid db.objects oid →
      (parent = nothing ∨ isValid db.objects parent) →
      (∀ ks, Along db.objects Object.parent parent ks → oid ∉ ks) →
      dbChangeParent db.objects oid parent = some (b, objects') →
      KeepsSlots db.objects objects' := by
  have hc := h.coherent
  refine ⟨?_, fun _ _ _ _ _ _ _ hvalue heq => hc.keepsSlots_addPropdef hvalue heq,
    fun _ _ _ _ heq => hc.keepsSlots_deletePropdef heq,
    fun _ _ _ _ _ heq => hc.keepsSlots_renamePropdef heq, ?_⟩
  · intro x pname hvalid hname
    obtain ⟨o, ho⟩ := isValid_iff.mp hvalid
    obtain ⟨ks, hks⟩ := hc.parents.exists_line ho
    exact hc.fit.findsInherited ho (hks.cons_self ho) hname
  · intro oid parent b objects' hvalid hparent hloop heq
    obtain ⟨o, ho⟩ := isValid_iff.mp hvalid
    exact hc.keepsSlots_changeParent ho hparent hloop heq

theorem Reached.inheritance_motherAndChild : FindsInherited motherAndChild 1 "SIZE" :=
  reached_motherDb.inheritance.1 1 "SIZE" rfl (by decide)

/-! ## Recycling -/

/-- What verbs may do while `oid` is recycled: everything but put something into it, or put it into
something. -/
structure Quiet (oid : Int) (db db' : Db P) : Prop where
  steps : Steps db db'
  contents : ∀ k o', findObject db'.objects k = some o' → o'.location = oid →
    ∃ o, findObject db.objects k = some o ∧ o.location = oid
  location : ∀ o', findObject db'.objects oid = some o' → o'.location ≠ nothing →
    ∃ o, findObject db.objects oid = some o ∧ o.location ≠ nothing

/-- `bf_recycle` comes to an end from here if the verbs that it calls are quiet, and
`db_destroy_object` does not panic. -/
inductive Finishes (oid : Int) : Recycling P → Prop
  | error (e : ErrorCode) : Finishes oid (.error e)
  | gone : Finishes oid .gone
  | calls {db : Db P} (hgo : ∀ db' callVerb, Quiet oid db db' →
        ∃ r, movingContents callVerb db' oid = some r)
      (hrest : ∀ db' callVerb r, Quiet oid db db' → movingContents callVerb db' oid = some r →
        Finishes oid r) : Finishes oid (.calls db)
  | destroys {db db' : Db P} (hb : Barren db.objects oid) (h : db.dbDestroyObject oid = some db') :
    Finishes oid (.destroys db)

/-- Quiet verbs leave no more to be moved. -/
lemma Quiet.burden {oid : Int} {db db' : Db P} (hq : Quiet oid db db')
    (hc : Coherent db.objects) (hc' : Coherent db'.objects) {m : Nat}
    (hm : Burden db.objects oid m) : Burden db'.objects oid m := by
  intro o' ho'
  obtain ⟨ks', hks', hnodup', hiff'⟩ := hc'.locations.down oid o' ho'
  refine ⟨ks', hks', ?_⟩
  -- who is inside now was inside before
  have hbefore : ∀ k ∈ ks', ∃ ok, findObject db.objects k = some ok ∧ ok.location = oid := by
    intro k hk
    obtain ⟨-, ok', -, hok', -⟩ := hks'.exists_of_mem hk
    exact hq.contents k ok' hok' ((hiff' k ok' hok').mp hk)
  cases ho : findObject db.objects oid with
  | none =>
    have hnil : ks' = [] := by
      refine List.eq_nil_iff_forall_not_mem.mpr fun k hk => ?_
      obtain ⟨ok, hok, hin⟩ := hbefore k hk
      obtain ⟨js, hjs⟩ := hc.locations.up k ok hok
      obtain ⟨o, ho₂⟩ := isValid_iff.mp (hjs.isValid.resolve_left fun (h : ok.location = nothing) =>
        ne_nothing_of_isValid (isValid_of_findObject ho') (hin.symm.trans h))
      rw [show locationLinks.up ok = oid from hin, ho] at ho₂
      cases ho₂
    have hloc : o'.location = nothing := by
      by_contra hne
      obtain ⟨o, ho₂, -⟩ := hq.location o' ho' hne
      rw [ho] at ho₂
      cases ho₂
    simp [hnil, hloc]
  | some o =>
    obtain ⟨ks, hks, hle⟩ := hm o ho
    obtain ⟨js, hjs, -, hiff⟩ := hc.locations.down oid o ho
    have hsub : ks' ⊆ ks := by
      intro k hk
      obtain ⟨ok, hok, hin⟩ := hbefore k hk
      exact hks.unique hjs ▸ (hiff k ok hok).mpr hin
    have hlen := (hnodup'.subperm hsub).length_le
    have hloc : o.location = nothing → o'.location = nothing := by
      intro hnone
      by_contra hne
      obtain ⟨o₂, ho₂, hne₂⟩ := hq.location o' ho' hne
      rw [ho] at ho₂
      cases ho₂
      exact hne₂ hnone
    by_cases h₁ : o.location = nothing
    · rw [if_pos h₁] at hle
      rw [if_pos (hloc h₁)]
      omega
    · rw [if_neg h₁] at hle
      split_ifs <;> omega

/-- However much there is to be moved, it ends. -/
lemma Reached.finishes_movingContents {oid : Int} (m : Nat) :
    ∀ {db : Db P}, Reached db → Burden db.objects oid m → ∀ callVerb,
      ∃ r, movingContents callVerb db oid = some r ∧ Finishes oid r := by
  induction m using Nat.strong_induction_on with
  | _ m ih =>
    intro db h hm callVerb
    obtain ⟨r, hr, hadv⟩ := movingContents_spec callVerb h.coherent hm
    refine ⟨r, hr, ?_⟩
    cases r with
    | error e => exact .error e
    | gone => exact .gone
    | destroys db₁ =>
      obtain ⟨hc₁, hb⟩ := hadv
      obtain ⟨db₂, heq⟩ := hb.exists_destroy hc₁
      exact .destroys hb heq
    | calls db₁ =>
      obtain ⟨hc₁, m', hlt, hm'⟩ := hadv
      have hnext : ∀ db' callVerb, Quiet oid db₁ db' →
          ∃ r, movingContents callVerb db' oid = some r ∧ Finishes oid r := by
        intro db' callVerb' hq
        have h' : Reached db' := (h.step (.recycling hr)).steps hq.steps
        exact ih m' hlt h' (hq.burden hc₁ h'.coherent hm') callVerb'
      refine .calls (fun db' callVerb hq => ?_) fun db' callVerb r hq hr => ?_
      · obtain ⟨r, hr, -⟩ := hnext db' callVerb hq
        exact ⟨r, hr⟩
      · obtain ⟨r', hr', hf⟩ := hnext db' callVerb hq
        rw [hr] at hr'
        cases hr'
        exact hf

/-- Recycling an object always finishes. No pass of the loops over the children and over the
contents fails, and each takes one from the list. -/
theorem Reached.bfRecycle_finishes {db : Db P} (h : Reached db) (oid : Int) :
    (∀ o, findObject db.objects oid = some o → ∀ c ks,
      Along db.objects Object.sibling o.child (c :: ks) →
      ∃ objects', dbChangeParent db.objects c o.parent = some (true, objects') ∧
        ∃ o', findObject objects' oid = some o' ∧
          Along objects' Object.sibling o'.child ks) ∧
    (∀ o, findObject db.objects oid = some o → ∀ c ks,
      Along db.objects Object.next o.contents (c :: ks) →
      ∃ objects', dbChangeLocation db.objects c nothing = some objects' ∧
        ∃ o', findObject objects' oid = some o' ∧
          Along objects' Object.next o'.contents ks) ∧
    ∀ callVerb progr, ∃ r, bfRecycle callVerb db progr oid = some r ∧ Finishes oid r := by
  have hc := h.coherent
  refine ⟨?_, ?_, fun callVerb progr => ?_⟩
  · intro o ho c ks hks
    obtain ⟨-, -, oc, hoc, -⟩ := id hks
    obtain ⟨js, hjs, -, hiff⟩ := hc.parents.down oid o ho
    have hup : oc.parent = oid := (hiff c oc hoc).mp (hks.unique hjs ▸ List.mem_cons_self)
    obtain ⟨objects', heq, -, -, o', ho', -, hlist⟩ := hc.exists_changeParent ho hoc hup
    have hks' := hlist _ hks
    rw [List.erase_cons_head] at hks'
    exact ⟨objects', heq, o', ho', hks'⟩
  · intro o ho c ks hks
    obtain ⟨-, -, oc, hoc, -⟩ := id hks
    obtain ⟨-, objects', -, heq, -, -, hlists⟩ :=
      hc.exists_moveToNothing hoc fun _ _ _ => false
    obtain ⟨o', ho', hks'⟩ := hlists oid o _ ho hks
    rw [List.erase_cons_head] at hks'
    exact ⟨objects', heq, o', ho', hks'⟩
  · obtain ⟨m, hm⟩ := hc.exists_burden oid
    unfold bfRecycle
    split_ifs
    · exact ⟨_, rfl, .error _⟩
    · exact ⟨_, rfl, .error _⟩
    · have hgo : ∀ db' callVerb, Quiet oid db db' →
          ∃ r, movingContents callVerb db' oid = some r ∧ Finishes oid r := by
        intro db' callVerb' hq
        have h' := h.steps hq.steps
        exact h'.finishes_movingContents m (hq.burden hc h'.coherent hm) callVerb'
      refine ⟨_, rfl, .calls (fun db' callVerb hq => ?_) fun db' callVerb r hq hr => ?_⟩
      · obtain ⟨r, hr, -⟩ := hgo db' callVerb hq
        exact ⟨r, hr⟩
      · obtain ⟨r', hr', hf⟩ := hgo db' callVerb hq
        rw [hr] at hr'
        cases hr'
        exact hf
    · exact h.finishes_movingContents m hm callVerb

theorem Reached.bfRecycle_finishes_motherAndChild :
    ∃ r, bfRecycle (fun _ _ _ => false) motherDb 0 0 = some r ∧ Finishes 0 r :=
  (reached_motherDb.bfRecycle_finishes 0).2.2 _ _

end Db

end LambdaMOO
