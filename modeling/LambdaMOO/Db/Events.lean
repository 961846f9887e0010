import LambdaMOO.Db.Renaming
import LambdaMOO.Db.WaifGraph

/-!
# Cached lists along a run

In whatever order programs change objects and make, read and change waifs, a list that is cached
for a class is the one that would be generated for it now.
-/

namespace LambdaMOO

/-- An object but for what cached lists do not depend on. -/
def Object.outline {P : Type} (o : Object P) : Object P :=
  { o with name := "", flags := 0, owner := 0, verbdefs := [] }

namespace Db

variable {P : Type} {objects objects' : Objects P} {db db' : Db P}

/-! ## Operations -/

lemma Coherent.keepsCaches_decrQuota (hc : Coherent objects) {player : Int} {ok : Bool}
    (heq : decrQuota objects player = some (ok, objects')) : KeepsCaches [] objects objects' := by
  obtain ⟨r, -, heq⟩ := Option.bind_eq_some_iff.mp heq
  cases r with
  | none =>
    cases heq
    exact .refl
  | some r =>
    dsimp only at heq
    split_ifs at heq
    · cases heq
      exact .refl
    · obtain ⟨_, hset, heq⟩ := Option.bind_eq_some_iff.mp heq
      cases heq
      exact hc.keepsCaches_setSlot hset

lemma Coherent.keepsCaches_incrQuota (hc : Coherent objects) {player : Int}
    (heq : incrQuota objects player = some objects') : KeepsCaches [] objects objects' := by
  obtain ⟨r, -, heq⟩ := Option.bind_eq_some_iff.mp heq
  cases r with
  | none =>
    cases heq
    exact .refl
  | some r => exact hc.keepsCaches_setSlot heq

lemma Coherent.keepsCaches_createChild (hc : Coherent objects) {parent owner oid : Int}
    (hparent : parent = nothing ∨ isValid objects parent)
    (heq : createChild objects parent owner = some (oid, objects')) :
    KeepsCaches [] objects objects' := by
  obtain ⟨⟨done, _⟩, hchange, heq⟩ := Option.bind_eq_some_iff.mp heq
  cases heq
  have hself : ∀ owner, findObject (dbCreateObject objects owner).1 objects.length
      = some (freshObject owner) := fun owner => by rw [findObject_dbCreateObject, if_pos rfl]
  exact (hc.keepsCaches_create _).trans ((hc.create _).keepsCaches_changeParent (hself _)
    (hparent.imp_right fun hv => isValid_dbCreateObject hv _) (hc.notMem_created hparent _)
    hchange)

/-- The same, and the objects are still in order. -/
structure Keeps (objects objects' : Objects P) : Prop where
  coherent : Coherent objects'
  caches : KeepsCaches [] objects objects'

lemma Coherent.keeps_refl (hc : Coherent objects) : Keeps objects objects := ⟨hc, .refl⟩

lemma Keeps.trans {objects'' : Objects P} (h : Keeps objects objects')
    (h' : Keeps objects' objects'') : Keeps objects objects'' :=
  ⟨h'.coherent, h.caches.trans h'.caches⟩

/-- Somebody gets another parent, or does not. -/
lemma Coherent.keeps_changeParent (hc : Coherent objects) {oid parent : Int}
    (hparent : parent = nothing ∨ isValid objects parent)
    (hloop : ∀ ks, Along objects Object.parent parent ks → oid ∉ ks) {done : Bool}
    (h : dbChangeParent objects oid parent = some (done, objects')) : Keeps objects objects' := by
  obtain ⟨fits, -, heq⟩ := Option.bind_eq_some_iff.mp h
  cases fits with
  | false =>
    cases heq
    exact hc.keeps_refl
  | true =>
    obtain ⟨o, ho, -⟩ := Option.bind_eq_some_iff.mp heq
    exact ⟨hc.changeParent ho hparent hloop h,
      hc.keepsCaches_changeParent ho hparent hloop h⟩

/-- A child goes to its grandparent. -/
lemma Coherent.keeps_movesUp (hc : Coherent objects) {oid : Int} {o : Object P}
    (ho : findObject objects oid = some o) (hne : o.child ≠ nothing) {done : Bool}
    (h : dbChangeParent objects o.child o.parent = some (done, objects')) :
    Keeps objects objects' := by
  obtain ⟨js, hjs⟩ := hc.parents.up oid o ho
  obtain ⟨ks, hks, -, hiff⟩ := hc.parents.down oid o ho
  cases ks with
  | nil => exact absurd hks hne
  | cons c ks =>
    obtain ⟨hchild, -, oc, hoc, -⟩ := hks
    have hup : oc.parent = oid := (hiff c oc hoc).mp List.mem_cons_self
    rw [show o.child = c from hchild] at h
    exact hc.keeps_changeParent hjs.isValid (notMem_grandparent ho hoc hup) h

/-- Somebody goes nowhere. -/
lemma Coherent.keeps_goesNowhere (hc : Coherent objects) {oid : Int}
    (h : dbChangeLocation objects oid nothing = some objects') : Keeps objects objects' := by
  obtain ⟨o, ho, -⟩ := Option.bind_eq_some_iff.mp h
  obtain ⟨objects₁, heq, hc₁, -⟩ := dbChangeLocation_spec hc ho (.inl rfl) notMem_nothing
  rw [h] at heq
  cases heq
  exact ⟨hc₁, hc.keepsCaches_changeLocation ho (.inl rfl) notMem_nothing h⟩

lemma Coherent.keeps_moveToNothing (hc : Coherent objects) {oid : Int} {called : Bool}
    {callVerb : Objects P → Int → String → Bool}
    (h : moveToNothing callVerb objects oid = some (called, objects')) :
    Keeps objects objects' := by
  obtain ⟨o, -, h⟩ := Option.bind_eq_some_iff.mp h
  obtain ⟨_, hmove, h⟩ := Option.bind_eq_some_iff.mp h
  cases h
  exact hc.keeps_goesNowhere hmove

lemma Coherent.keeps_moveContents (hc : Coherent objects) {oid : Int} {called : Bool}
    {callVerb : Objects P → Int → String → Bool} {n : Nat}
    (h : moveContents callVerb oid n objects = some (called, objects')) :
    Keeps objects objects' := by
  induction n generalizing objects with
  | zero => cases h
  | succ n ih =>
    obtain ⟨o, -, h⟩ := Option.bind_eq_some_iff.mp h
    split_ifs at h with hnone
    · cases h
      exact hc.keeps_refl
    · obtain ⟨⟨called₁, objects₁⟩, hmove, h⟩ := Option.bind_eq_some_iff.mp h
      have hk := hc.keeps_moveToNothing hmove
      cases called₁ with
      | true =>
        cases h
        exact hk
      | false => exact hk.trans (ih hk.coherent h)

lemma Coherent.keeps_changeParents (hc : Coherent objects) {oid : Int} {n : Nat}
    (h : changeParents oid n objects = some objects') : Keeps objects objects' := by
  induction n generalizing objects with
  | zero => cases h
  | succ n ih =>
    obtain ⟨o, ho, h⟩ := Option.bind_eq_some_iff.mp h
    split_ifs at h with hnone
    · cases h
      exact hc.keeps_refl
    · obtain ⟨⟨done, objects₁⟩, hchange, h⟩ := Option.bind_eq_some_iff.mp h
      have hk := hc.keeps_movesUp ho hnone hchange
      exact hk.trans (ih hk.coherent h)

/-! ## What an operation leaves of the rest -/

/-- What an operation that is not about waifs does to cached lists. -/
structure Kept (fresh : List Propdef) (db db' : Db P) : Prop where
  caches : KeepsCaches fresh db.objects db'.objects
  waifs : db'.waifs = db.waifs
  lists : db'.waifPropdefs = db.waifPropdefs

/-- Only the objects change. -/
lemma KeepsCaches.kept {fresh : List Propdef} (h : KeepsCaches fresh db.objects objects') :
    Kept fresh db { db with objects := objects' } :=
  ⟨h, rfl, rfl⟩

lemma Kept.refl {fresh : List Propdef} : Kept fresh db db := ⟨.refl, rfl, rfl⟩

lemma Kept.trans {fresh : List Propdef} {db'' : Db P} (h : Kept fresh db db')
    (h' : Kept fresh db' db'') : Kept fresh db db'' :=
  ⟨h.caches.trans h'.caches, h'.waifs.trans h.waifs, h'.lists.trans h.lists⟩

/-- The waifs are the same, and no list has got longer or shorter. -/
structure SameWaifs (db db' : Db P) : Prop where
  waifs : db'.waifs = db.waifs
  lengths : ∀ a : Nat, (db'.waifPropdefs[a]?).map List.length
    = (db.waifPropdefs[a]?).map List.length

lemma Kept.sameWaifs {fresh : List Propdef} (h : Kept fresh db db') : SameWaifs db db' :=
  ⟨h.waifs, fun a => by rw [h.lists]⟩

lemma SameWaifs.trans {db'' : Db P} (h : SameWaifs db db') (h' : SameWaifs db' db'') :
    SameWaifs db db'' :=
  ⟨h'.waifs.trans h.waifs, fun a => (h'.lengths a).trans (h.lengths a)⟩

/-- The same for what `bf_recycle` comes to. -/
def Recycling.Kept (db : Db P) : Recycling P → Prop
  | .calls db' => Db.Kept [] db db'
  | .destroys db' => Db.Kept [] db db' ∧ Coherent db'.objects
  | _ => True

lemma Recycling.Kept.of_keeps {r : Recycling P} (hk : Keeps db.objects objects')
    (h : Recycling.Kept { db with objects := objects' } r) : Recycling.Kept db r := by
  cases r with
  | error e => trivial
  | gone => trivial
  | calls db' => exact hk.caches.kept.trans h
  | destroys db' => exact ⟨hk.caches.kept.trans h.1, h.2⟩

lemma Coherent.kept_leaveHierarchy (hc : Coherent db.objects) {oid : Int} {r : Recycling P}
    (h : leaveHierarchy db oid = some r) : r.Kept db := by
  obtain ⟨objects₁, hparents, h⟩ := Option.bind_eq_some_iff.mp h
  obtain ⟨⟨done, objects₂⟩, hchange, h⟩ := Option.bind_eq_some_iff.mp h
  obtain ⟨o, ho, h⟩ := Option.bind_eq_some_iff.mp h
  obtain ⟨objects₃, hquota, h⟩ := Option.bind_eq_some_iff.mp h
  cases h
  have hk := (hc.keeps_changeParents hparents)
  have hk₂ := hk.trans (hk.coherent.keeps_changeParent (.inl rfl) notMem_nothing hchange)
  obtain ⟨_, heq, -, hc₃⟩ := incrQuota_spec hk₂.coherent o.owner
  rw [hquota] at heq
  cases heq
  exact ⟨(hk₂.caches.trans (hk₂.coherent.keepsCaches_incrQuota hquota)).kept, hc₃⟩

lemma Coherent.kept_leaveLocation (hc : Coherent db.objects) {oid : Int}
    {callVerb : Objects P → Int → String → Bool} {r : Recycling P}
    (h : leaveLocation callVerb db oid = some r) : r.Kept db := by
  obtain ⟨o, -, h⟩ := Option.bind_eq_some_iff.mp h
  split_ifs at h with hnone
  · exact hc.kept_leaveHierarchy h
  · obtain ⟨⟨called, objects₁⟩, hmove, h⟩ := Option.bind_eq_some_iff.mp h
    have hk := hc.keeps_moveToNothing hmove
    cases called with
    | true =>
      cases h
      exact hk.caches.kept
    | false => exact .of_keeps hk (hk.coherent.kept_leaveHierarchy h)

lemma Coherent.kept_movingContents (hc : Coherent db.objects) {oid : Int}
    {callVerb : Objects P → Int → String → Bool} {r : Recycling P}
    (h : movingContents callVerb db oid = some r) : r.Kept db := by
  unfold movingContents at h
  split_ifs at h
  · cases h
    trivial
  · obtain ⟨⟨called, objects₁⟩, hmove, h⟩ := Option.bind_eq_some_iff.mp h
    have hk := hc.keeps_moveContents hmove
    cases called with
    | true =>
      cases h
      exact hk.caches.kept
    | false => exact .of_keeps hk (hk.coherent.kept_leaveLocation h)

lemma Coherent.kept_destroy (hc : Coherent db.objects) {oid : Int}
    (h : dbDestroyObject db oid = some db') : Kept [] db db' := by
  have hcaches := hc.keepsCaches_destroy h
  simp only [dbDestroyObject, Option.bind_eq_bind] at h
  obtain ⟨o, -, h⟩ := Option.bind_eq_some_iff.mp h
  simp only [Option.ite_none_left_eq_some, Option.some.injEq] at h
  obtain ⟨-, -, rfl⟩ := h
  exact ⟨hcaches, rfl, rfl⟩

lemma Coherent.kept_bfCreate (hc : Coherent db.objects) {progr parent owner : Int}
    {r : Except ErrorCode Int} (h : db.bfCreate progr parent owner = some (r, db')) :
    Kept [] db db' := by
  cases hmay : mayCreate db.objects progr parent owner with
  | false =>
    rw [Db.bfCreate, hmay, Bool.not_false, if_pos rfl] at h
    cases h
    exact .refl
  | true =>
    rw [Db.bfCreate, hmay, Bool.not_true, if_neg Bool.false_ne_true] at h
    have hparent := mayCreate_parent hmay
    obtain ⟨⟨ok, objects₁⟩, hquota, h⟩ := Option.bind_eq_some_iff.mp h
    obtain ⟨hk, halike⟩ : Keeps db.objects objects₁ ∧ Alike db.objects objects₁ := by
      split_ifs at hquota
      · obtain ⟨_, _, heq, -, halike, hc₁⟩ := decrQuota_spec hc owner
        rw [hquota] at heq
        cases heq
        exact ⟨⟨hc₁, hc.keepsCaches_decrQuota hquota⟩, halike⟩
      · cases hquota
        exact ⟨hc.keeps_refl, .refl⟩
    cases ok with
    | false =>
      cases h
      exact hk.caches.kept
    | true =>
      obtain ⟨⟨oid, objects₂⟩, hchild, h⟩ := Option.bind_eq_some_iff.mp h
      cases h
      exact (hk.caches.trans (hk.coherent.keepsCaches_createChild
        (hparent.imp_right fun hv => halike.isValid parent ▸ hv) hchild)).kept

lemma Coherent.kept_bfChparent (hc : Coherent db.objects) {progr what parent : Int}
    (h : db.bfChparent progr what parent = some (.ok db')) : Kept [] db db' := by
  unfold Db.bfChparent at h
  obtain ⟨hvalid, h⟩ := ite_error_eq_ok.mp h
  obtain ⟨-, h⟩ := ite_error_eq_ok.mp h
  have hparent : parent = nothing ∨ isValid db.objects parent := by
    revert hvalid
    cases isValid db.objects what <;> cases isValid db.objects parent <;> simp
  obtain ⟨through, hthrough, h⟩ := Option.bind_eq_some_iff.mp h
  cases through with
  | true => cases h
  | false =>
    obtain ⟨⟨done, objects₁⟩, hchange, h⟩ := Option.bind_eq_some_iff.mp h
    cases done with
    | false => cases h
    | true =>
      cases h
      exact (hc.keeps_changeParent hparent (notMem_of_leadsThrough hthrough) hchange).caches.kept

lemma Coherent.kept_doMove (hc : Coherent db.objects) {progr : Int} {accepts : Bool}
    {what whereTo : Int} (h : db.doMove progr accepts what whereTo = some (.ok db')) :
    Kept [] db db' := by
  unfold Db.doMove at h
  obtain ⟨-, h⟩ := ite_error_eq_ok.mp h
  cases ho : findObject db.objects what with
  | none =>
    rw [ho] at h
    cases h
    exact .refl
  | some o =>
    simp only [ho] at h
    split_ifs at h with hstay
    · cases h
      exact .refl
    · have hto : whereTo = nothing ∨ isValid db.objects whereTo := by
        revert hstay
        cases isValid db.objects whereTo <;> simp
        tauto
      obtain ⟨through, hthrough, h⟩ := Option.bind_eq_some_iff.mp h
      cases through with
      | true => cases h
      | false =>
        obtain ⟨objects₁, hmove, h⟩ := Option.bind_eq_some_iff.mp h
        cases h
        exact (hc.keepsCaches_changeLocation ho hto (notMem_of_leadsThrough hthrough) hmove).kept

lemma Coherent.kept_bfRenumber (hc : Coherent db.objects) {progr oid new : Int}
    (h : db.bfRenumber progr oid = some (.ok (new, db'))) : Kept [] db db' := by
  unfold Db.bfRenumber at h
  obtain ⟨-, h⟩ := ite_error_eq_ok.mp h
  obtain ⟨-, h⟩ := ite_error_eq_ok.mp h
  obtain ⟨⟨n, _⟩, hrenumber, h⟩ := Option.map_eq_some_iff.mp h
  cases h
  obtain ⟨-, rfl | ⟨-, -, -, -, -, hwaifs, hlists⟩⟩ := hc.renumber_spec hrenumber
  · exact .refl
  · exact ⟨hc.keepsCaches_renumber hrenumber, hwaifs, hlists⟩

lemma Coherent.kept_bfResetMaxObject (hc : Coherent db.objects) {progr : Int}
    (h : db.bfResetMaxObject progr = some (.ok db')) : Kept [] db db' := by
  unfold Db.bfResetMaxObject at h
  obtain ⟨-, h⟩ := ite_error_eq_ok.mp h
  obtain ⟨objects₁, hreset, h⟩ := Option.map_eq_some_iff.mp h
  cases h
  exact (hc.keepsCaches_resetLastUsedObjid hreset).kept

lemma Coherent.kept_bfAddProp (hc : Coherent db.objects) {progr oid : Int} {pname : Propdef}
    {value info : Var} (h : db.bfAddProp progr oid pname value info = some (.ok db')) :
    Kept [pname] db db' := by
  unfold Db.bfAddProp at h
  split at h
  · cases h
  · obtain ⟨-, h⟩ := ite_error_eq_ok.mp h
    obtain ⟨-, h⟩ := ite_error_eq_ok.mp h
    obtain ⟨-, h⟩ := ite_error_eq_ok.mp h
    obtain ⟨⟨done, objects₁⟩, hadd, h⟩ := Option.bind_eq_some_iff.mp h
    cases done with
    | false => cases h
    | true =>
      cases h
      exact (hc.keepsCaches_addPropdef hadd).kept

lemma Coherent.kept_bfDeleteProp (hc : Coherent db.objects) {progr oid : Int} {pname : String}
    (h : db.bfDeleteProp progr oid pname = some (.ok db')) : Kept [] db db' := by
  unfold Db.bfDeleteProp at h
  obtain ⟨-, h⟩ := ite_error_eq_ok.mp h
  obtain ⟨-, h⟩ := ite_error_eq_ok.mp h
  obtain ⟨⟨done, objects₁⟩, hdelete, h⟩ := Option.bind_eq_some_iff.mp h
  cases done with
  | false => cases h
  | true =>
    cases h
    exact (hc.keepsCaches_deletePropdef hdelete).kept

lemma Coherent.kept_bfClearProp (hc : Coherent db.objects) {progr oid : Int} {pname : String}
    (h : db.bfClearProp progr oid pname = some (.ok db')) : Kept [] db db' := by
  unfold Db.bfClearProp at h
  obtain ⟨-, h⟩ := ite_error_eq_ok.mp h
  split at h
  · cases h
  · cases h
  · obtain ⟨o, -, h⟩ := Option.bind_eq_some_iff.mp h
    obtain ⟨prop, -, h⟩ := Option.bind_eq_some_iff.mp h
    obtain ⟨-, h⟩ := ite_error_eq_ok.mp h
    obtain ⟨-, h⟩ := ite_error_eq_ok.mp h
    obtain ⟨objects₁, hset, h⟩ := Option.bind_eq_some_iff.mp h
    cases h
    exact (hc.keepsCaches_setSlot hset).kept

lemma Coherent.kept_setInfo (hc : Coherent db.objects) {oid owner : Int} {n : Nat}
    {flags : BitVec 16} (h : db.setInfo oid n owner flags = some (.ok db')) : Kept [] db db' := by
  obtain ⟨objects₁, howner, h⟩ := Option.bind_eq_some_iff.mp h
  obtain ⟨objects₂, hflags, h⟩ := Option.bind_eq_some_iff.mp h
  cases h
  have hc₁ : Coherent objects₁ := hc.setSlot howner fun _ _ _ _ h => h
  exact ((hc.keepsCaches_setSlot howner).trans (hc₁.keepsCaches_setSlot hflags)).kept

lemma Coherent.kept_putProp (hc : Coherent db.objects) {progr oid : Int} {pname : String}
    {rhs : Var} (h : db.putProp progr oid pname rhs = some (.ok db')) : Kept [] db db' := by
  unfold Db.putProp at h
  obtain ⟨-, h⟩ := ite_error_eq_ok.mp h
  split at h
  · cases h
  · cases h
  · obtain ⟨o, -, h⟩ := Option.bind_eq_some_iff.mp h
    obtain ⟨prop, -, h⟩ := Option.bind_eq_some_iff.mp h
    obtain ⟨-, h⟩ := ite_error_eq_ok.mp h
    obtain ⟨objects₁, hset, h⟩ := Option.bind_eq_some_iff.mp h
    cases h
    exact (hc.keepsCaches_setSlot hset).kept

/-! ## Current databases -/

/-- Objects are in order, every cached list is what would be generated now, and no class shares
its list with another one. -/
structure Current (db : Db P) : Prop where
  coherent : Coherent db.objects
  cacheOk : CacheOk db
  apart : CachesApart db.objects
  named : Named db.objects

/-- What is at the address of a name is that name. -/
def NameAt (objects : Objects P) (p : Propdef) : Prop :=
  ∀ k, ∀ q ∈ defs objects k, q.addr = p.addr → q.name = p.name

lemma Named.of_fresh (h : Named objects) {fresh : List Propdef}
    (hfresh : ∀ p ∈ fresh, NameAt objects p) (hone : ∀ p ∈ fresh, ∀ q ∈ fresh, p = q)
    (hdefs : ∀ k, ∀ p ∈ defs objects' k, p ∈ fresh ∨ ∃ j, p ∈ defs objects j) :
    Named objects' := by
  intro j k p hp q hq haddr
  rcases hdefs j p hp with hp | ⟨j', hp⟩ <;> rcases hdefs k q hq with hq | ⟨k', hq⟩
  · rw [hone p hp q hq]
  · exact (hfresh p hp k' q hq haddr.symm).symm
  · exact hfresh q hq j' p hp haddr
  · exact h j' k' p hp q hq haddr

lemma Current.kept (h : Current db) {fresh : List Propdef} (hk : Kept fresh db db')
    (hc : Coherent db'.objects) (hfresh : ∀ p ∈ fresh, NameAt db.objects p)
    (hone : ∀ p ∈ fresh, ∀ q ∈ fresh, p = q) : Current db' := by
  obtain ⟨f, hf⟩ := hk.caches.cache
  refine ⟨hc, fun k n hn => ?_, fun j k n hj hk => ?_, h.named.of_fresh hfresh hone hk.caches.defs⟩
  · obtain ⟨hcache, hline⟩ := hf k n hn
    rw [hk.lists, h.cacheOk (f k) n hcache, genWaifPropdefs_eq, genWaifPropdefs_eq, hline]
  · exact f.injective (h.apart _ _ n (hf j n hj).1 (hf k n hk).1)

lemma Current.keptCoherent (h : Current db) (hk : Kept [] db db')
    (hc : Coherent db'.objects) : Current db' :=
  h.kept hk hc (by rintro _ ⟨⟩) (by rintro _ ⟨⟩)

lemma Current.renamed (h : Current db) {new : Propdef} (hnew : NameAt db.objects new)
    (hr : RenamedLists new db db') (hc : Coherent db'.objects) : Current db' := by
  refine ⟨hc, hr.cacheOk, hr.apart, h.named.of_fresh ?_ ?_ hr.defs⟩
  · intro p hp
    rwa [List.mem_singleton.mp hp]
  · intro p hp q hq
    rw [List.mem_singleton.mp hp, List.mem_singleton.mp hq]

lemma Current.setPropInfo (h : Current db) {progr oid : Int} {pname : String} {info : Var}
    {addr : Nat} (hname : ∀ owner flags name,
      validatePropInfo db.objects info = .ok (owner, flags, some name) →
      NameAt db.objects { addr := addr, name := name })
    (heq : db.setPropInfo progr oid pname info addr = some (.ok db')) :
    Current db' ∧ SameWaifs db db' := by
  have hc' := h.coherent.setPropInfo heq
  unfold Db.setPropInfo at heq
  obtain ⟨hvalid, heq⟩ := ite_error_eq_ok.mp heq
  cases hinfo : validatePropInfo db.objects info with
  | error e =>
    rw [hinfo] at heq
    cases heq
  | ok r =>
    obtain ⟨owner, flags, newName⟩ := r
    simp only [hinfo] at heq
    split at heq
    · cases heq
    · cases heq
    · obtain ⟨o, ho, heq⟩ := Option.bind_eq_some_iff.mp heq
      obtain ⟨prop, -, heq⟩ := Option.bind_eq_some_iff.mp heq
      obtain ⟨-, heq⟩ := ite_error_eq_ok.mp heq
      cases newName with
      | none =>
        have hk := h.coherent.kept_setInfo heq
        exact ⟨h.keptCoherent hk hc', hk.sameWaifs⟩
      | some name =>
        have hnew := hname owner flags name hinfo
        obtain ⟨⟨done, db₁⟩, hrename, heq⟩ := Option.bind_eq_some_iff.mp heq
        obtain ⟨-, heq⟩ := ite_error_eq_ok.mp heq
        obtain ⟨_, _, hrename', hr⟩ := dbRenamePropdef_spec h.coherent h.cacheOk h.apart h.named ho
          pname { addr := addr, name := name }
        rw [hrename] at hrename'
        cases hrename'
        have h₁ := h.renamed hnew hr (h.coherent.renamePropdef hrename)
        split at heq
        · have hk := h₁.coherent.kept_setInfo heq
          exact ⟨h₁.keptCoherent hk hc',
            (SameWaifs.mk hr.waifs hr.lengths).trans hk.sameWaifs⟩
        · cases heq

/-! ## Waifs -/

lemma Current.setWaifs (h : Current db) (waifs : List Waif) :
    Current { db with waifs := waifs } :=
  ⟨h.coherent, h.cacheOk, h.apart, h.named⟩

lemma cacheOf_classPropdefs {cls : Int} {o : Object P} (ho : findObject db.objects cls = some o)
    (k : Int) : cacheOf (db.classPropdefs cls o).2.objects k
      = if k = cls then some (db.classPropdefs cls o).1 else cacheOf db.objects k := by
  unfold classPropdefs
  cases hcache : o.waifPropdefs with
  | some new =>
    split_ifs with hk
    · rw [hk, cacheOf_eq ho, hcache]
    · rfl
  | none =>
    rw [cacheOf, findObject_set ho]
    split_ifs <;> rfl

/-- Nobody else has the list of a class. -/
lemma Current.classPropdefs_ne (h : Current db) {cls : Int} {o : Object P}
    (ho : findObject db.objects cls = some o) {k : Int} (hk : k ≠ cls) :
    cacheOf db.objects k ≠ some (db.classPropdefs cls o).1 := by
  intro hcache
  cases hnew : o.waifPropdefs with
  | some new =>
    rw [classPropdefs, hnew] at hcache
    exact hk (h.apart k cls new hcache (by rw [cacheOf_eq ho, hnew]))
  | none =>
    rw [classPropdefs, hnew] at hcache
    have hlist := h.cacheOk k _ hcache
    rw [List.getElem?_eq_none le_rfl] at hlist
    cases hlist

lemma Coherent.of_bareObjects (hc : Coherent objects)
    (h : bareObjects objects' = bareObjects objects) : Coherent objects' := by
  have hmap : ∀ {α : Type} (f : Object P → α), (∀ o, f o.bare = f o) → ∀ k,
      (findObject objects' k).map f = (findObject objects k).map f := by
    intro α f hf k
    have heq : (findObject objects' k).map Object.bare = (findObject objects k).map Object.bare := by
      rw [← findObject_bareObjects, h, findObject_bareObjects]
    simpa [Function.comp_def, hf] using congrArg (Option.map f) heq
  exact hc.congr (hmap _ fun _ => rfl) (hmap _ fun _ => rfl) (hmap _ fun _ => rfl)

lemma defs_congr (h : bareObjects objects' = bareObjects objects) (k : Int) :
    defs objects' k = defs objects k := by
  have heq : (findObject objects' k).map Object.bare = (findObject objects k).map Object.bare := by
    rw [← findObject_bareObjects, h, findObject_bareObjects]
  have hmap := congrArg (Option.map Object.propdefs) heq
  rw [Option.map_map, Option.map_map] at hmap
  exact congrArg (Option.getD · []) hmap

lemma Current.classPropdefs (h : Current db) {cls : Int} {o : Object P}
    (ho : findObject db.objects cls = some o) : Current (db.classPropdefs cls o).2 := by
  have hlist := classPropdefs_spec h.cacheOk ho
  have hbare := hlist.grown.objects
  refine ⟨h.coherent.of_bareObjects hbare, hlist.cacheOk, fun j k n hj hk => ?_,
    fun j k p hp q hq haddr => ?_⟩
  · rw [cacheOf_classPropdefs ho] at hj hk
    split_ifs at hj hk with hjc hkc hkc
    · rw [hjc, hkc]
    · exact absurd (hk.trans hj.symm) (h.classPropdefs_ne ho hkc)
    · exact absurd (hj.trans hk.symm) (h.classPropdefs_ne ho hjc)
    · exact h.apart j k n hj hk
  · rw [defs_congr hbare] at hp hq
    exact h.named j k p hp q hq haddr

lemma Current.updateWaifPropdefs (h : Current db) {r : Nat}
    (heq : db.updateWaifPropdefs r = some db') : Current db' := by
  obtain ⟨w, -, heq⟩ := Option.bind_eq_some_iff.mp heq
  split at heq
  · cases heq
    exact h.setWaifs _
  · rename_i o ho
    split_ifs at heq
    · cases heq
      exact h
    · obtain ⟨defs, -, heq⟩ := Option.bind_eq_some_iff.mp heq
      obtain ⟨⟨map, vals⟩, -, heq⟩ := Option.bind_eq_some_iff.mp heq
      cases heq
      exact (h.classPropdefs ho).setWaifs _

lemma Current.newWaif (h : Current db) {cls owner : Int} {r : Nat}
    (heq : db.newWaif cls owner = some (r, db')) : Current db' := by
  obtain ⟨o, ho, heq⟩ := Option.bind_eq_some_iff.mp heq
  obtain ⟨defs, -, heq⟩ := Option.bind_eq_some_iff.mp heq
  cases heq
  exact (h.classPropdefs ho).setWaifs _

/-- What `waif_put_prop` does after the update: nothing, or the waif gets other values, as many as
it has slots. -/
lemma exists_of_waifPutProp {r : Nat} {name : String} {val : Var} {progr : Int}
    {e : Option ErrorCode} (heq : db.waifPutProp r name val progr = some (e, db')) :
    ∃ db₁, db.updateWaifPropdefs r = some db₁ ∧ (db' = db₁ ∨ ∃ w pd defs map vals,
      db₁.waifs[r]? = some w ∧ w.propdefs = some pd ∧ db₁.waifPropdefs[pd]? = some defs ∧
      (map = w.pmap ∧ vals.length = (w.propvals.getD []).length ∨
        countWaifPropvals defs.length map = vals.length) ∧
      db' = { db₁ with waifs := db₁.waifs.set r { w with pmap := map, propvals := some vals } }) := by
  obtain ⟨db₁, hupdate, heq⟩ := Option.bind_eq_some_iff.mp heq
  refine ⟨db₁, hupdate, ?_⟩
  obtain ⟨w, hw, heq⟩ := Option.bind_eq_some_iff.mp heq
  have hsame : ∀ {x : Option ErrorCode}, some (x, db₁) = some (e, db') → db' = db₁ := by
    rintro x heq
    cases heq
    rfl
  have hstore : ∀ {w : Waif} {idx : Nat},
      ((db₁.storePropval r w idx val).map fun db => ((none : Option ErrorCode), db))
        = some (e, db') → ∃ vals, w.propvals = some vals ∧ db' = { db₁ with
          waifs := db₁.waifs.set r { w with propvals := some (vals.set idx val) } } := by
    intro w idx heq
    obtain ⟨db₂, hstore, heq⟩ := Option.map_eq_some_iff.mp heq
    cases heq
    obtain ⟨vals, hvals, hstore⟩ := Option.bind_eq_some_iff.mp hstore
    split_ifs at hstore
    cases hstore
    exact ⟨vals, hvals, rfl⟩
  split_ifs at heq
  · exact .inl (hsame heq)
  · exact .inl (hsame heq)
  · exact .inl (hsame heq)
  · obtain ⟨pd, hpd, heq⟩ := Option.bind_eq_some_iff.mp heq
    obtain ⟨defs, hdefs, heq⟩ := Option.bind_eq_some_iff.mp heq
    split at heq
    · exact .inl (hsame heq)
    · obtain ⟨prop, -, heq⟩ := Option.bind_eq_some_iff.mp heq
      split_ifs at heq
      · exact .inl (hsame heq)
      · obtain ⟨refers, -, heq⟩ := Option.bind_eq_some_iff.mp heq
        split_ifs at heq
        · exact .inl (hsame heq)
        · refine .inr ⟨w, pd, defs, ?_⟩
          split at heq
          · -- the property has a slot
            obtain ⟨vals, hvals, rfl⟩ := hstore heq
            exact ⟨w.pmap, _, hw, hpd, hdefs, .inl ⟨rfl, by simp [hvals]⟩, rfl⟩
          · -- it gets one
            obtain ⟨⟨idx, w'⟩, halloc, heq⟩ := Option.bind_eq_some_iff.mp heq
            obtain ⟨vals, hw', hlen, -⟩ := allocPropvalOffset_spec halloc
            obtain ⟨vals', hvals, rfl⟩ := hstore heq
            rw [hw'] at hvals
            cases hvals
            exact ⟨w'.pmap, vals.set idx val, hw, hpd, hdefs,
              .inr (by rw [hlen, List.length_set]), by rw [hw']⟩

lemma Current.waifPutProp (h : Current db) {r : Nat} {name : String} {val : Var} {progr : Int}
    {e : Option ErrorCode} (heq : db.waifPutProp r name val progr = some (e, db')) :
    Current db' := by
  obtain ⟨db₁, hupdate, hdb'⟩ := exists_of_waifPutProp heq
  have h₁ := h.updateWaifPropdefs hupdate
  rcases hdb' with rfl | ⟨w, pd, defs, map, vals, -, -, -, -, rfl⟩
  · exact h₁
  · exact h₁.setWaifs _

/-! ## Events -/

/-- What happens to a database at a time, where lists of waifs count. A name that a program gives
to a property is at an address where there is that name. Reading a property of a waif, or
counting its bytes, is no more than an update. -/
inductive Event : Db P → Db P → Prop
  | create {db db' : Db P} {progr parent owner : Int} {r : Except ErrorCode Int}
      (h : db.bfCreate progr parent owner = some (r, db')) : Event db db'
  | chparent {db db' : Db P} {progr what parent : Int}
      (h : db.bfChparent progr what parent = some (.ok db')) : Event db db'
  | move {db db' : Db P} {progr : Int} {accepts : Bool} {what whereTo : Int}
      (h : db.doMove progr accepts what whereTo = some (.ok db')) : Event db db'
  | recycling {db db' : Db P} {callVerb : Objects P → Int → String → Bool} {oid : Int}
      (h : movingContents callVerb db oid = some (.calls db')) : Event db db'
  | recycle {db db₁ db' : Db P} {callVerb : Objects P → Int → String → Bool} {oid : Int}
      (h : movingContents callVerb db oid = some (.destroys db₁))
      (hdestroy : db₁.dbDestroyObject oid = some db') : Event db db'
  | renumber {db db' : Db P} {progr oid new : Int}
      (h : db.bfRenumber progr oid = some (.ok (new, db'))) : Event db db'
  | resetMaxObject {db db' : Db P} {progr : Int}
      (h : db.bfResetMaxObject progr = some (.ok db')) : Event db db'
  | addProp {db db' : Db P} {progr oid : Int} {pname : Propdef} {value info : Var}
      (hvalue : value.isClear = false) (hname : NameAt db.objects pname)
      (h : db.bfAddProp progr oid pname value info = some (.ok db')) : Event db db'
  | deleteProp {db db' : Db P} {progr oid : Int} {pname : String}
      (h : db.bfDeleteProp progr oid pname = some (.ok db')) : Event db db'
  | clearProp {db db' : Db P} {progr oid : Int} {pname : String}
      (h : db.bfClearProp progr oid pname = some (.ok db')) : Event db db'
  | setPropInfo {db db' : Db P} {progr oid : Int} {pname : String} {info : Var} {addr : Nat}
      (hname : ∀ owner flags name,
        validatePropInfo db.objects info = .ok (owner, flags, some name) →
        NameAt db.objects { addr := addr, name := name })
      (h : db.setPropInfo progr oid pname info addr = some (.ok db')) : Event db db'
  | putProp {db db' : Db P} {progr oid : Int} {pname : String} {rhs : Var}
      (hvalue : rhs.isClear = false)
      (h : db.putProp progr oid pname rhs = some (.ok db')) : Event db db'
  | newWaif {db db' : Db P} {cls owner : Int} {r : Nat}
      (h : db.newWaif cls owner = some (r, db')) : Event db db'
  | readWaif {db db' : Db P} {r : Nat} (h : db.updateWaifPropdefs r = some db') : Event db db'
  | writeWaif {db db' : Db P} {r : Nat} {name : String} {val : Var} {progr : Int}
      {e : Option ErrorCode} (h : db.waifPutProp r name val progr = some (e, db')) : Event db db'
  | other {db db' : Db P} (h : ∀ k, (findObject db'.objects k).map Object.outline
        = (findObject db.objects k).map Object.outline)
      (hwaifs : db'.waifs = db.waifs) (hlists : db'.waifPropdefs = db.waifPropdefs) : Event db db'

lemma Event.current (h : Event db db') (hs : Current db) : Current db' := by
  have hc := hs.coherent
  cases h with
  | create h => exact hs.keptCoherent (hc.kept_bfCreate h) (Step.create h |>.coherent hc)
  | chparent h => exact hs.keptCoherent (hc.kept_bfChparent h) (hc.bfChparent h)
  | move h => exact hs.keptCoherent (hc.kept_doMove h) (hc.doMove h)
  | recycling h =>
    exact hs.keptCoherent (hc.kept_movingContents h) (Step.recycling h |>.coherent hc)
  | recycle h hdestroy =>
    obtain ⟨hk, hc₁⟩ := hc.kept_movingContents h
    exact hs.keptCoherent (hk.trans (hc₁.kept_destroy hdestroy)) (hc₁.destroy hdestroy)
  | renumber h => exact hs.keptCoherent (hc.kept_bfRenumber h) (hc.bfRenumber h)
  | resetMaxObject h => exact hs.keptCoherent (hc.kept_bfResetMaxObject h) (hc.bfResetMaxObject h)
  | addProp hvalue hname h =>
    refine hs.kept (hc.kept_bfAddProp h) (hc.bfAddProp hvalue h) (fun p hp => ?_) ?_
    · rwa [List.mem_singleton.mp hp]
    · intro p hp q hq
      rw [List.mem_singleton.mp hp, List.mem_singleton.mp hq]
  | deleteProp h => exact hs.keptCoherent (hc.kept_bfDeleteProp h) (hc.bfDeleteProp h)
  | clearProp h => exact hs.keptCoherent (hc.kept_bfClearProp h) (hc.bfClearProp h)
  | setPropInfo hname h => exact (hs.setPropInfo hname h).1
  | putProp hvalue h => exact hs.keptCoherent (hc.kept_putProp h) (hc.putProp hvalue h)
  | newWaif h => exact hs.newWaif h
  | readWaif h => exact hs.updateWaifPropdefs h
  | writeWaif h => exact hs.waifPutProp h
  | other h hwaifs hlists =>
    have hmap : ∀ {α : Type} (f : Object P → α), (∀ o, f o.outline = f o) → ∀ k,
        (findObject db'.objects k).map f = (findObject db.objects k).map f := by
      intro α f hf k
      simpa only [Option.map_map, Function.comp_def, hf] using congrArg (Option.map f) (h k)
    exact hs.keptCoherent
      ⟨.of_lineage hc.parents.up (hmap Object.lineage fun _ => rfl), hwaifs, hlists⟩
      (Step.other (hmap Object.core fun _ => rfl) |>.coherent hc)

/-! ## Loading -/

/-- A database before `waif_after_loading`, as the reader leaves one that a server has written:
hierarchies have been validated, and then verbs have got their programs. Neither classes nor
waifs have property lists, and the storage of a waif is as long as the list for its class needs
it. -/
structure Loaded (db : Db P) : Prop where
  hierarchies : ∃ objects objects', validateHierarchies objects = some objects' ∧
    PropsFit objects' ∧ ∀ k, (findObject db.objects k).map Object.core
      = (findObject objects' k).map Object.core
  named : Named db.objects
  uncached : ∀ k, cacheOf db.objects k = none
  listless : ∀ (r : Nat) (w : Waif), db.waifs[r]? = some w → w.propdefs = none
  packed : ∀ (r : Nat) (w : Waif), db.waifs[r]? = some w → isValid db.objects w.cls →
    countWaifPropvals (genWaifPropdefs db.objects w.cls).length w.pmap
      = (w.propvals.getD []).length

lemma Loaded.current (h : Loaded db) : Current db := by
  obtain ⟨objects, objects', hvalid, hfit, hcore⟩ := h.hierarchies
  have hreached : Reached { db with objects := objects' } := .load hvalid hfit
  have hnone : ∀ {k n}, cacheOf db.objects k ≠ some n := fun {k n} hn => by
    rw [h.uncached k] at hn
    cases hn
  exact ⟨(hreached.step (.other hcore)).coherent, fun k n hn => absurd hn hnone,
    fun j k n hj _ => absurd hj hnone, h.named⟩

lemma Current.backfill (h : Current db) (i : Nat) : Current (backfill db i) := by
  unfold LambdaMOO.backfill
  split
  · exact h
  · split
    · exact h
    · rename_i o ho
      exact (h.classPropdefs ho).setWaifs _

lemma Current.waifAfterLoading (h : Current db) : Current (waifAfterLoading db) := by
  unfold LambdaMOO.waifAfterLoading
  generalize List.range db.waifs.length = is
  induction is generalizing db with
  | nil => exact h
  | cons i is ih => exact ih (h.backfill i)

/-- The databases a server that has loaded one goes through. -/
inductive Evolved : Db P → Prop
  | load {db : Db P} (h : Loaded db) : Evolved (waifAfterLoading db)
  | event {db db' : Db P} (hdb : Evolved db) (h : Event db db') : Evolved db'

lemma Evolved.current (h : Evolved db) : Current db := by
  induction h with
  | load h => exact h.current.waifAfterLoading
  | event _ h ih => exact h.current ih

/-- A list that is cached for a class is the one that would be generated for it now, and no
property is renamed that is missing from such a list. -/
theorem Evolved.caches (h : Evolved db) :
    (∀ oid o n, findObject db.objects oid = some o → o.waifPropdefs = some n →
      db.waifPropdefs[n]? = some (genWaifPropdefs db.objects oid)) ∧
    ∀ oid pname new, isValid db.objects oid →
      ∃ r, db.dbRenamePropdef oid pname new = some r := by
  have hs := h.current
  refine ⟨fun oid o n ho hn => hs.cacheOk oid n (by rw [cacheOf_eq ho, hn]), ?_⟩
  intro oid pname new hvalid
  obtain ⟨o, ho⟩ := isValid_iff.mp hvalid
  obtain ⟨b, db', heq, -⟩ :=
    dbRenamePropdef_spec hs.coherent hs.cacheOk hs.apart hs.named ho pname new
  exact ⟨_, heq⟩

/-- A generic object with a property for waifs, and the child `child`. -/
def genericWaif (child : Int) (name : Propdef) (cache : Option Nat) : Object Unit :=
  { name := "", flags := 4, owner := 0, location := nothing, contents := nothing, next := nothing,
    parent := nothing, child := child, sibling := nothing, verbdefs := [], propdefs := [name],
    propval := [⟨.int 5, 0, 0⟩], waifPropdefs := cache }

/-- A waif of class `cls`. -/
def waifOf (cls : Int) (propdefs : Option Nat) : Waif :=
  { cls := cls, owner := 0, propdefs := propdefs, propvals := none, pmap := 0 }

def waifSize : Propdef := { addr := 0, name := ":size" }

def waifVolume : Propdef := { addr := 1, name := ":volume" }

def waifDb (objects : Objects Unit) (waifs : List Waif) (lists : List (List Propdef)) : Db Unit :=
  { objects := objects, allUsers := [], waifs := waifs, waifPropdefs := lists }

lemma findObject_singleton {o o' : Object Unit} {k : Int}
    (h : findObject [some o] k = some o') : k = 0 ∧ o' = o := by
  obtain ⟨hnonneg, hlt⟩ := findObject_bounds h
  rw [List.length_singleton] at hlt
  obtain rfl : k = 0 := by omega
  cases h
  exact ⟨rfl, rfl⟩

lemma mem_defs_singleton {o : Object Unit} {k : Int} {p : Propdef} (h : p ∈ defs [some o] k) :
    p ∈ o.propdefs := by
  obtain ⟨o', ho⟩ := isValid_iff.mp (isValid_of_mem_defs h)
  rwa [defs_eq ho, (findObject_singleton ho).2] at h

lemma loaded_waifDb {waifs : List Waif} (hwaifs : ∀ w ∈ waifs, w = waifOf 0 none) :
    Loaded (waifDb [some (genericWaif nothing waifSize none)] waifs []) := by
  refine ⟨⟨[some (genericWaif nothing waifSize none)], _, rfl, ⟨fun k o ho => ?_, fun k o ho => ?_,
    fun k o ho => ?_⟩, fun k => rfl⟩, fun j k p hp q hq _ => ?_, fun k => ?_, fun r w hw => ?_,
    fun r w hw _ => ?_⟩
  · obtain ⟨rfl, rfl⟩ := findObject_singleton ho
    rfl
  · obtain ⟨rfl, rfl⟩ := findObject_singleton ho
    exact List.pairwise_singleton _ _
  · obtain ⟨rfl, rfl⟩ := findObject_singleton ho
    intro pv hpv
    rw [List.mem_singleton.mp hpv]
    rfl
  · rw [List.mem_singleton.mp (mem_defs_singleton hp), List.mem_singleton.mp (mem_defs_singleton hq)]
  · cases ho : findObject [some (genericWaif nothing waifSize none)] k with
    | none => exact congrArg (Option.bind · Object.waifPropdefs) ho
    | some o => rw [waifDb, cacheOf_eq ho, (findObject_singleton ho).2, genericWaif]
  · rw [hwaifs w (List.mem_of_getElem? hw)]
    rfl
  · have hcount : countWaifPropvals 1 0 = 0 := by decide +kernel
    rw [hwaifs w (List.mem_of_getElem? hw)]
    exact hcount

/-- The property of the class is renamed while there is a waif. -/
lemma evolved_waifVolume : Evolved (waifDb [some { genericWaif nothing waifVolume (some 0) with
    propval := [⟨.int 5, 0, 1⟩] }] [waifOf 0 (some 0)] [[waifVolume]]) := by
  have hload := Evolved.load (loaded_waifDb fun w (hw : w ∈ [waifOf 0 none]) =>
    List.mem_singleton.mp hw)
  rw [show waifAfterLoading (waifDb [some (genericWaif nothing waifSize none)] [waifOf 0 none] [])
    = waifDb [some (genericWaif nothing waifSize (some 0))] [waifOf 0 (some 0)] [[waifSize]]
    from rfl] at hload
  have hrename : (waifDb [some (genericWaif nothing waifSize (some 0))] [waifOf 0 (some 0)]
      [[waifSize]]).setPropInfo 0 0 ":size" (.list [.obj 0, .str "r", .str ":volume"]) 1
      = some (.ok (waifDb [some { genericWaif nothing waifVolume (some 0) with
          propval := [⟨.int 5, 0, 1⟩] }] [waifOf 0 (some 0)] [[waifVolume]])) := rfl
  refine hload.event (.setPropInfo (fun owner flags name hname k q hq haddr => ?_) hrename)
  rw [List.mem_singleton.mp (mem_defs_singleton hq)] at haddr
  cases haddr

theorem Evolved.caches_waifVolume :
    [[waifVolume]][0]? = some (genWaifPropdefs [some { genericWaif nothing waifVolume (some 0) with
      propval := [⟨.int 5, 0, 1⟩] }] 0) :=
  evolved_waifVolume.caches.1 0 _ 0 rfl rfl

end Db

end LambdaMOO
