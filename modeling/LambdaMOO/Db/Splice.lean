import LambdaMOO.Db.HierarchyCheck
import LambdaMOO.Db.Objects
import LambdaMOO.Lib.Chain

/-!
# Splicing lists of objects

`LL_REMOVE` and `LL_APPEND` keep the lists of a hierarchy apart, and `relink` takes one
consistent hierarchy to another.
-/

namespace LambdaMOO

namespace Db

open PointerChain Function

variable {P : Type} {objects objects' : Objects P} {h : Hierarchy P} {links : Links P}

attribute [simp] Hierarchy.up_setUp Hierarchy.up_setDown Hierarchy.up_setAcross
  Hierarchy.down_setUp Hierarchy.down_setDown Hierarchy.down_setAcross Hierarchy.across_setUp
  Hierarchy.across_setDown Hierarchy.across_setAcross Hierarchy.rest_setUp Hierarchy.rest_setDown
  Hierarchy.rest_setAcross

lemma findObject_put {oid : Int} {o : Object P} (ho : findObject objects oid = some o)
    (o' : Object P) (k : Int) :
    findObject (put objects oid o') k = if k = oid then some o' else findObject objects k :=
  findObject_set ho k

@[simp] lemma length_put (oid : Int) (o : Object P) :
    (put objects oid o).length = objects.length := by
  simp [put]

lemma isValid_iff {oid : Int} : isValid objects oid ↔ ∃ o, findObject objects oid = some o :=
  Option.isSome_iff_exists

lemma isValid_of_findObject {oid : Int} {o : Object P} (ho : findObject objects oid = some o) :
    isValid objects oid :=
  isValid_iff.mpr ⟨o, ho⟩

@[simp] lemma not_isValid_nothing : ¬ isValid objects nothing := by
  simp [isValid, findObject, nothing]

lemma ne_nothing_of_isValid {oid : Int} (hv : isValid objects oid) : oid ≠ nothing := by
  rintro rfl
  exact not_isValid_nothing hv

/-! ## Pointers -/

/-- Where the pointers of a hierarchy are: to the first object of a list, or to the next one. -/
inductive Slot where
  | down (oid : Int)
  | across (oid : Int)
  deriving DecidableEq

def pointer (link : Int) : Option Int := if link = nothing then none else some link

lemma pointer_nothing : pointer nothing = none := if_pos rfl

lemma pointer_of_ne {link : Int} (hne : link ≠ nothing) : pointer link = some link := if_neg hne

lemma pointer_eq_some {link k : Int} (hp : pointer link = some k) : link = k ∧ k ≠ nothing := by
  unfold pointer at hp
  split_ifs at hp with hne
  cases hp
  exact ⟨rfl, hne⟩

/-- The pointers of a hierarchy as a store. -/
def slot (objects : Objects P) (links : Links P) : Slot → Option Int
  | .down oid => (findObject objects oid).bind fun o => pointer (links.down o)
  | .across oid => (findObject objects oid).bind fun o => pointer (links.across o)

lemma slot_down {oid : Int} {o : Object P} (ho : findObject objects oid = some o) :
    slot objects links (.down oid) = pointer (links.down o) := by
  simp [slot, ho]

lemma slot_across {oid : Int} {o : Object P} (ho : findObject objects oid = some o) :
    slot objects links (.across oid) = pointer (links.across o) := by
  simp [slot, ho]

/-- A list of objects is a chain of pointers through valid objects. -/
lemma along_iff_chain {s : Slot} {start : Int} (hs : slot objects links s = pointer start)
    {ks : List Int} :
    Along objects links.across start ks ↔
      Chain Slot.across (slot objects links) s ks ∧ ∀ k ∈ ks, isValid objects k := by
  induction ks generalizing s start with
  | nil =>
    rw [chain_nil, hs]
    constructor
    · rintro hend
      exact ⟨(congrArg pointer hend).trans pointer_nothing, by simp⟩
    · rintro ⟨hend, -⟩
      by_contra hne
      rw [pointer_of_ne hne] at hend
      cases hend
  | cons k ks ih =>
    rw [chain_cons, hs]
    constructor
    · rintro ⟨rfl, hne, o, ho, hrest⟩
      obtain ⟨hchain, hvalid⟩ := (ih (slot_across ho)).mp hrest
      refine ⟨⟨pointer_of_ne hne, hchain⟩, ?_⟩
      intro k' hk'
      rcases List.mem_cons.mp hk' with rfl | hk'
      · exact isValid_of_findObject ho
      · exact hvalid k' hk'
    · rintro ⟨⟨hp, hchain⟩, hvalid⟩
      obtain ⟨rfl, hne⟩ := pointer_eq_some hp
      obtain ⟨o, ho⟩ := isValid_iff.mp (hvalid start List.mem_cons_self)
      refine ⟨rfl, hne, o, ho, (ih (slot_across ho)).mpr ⟨hchain, ?_⟩⟩
      exact fun k' hk' => hvalid k' (List.mem_cons_of_mem _ hk')

lemma slot_put_setAcross {oid : Int} {o : Object P} (ho : findObject objects oid = some o)
    (x : Int) : slot (put objects oid (h.setAcross x o)) h.toLinks
      = update (slot objects h.toLinks) (.across oid) (pointer x) := by
  funext s
  cases s with
  | down p =>
    rw [update_of_ne (by simp)]
    by_cases hp : p = oid
    · subst hp
      simp [slot, findObject_put ho, ho]
    · simp [slot, findObject_put ho, hp]
  | across p =>
    by_cases hp : p = oid
    · subst hp
      simp [slot, findObject_put ho]
    · rw [update_of_ne (by simpa using hp)]
      simp [slot, findObject_put ho, hp]

lemma slot_put_setDown {oid : Int} {o : Object P} (ho : findObject objects oid = some o)
    (x : Int) : slot (put objects oid (h.setDown x o)) h.toLinks
      = update (slot objects h.toLinks) (.down oid) (pointer x) := by
  funext s
  cases s with
  | down p =>
    by_cases hp : p = oid
    · subst hp
      simp [slot, findObject_put ho]
    · rw [update_of_ne (by simpa using hp)]
      simp [slot, findObject_put ho, hp]
  | across p =>
    rw [update_of_ne (by simp)]
    by_cases hp : p = oid
    · subst hp
      simp [slot, findObject_put ho, ho]
    · simp [slot, findObject_put ho, hp]

lemma slot_put_setUp {oid : Int} {o : Object P} (ho : findObject objects oid = some o)
    (x : Int) : slot (put objects oid (h.setUp x o)) h.toLinks = slot objects h.toLinks := by
  funext s
  cases s with
  | down p =>
    by_cases hp : p = oid
    · subst hp
      simp [slot, findObject_put ho, ho]
    · simp [slot, findObject_put ho, hp]
  | across p =>
    by_cases hp : p = oid
    · subst hp
      simp [slot, findObject_put ho, ho]
    · simp [slot, findObject_put ho, hp]

/-- Only pointers of lists have changed. -/
structure Spliced (h : Hierarchy P) (objects objects' : Objects P) : Prop where
  length : objects'.length = objects.length
  rest : ∀ k, (findObject objects' k).map h.rest = (findObject objects k).map h.rest
  up : ∀ k, (findObject objects' k).map h.up = (findObject objects k).map h.up

lemma Spliced.refl : Spliced h objects objects := ⟨rfl, fun _ => rfl, fun _ => rfl⟩

lemma Spliced.trans {objects'' : Objects P} (h₁ : Spliced h objects objects')
    (h₂ : Spliced h objects' objects'') : Spliced h objects objects'' where
  length := h₂.length.trans h₁.length
  rest := fun k => (h₂.rest k).trans (h₁.rest k)
  up := fun k => (h₂.up k).trans (h₁.up k)

lemma spliced_put {oid : Int} {o o' : Object P} (ho : findObject objects oid = some o)
    (hrest : h.rest o' = h.rest o) (hup : h.up o' = h.up o) :
    Spliced h objects (put objects oid o') where
  length := length_put oid o'
  rest := by
    intro k
    rw [findObject_put ho]
    split_ifs with hk
    · simp [hk, ho, hrest]
    · rfl
  up := by
    intro k
    rw [findObject_put ho]
    split_ifs with hk
    · simp [hk, ho, hup]
    · rfl

lemma isValid_of_map_eq {α : Type} {f : Object P → α} {k : Int}
    (heq : (findObject objects' k).map f = (findObject objects k).map f) :
    isValid objects' k = isValid objects k := by
  have hsome := congrArg Option.isSome heq
  simpa [isValid] using hsome

lemma Spliced.isValid (hs : Spliced h objects objects') (k : Int) :
    isValid objects' k = isValid objects k :=
  isValid_of_map_eq (hs.up k)

/-! ## The two macros -/

lemma unlink_spec {what next lid : Int} {xs ys : List Int}
    (hl : Along objects h.across lid (xs ++ what :: ys)) (hne : xs ≠ []) (hnot : what ∉ xs)
    {n : Nat} (hn : xs.length ≤ n) :
    ∃ l o, xs.getLast? = some l ∧ findObject objects l = some o ∧
      unlink h objects what next n lid = some (put objects l (h.setAcross next o)) := by
  induction xs generalizing lid n with
  | nil => exact absurd rfl hne
  | cons x xs ih =>
    obtain ⟨n, rfl⟩ : ∃ m, n = m + 1 := ⟨n - 1, by simp at hn; omega⟩
    obtain ⟨rfl, hlid, o, ho, hrest⟩ := hl
    rw [unlink, if_neg hlid, ho, Option.bind_eq_bind, Option.bind_some]
    cases xs with
    | nil =>
      rw [if_pos hrest.1]
      exact ⟨lid, o, rfl, ho, rfl⟩
    | cons y xs =>
      have hy : h.across o ≠ what := by
        rw [hrest.1]
        rintro rfl
        exact hnot (by simp)
      rw [if_neg hy]
      obtain ⟨l, o', hl, ho', heq⟩ := ih hrest (by simp) (fun hm => hnot (by simp [hm]))
        (by simpa using hn)
      exact ⟨l, o', by simpa using hl, ho', heq⟩

lemma lastOnList_spec {lid : Int} {ks : List Int} (hl : Along objects h.across lid ks)
    (hne : ks ≠ []) {n : Nat} (hn : ks.length ≤ n) :
    ∃ l o, ks.getLast? = some l ∧ findObject objects l = some o ∧
      lastOnList h objects n lid = some l := by
  induction ks generalizing lid n with
  | nil => exact absurd rfl hne
  | cons x ks ih =>
    obtain ⟨n, rfl⟩ : ∃ m, n = m + 1 := ⟨n - 1, by simp at hn; omega⟩
    obtain ⟨rfl, hlid, o, ho, hrest⟩ := hl
    rw [lastOnList, ho, Option.bind_eq_bind, Option.bind_some]
    cases ks with
    | nil =>
      rw [if_pos (show h.across o = nothing from hrest)]
      exact ⟨lid, o, rfl, ho, rfl⟩
    | cons y ks =>
      have hy : h.across o ≠ nothing := by
        rw [hrest.1]
        exact hrest.2.1
      rw [if_neg hy]
      obtain ⟨l, o', hl, ho', heq⟩ := ih hrest (by simp) (by simpa using hn)
      exact ⟨l, o', by simpa using hl, ho', heq⟩

/-- `LL_REMOVE` on a list that has the object. -/
lemma llRemove_spec {list what : Int} {w : Object P} {xs ys : List Int}
    (hw : findObject objects list = some w)
    (hl : Along objects h.across (h.down w) (xs ++ what :: ys)) :
    ∃ objects', llRemove h objects list what = some objects' ∧ Spliced h objects objects' ∧
      slot objects' h.toLinks = update (update (slot objects h.toLinks)
        (lastSlot Slot.across (.down list) xs) (slot objects h.toLinks (.across what)))
        (.across what) none := by
  obtain ⟨_, o, -, ho, -⟩ := hl.exists_of_mem (k := what) (by simp)
  have hnot : what ∉ xs := by
    have hnodup := hl.nodup
    rw [List.nodup_append] at hnodup
    exact fun hmem => hnodup.2.2 what hmem what (by simp) rfl
  -- the first of the two assignments
  obtain ⟨objects₁, heq₁, hs₁, hslot₁⟩ : ∃ objects₁,
      unlinkFirst h objects list what w o = some objects₁ ∧ Spliced h objects objects₁ ∧
      slot objects₁ h.toLinks = update (slot objects h.toLinks)
        (lastSlot Slot.across (.down list) xs) (pointer (h.across o)) := by
    unfold unlinkFirst
    cases xs with
    | nil =>
      rw [if_pos hl.1]
      exact ⟨_, rfl, spliced_put hw (by simp) (by simp), slot_put_setDown hw _⟩
    | cons x xs =>
      have hx : h.down w ≠ what := by
        rw [hl.1]
        rintro rfl
        exact hnot (by simp)
      have hlen := hl.length_le
      rw [List.length_append] at hlen
      obtain ⟨l, ol, hlast, hol, heq⟩ := unlink_spec (n := objects.length + 1) hl (by simp) hnot
        (by omega)
      rw [if_neg hx, heq, lastSlot_eq, hlast]
      exact ⟨_, rfl, spliced_put hol (by simp) (by simp), slot_put_setAcross hol _⟩
  have hwhat : isValid objects₁ what := by
    rw [hs₁.isValid]
    exact isValid_of_findObject ho
  obtain ⟨o₁, ho₁⟩ := isValid_iff.mp hwhat
  refine ⟨_, ?_, hs₁.trans (spliced_put ho₁ (h.rest_setAcross nothing o₁) (by simp)), ?_⟩
  · simp only [llRemove, hw, ho, Option.bind_eq_bind, Option.bind_some, heq₁, ho₁]
    rfl
  · rw [slot_put_setAcross ho₁, hslot₁, slot_across ho, pointer_nothing]

/-- `LL_APPEND`. -/
lemma llAppend_spec {list what : Int} {w o : Object P} {ks : List Int}
    (hw : findObject objects list = some w) (hl : Along objects h.across (h.down w) ks)
    (ho : findObject objects what = some o) :
    ∃ objects', llAppend h objects list what = some objects' ∧ Spliced h objects objects' ∧
      slot objects' h.toLinks = update (update (slot objects h.toLinks)
        (lastSlot Slot.across (.down list) ks) (some what)) (.across what) none := by
  have hptr : pointer what = some what :=
    pointer_of_ne (ne_nothing_of_isValid (isValid_of_findObject ho))
  obtain ⟨objects₁, heq₁, hs₁, hslot₁⟩ : ∃ objects₁,
      linkLast h objects list what w = some objects₁ ∧ Spliced h objects objects₁ ∧
      slot objects₁ h.toLinks = update (slot objects h.toLinks)
        (lastSlot Slot.across (.down list) ks) (some what) := by
    unfold linkLast
    cases ks with
    | nil =>
      rw [if_pos (show h.down w = nothing from hl), ← hptr]
      exact ⟨_, rfl, spliced_put hw (by simp) (by simp), slot_put_setDown hw _⟩
    | cons k ks =>
      have hk : h.down w ≠ nothing := by
        rw [hl.1]
        exact hl.2.1
      obtain ⟨l, ol, hlast, hol, heq⟩ := lastOnList_spec (n := objects.length + 1) hl (by simp)
        (hl.length_le.trans (Nat.le_succ _))
      simp only [if_neg hk, heq, Option.bind_eq_bind, Option.bind_some, hol, lastSlot_eq, hlast]
      rw [← hptr]
      exact ⟨_, rfl, spliced_put hol (by simp) (by simp), slot_put_setAcross hol _⟩
  have hwhat : isValid objects₁ what := by
    rw [hs₁.isValid]
    exact isValid_of_findObject ho
  obtain ⟨o₁, ho₁⟩ := isValid_iff.mp hwhat
  refine ⟨_, ?_, hs₁.trans (spliced_put ho₁ (h.rest_setAcross nothing o₁) (by simp)), ?_⟩
  · simp only [llAppend, hw, Option.bind_eq_bind, Option.bind_some, heq₁, ho₁]
    rfl
  · rw [slot_put_setAcross ho₁, hslot₁, pointer_nothing]

/-! ## Lists kept apart -/

/-- `kids` are the lists of a hierarchy. No object is on two of them. -/
structure Listed (objects : Objects P) (links : Links P) (kids : Int → List Int) : Prop where
  chain : ∀ p, isValid objects p →
    Chain Slot.across (slot objects links) (.down p) (kids p)
  valid : ∀ p k, isValid objects p → k ∈ kids p → isValid objects k
  nodup : ∀ p, isValid objects p → (kids p).Nodup
  apart : ∀ p q k, isValid objects p → isValid objects q → k ∈ kids p → k ∈ kids q → p = q

lemma nodup_listSlots {p : Int} {ks : List Int} (hn : ks.Nodup) :
    (slots Slot.across (.down p) ks).Nodup :=
  nodup_slots (fun _ _ heq => Slot.across.inj heq) (by simp) hn

namespace Listed

variable {kids : Int → List Int} {list what : Int}

lemma along (hl : Listed objects links kids) {p : Int} {w : Object P}
    (hw : findObject objects p = some w) : Along objects links.across (links.down w) (kids p) :=
  (along_iff_chain (slot_down hw)).mpr
    ⟨hl.chain p (isValid_of_findObject hw), fun k hk => hl.valid p k (isValid_of_findObject hw) hk⟩

/-- A slot of one list is none of another. -/
lemma ne_of_mem_slots (hl : Listed objects links kids) {p q : Int} (hp : isValid objects p)
    (hq : isValid objects q) (hne : p ≠ q) {s t : Slot}
    (hs : s ∈ slots Slot.across (.down p) (kids p))
    (ht : t ∈ slots Slot.across (.down q) (kids q)) : s ≠ t := by
  rintro rfl
  rw [slots, List.mem_cons, List.mem_map] at hs ht
  rcases hs with rfl | ⟨k, hk, rfl⟩
  · rcases ht with heq | ⟨k', -, heq⟩
    · exact hne (Slot.down.inj heq)
    · cases heq
  · rcases ht with heq | ⟨k', hk', heq⟩
    · cases heq
    · rw [Slot.across.inj heq] at hk'
      exact hne (hl.apart p q k hp hq hk hk')

lemma remove (hl : Listed objects h.toLinks kids) (hlist : isValid objects list)
    (hmem : what ∈ kids list) :
    ∃ objects', llRemove h objects list what = some objects' ∧ Spliced h objects objects' ∧
      Listed objects' h.toLinks (update kids list ((kids list).erase what)) := by
  obtain ⟨w, hw⟩ := isValid_iff.mp hlist
  obtain ⟨xs, ys, hsplit⟩ := List.append_of_mem hmem
  have hnodup := hl.nodup list hlist
  rw [hsplit] at hnodup
  have hxs : what ∉ xs := by
    intro hx
    exact (List.nodup_append.mp hnodup).2.2 what hx what List.mem_cons_self rfl
  have hys : what ∉ ys :=
    (List.nodup_cons.mp (List.nodup_append.mp hnodup).2.1).1
  have herase : (kids list).erase what = xs ++ ys := by
    rw [hsplit, List.erase_append_right _ hxs, List.erase_cons_head]
  have halong := hl.along hw
  rw [hsplit] at halong
  obtain ⟨objects', heq, hs, hslot⟩ := llRemove_spec hw halong
  refine ⟨objects', heq, hs, ?_⟩
  have hsub : ∀ p k, k ∈ update kids list ((kids list).erase what) p → k ∈ kids p := by
    intro p k hk
    by_cases hp : p = list
    · subst hp
      rw [update_self] at hk
      exact List.mem_of_mem_erase hk
    · rwa [update_of_ne hp] at hk
  constructor
  case chain =>
    intro p hp
    rw [hs.isValid] at hp
    rw [hslot]
    by_cases hpl : p = list
    · subst hpl
      rw [update_self, herase]
      have hchain := hl.chain p hp
      rw [hsplit] at hchain
      refine Chain.congr (fun t ht => ?_)
        (Chain.unlink (nodup_listSlots hnodup) hchain)
      refine update_of_ne ?_ _ _
      rintro rfl
      simp [slots, hxs, hys] at ht
    · rw [update_of_ne hpl]
      refine Chain.congr (fun t ht => ?_) (hl.chain p hp)
      have hne := fun s hs => hl.ne_of_mem_slots hp hlist hpl ht (t := s) hs
      rw [update_of_ne, update_of_ne]
      · apply hne
        rw [hsplit, slots_append]
        exact List.mem_append_left _ lastSlot_mem_slots
      · apply hne
        simp [slots, hmem]
  case valid =>
    intro p k hp hk
    rw [hs.isValid] at hp ⊢
    exact hl.valid p k hp (hsub p k hk)
  case nodup =>
    intro p hp
    rw [hs.isValid] at hp
    by_cases hpl : p = list
    · subst hpl
      rw [update_self]
      exact (hl.nodup p hp).erase what
    · rw [update_of_ne hpl]
      exact hl.nodup p hp
  case apart =>
    intro p q k hp hq hkp hkq
    rw [hs.isValid] at hp hq
    exact hl.apart p q k hp hq (hsub p k hkp) (hsub q k hkq)

lemma append (hl : Listed objects h.toLinks kids) (hlist : isValid objects list)
    (hwhat : isValid objects what) (hout : ∀ p, isValid objects p → what ∉ kids p) :
    ∃ objects', llAppend h objects list what = some objects' ∧ Spliced h objects objects' ∧
      Listed objects' h.toLinks (update kids list (kids list ++ [what])) := by
  obtain ⟨w, hw⟩ := isValid_iff.mp hlist
  obtain ⟨o, ho⟩ := isValid_iff.mp hwhat
  obtain ⟨objects', heq, hs, hslot⟩ := llAppend_spec hw (hl.along hw) ho
  refine ⟨objects', heq, hs, ?_⟩
  have hmem : ∀ p k, k ∈ update kids list (kids list ++ [what]) p →
      k ∈ kids p ∨ p = list ∧ k = what := by
    intro p k hk
    by_cases hp : p = list
    · subst hp
      rw [update_self, List.mem_append, List.mem_singleton] at hk
      exact hk.imp_right fun hk => ⟨rfl, hk⟩
    · rw [update_of_ne hp] at hk
      exact .inl hk
  have hnew : ∀ p, isValid objects p → Slot.across what ∉ slots Slot.across (.down p) (kids p) := by
    intro p hp
    simp [slots, hout p hp]
  constructor
  case chain =>
    intro p hp
    rw [hs.isValid] at hp
    rw [hslot]
    by_cases hpl : p = list
    · subst hpl
      rw [update_self]
      exact Chain.concat (nodup_listSlots (hl.nodup p hp)) (hnew p hp) (hl.chain p hp)
    · rw [update_of_ne hpl]
      refine Chain.congr (fun t ht => ?_) (hl.chain p hp)
      rw [update_of_ne, update_of_ne]
      · exact hl.ne_of_mem_slots hp hlist hpl ht lastSlot_mem_slots
      · rintro rfl
        exact hnew p hp ht
  case valid =>
    intro p k hp hk
    rw [hs.isValid] at hp ⊢
    rcases hmem p k hk with hk | ⟨-, rfl⟩
    · exact hl.valid p k hp hk
    · exact hwhat
  case nodup =>
    intro p hp
    rw [hs.isValid] at hp
    by_cases hpl : p = list
    · subst hpl
      rw [update_self, List.nodup_append]
      refine ⟨hl.nodup p hp, List.nodup_singleton what, ?_⟩
      intro k hk k' hk' heq
      rw [List.mem_singleton.mp hk'] at heq
      exact hout p hp (heq ▸ hk)
    · rw [update_of_ne hpl]
      exact hl.nodup p hp
  case apart =>
    intro p q k hp hq hkp hkq
    rw [hs.isValid] at hp hq
    rcases hmem p k hkp with hp' | ⟨hpl, hk⟩
    · rcases hmem q k hkq with hq' | ⟨-, hk⟩
      · exact hl.apart p q k hp hq hp' hq'
      · exact absurd (hk ▸ hp') (hout p hp)
    · rcases hmem q k hkq with hq' | ⟨hql, -⟩
      · exact absurd (hk ▸ hq') (hout q hq)
      · exact hpl.trans hql.symm

lemma congr {kids' : Int → List Int} (hl : Listed objects links kids)
    (heq : ∀ p, isValid objects p → kids' p = kids p) : Listed objects links kids' where
  chain := fun p hp => heq p hp ▸ hl.chain p hp
  valid := fun p k hp hk => hl.valid p k hp (heq p hp ▸ hk)
  nodup := fun p hp => heq p hp ▸ hl.nodup p hp
  apart := fun p q k hp hq hkp hkq => hl.apart p q k hp hq (heq p hp ▸ hkp) (heq q hq ▸ hkq)

end Listed

/-- `kids` are the lists of those that are below an object. -/
def Exact (objects : Objects P) (links : Links P) (kids : Int → List Int) : Prop :=
  ∀ p k o, isValid objects p → findObject objects k = some o → (k ∈ kids p ↔ links.up o = p)

lemma Consistent.exists_listed (hc : Consistent objects links) :
    ∃ kids, Listed objects links kids ∧ Exact objects links kids := by
  have hdown : ∀ p, ∃ ks, ∀ w, findObject objects p = some w →
      Along objects links.across (links.down w) ks ∧ ks.Nodup ∧
        ∀ k o, findObject objects k = some o → (k ∈ ks ↔ links.up o = p) := by
    intro p
    cases hw : findObject objects p with
    | none => exact ⟨[], fun w hw' => by cases hw'⟩
    | some w =>
      obtain ⟨ks, hks⟩ := hc.down p w hw
      refine ⟨ks, fun w' hw' => ?_⟩
      cases hw'
      exact hks
  choose kids hkids using hdown
  have hexact : Exact objects links kids := by
    intro p k o hp ho
    obtain ⟨w, hw⟩ := isValid_iff.mp hp
    exact (hkids p w hw).2.2 k o ho
  have hvalid : ∀ p k, isValid objects p → k ∈ kids p → isValid objects k := by
    intro p k hp hk
    obtain ⟨w, hw⟩ := isValid_iff.mp hp
    obtain ⟨_, o, -, ho, -⟩ := (hkids p w hw).1.exists_of_mem hk
    exact isValid_of_findObject ho
  refine ⟨kids, ⟨fun p hp => ?_, hvalid, fun p hp => ?_, ?_⟩, hexact⟩
  · obtain ⟨w, hw⟩ := isValid_iff.mp hp
    exact ((along_iff_chain (slot_down hw)).mp (hkids p w hw).1).1
  · obtain ⟨w, hw⟩ := isValid_iff.mp hp
    exact (hkids p w hw).2.1
  · intro p q k hp hq hkp hkq
    obtain ⟨o, ho⟩ := isValid_iff.mp (hvalid p k hp hkp)
    exact ((hexact p k o hp ho).mp hkp).symm.trans ((hexact q k o hq ho).mp hkq)

lemma Listed.consistent {kids : Int → List Int} (hl : Listed objects links kids)
    (hup : Ends objects links.up) (hexact : Exact objects links kids) :
    Consistent objects links where
  up := hup
  down := by
    intro p w hw
    have hp := isValid_of_findObject hw
    exact ⟨kids p, hl.along hw, hl.nodup p hp, fun k o ho => hexact p k o hp ho⟩

/-! ## Lines up -/

section

variable {field field' : Object P → Int}

lemma Along.congr {start : Int} {ks : List Int} (ha : Along objects field start ks)
    (heq : ∀ k ∈ ks, (findObject objects' k).map field' = (findObject objects k).map field) :
    Along objects' field' start ks := by
  induction ks generalizing start with
  | nil => exact ha
  | cons k ks ih =>
    obtain ⟨rfl, hne, o, ho, hrest⟩ := ha
    have hk := heq start List.mem_cons_self
    rw [ho, Option.map_some] at hk
    obtain ⟨o', ho', hfield⟩ := Option.map_eq_some_iff.mp hk
    refine ⟨rfl, hne, o', ho', ?_⟩
    rw [hfield]
    exact ih hrest fun k hk => heq k (List.mem_cons_of_mem _ hk)

/-- A line that reaches `oid` and goes on another way from there. -/
lemma Along.divert {start oid : Int} {pre post post' : List Int}
    (ha : Along objects field start (pre ++ oid :: post))
    (heq : ∀ k ∈ pre, (findObject objects' k).map field' = (findObject objects k).map field)
    (hoid : Along objects' field' oid (oid :: post')) :
    Along objects' field' start (pre ++ oid :: post') := by
  induction pre generalizing start with
  | nil =>
    obtain ⟨rfl, -⟩ := ha
    exact hoid
  | cons k pre ih =>
    obtain ⟨rfl, hne, o, ho, hrest⟩ := ha
    have hk := heq start List.mem_cons_self
    rw [ho, Option.map_some] at hk
    obtain ⟨o', ho', hfield⟩ := Option.map_eq_some_iff.mp hk
    refine ⟨rfl, hne, o', ho', ?_⟩
    rw [hfield]
    exact ih hrest fun k hk => heq k (List.mem_cons_of_mem _ hk)

lemma Along.notMem_prefix {start oid : Int} {pre post : List Int}
    (ha : Along objects field start (pre ++ oid :: post)) : oid ∉ pre := by
  have hnodup := ha.nodup
  rw [List.nodup_append] at hnodup
  exact fun hmem => hnodup.2.2 oid hmem oid List.mem_cons_self rfl

lemma Ends.exists_along (he : Ends objects field) {start : Int}
    (hstart : start = nothing ∨ isValid objects start) : ∃ ks, Along objects field start ks := by
  rcases hstart with rfl | hv
  · exact ⟨[], rfl⟩
  · obtain ⟨o, ho⟩ := isValid_iff.mp hv
    obtain ⟨ks, hks⟩ := he start o ho
    exact ⟨start :: ks, rfl, ne_nothing_of_isValid hv, o, ho, hks⟩

end

/-- The object has come below `target`, and only pointers of lists have changed otherwise. -/
structure Relinked (h : Hierarchy P) (objects objects' : Objects P) (oid target : Int) : Prop where
  length : objects'.length = objects.length
  rest : ∀ k, (findObject objects' k).map h.rest = (findObject objects k).map h.rest
  up_self : (findObject objects' oid).map h.up = (findObject objects oid).map fun _ => target
  up_ne : ∀ k, k ≠ oid → (findObject objects' k).map h.up = (findObject objects k).map h.up

namespace Relinked

variable {oid target start : Int}

lemma isValid (hr : Relinked h objects objects' oid target) (k : Int) :
    isValid objects' k = isValid objects k :=
  isValid_of_map_eq (hr.rest k)

lemma along_of_notMem (hr : Relinked h objects objects' oid target) {ks : List Int}
    (ha : Along objects h.up start ks) (hnot : oid ∉ ks) : Along objects' h.up start ks :=
  ha.congr fun k hk => hr.up_ne k fun heq => hnot (heq ▸ hk)

lemma along_of_mem (hr : Relinked h objects objects' oid target) {pre post above : List Int}
    (ha : Along objects h.up start (pre ++ oid :: post)) (ht : Along objects h.up target above)
    (hnot : oid ∉ above) : Along objects' h.up start (pre ++ oid :: above) := by
  obtain ⟨_, o, -, ho, -⟩ := ha.exists_of_mem (k := oid) (by simp)
  refine ha.divert (fun k hk => hr.up_ne k ?_) ?_
  · rintro rfl
    exact ha.notMem_prefix hk
  · have hself := hr.up_self
    rw [ho, Option.map_some] at hself
    obtain ⟨o', ho', hup⟩ := Option.map_eq_some_iff.mp hself
    refine ⟨rfl, ne_nothing_of_isValid (isValid_of_findObject ho), o', ho', ?_⟩
    rw [hup]
    exact hr.along_of_notMem ht hnot

lemma ends (hr : Relinked h objects objects' oid target) (he : Ends objects h.up)
    {above : List Int} (ht : Along objects h.up target above) (hnot : oid ∉ above) :
    Ends objects' h.up := by
  intro k o' ho'
  obtain ⟨o, ho⟩ := isValid_iff.mp (hr.isValid k ▸ isValid_of_findObject ho')
  obtain ⟨ks, hks⟩ := he k o ho
  have hk : Along objects h.up k (k :: ks) :=
    ⟨rfl, ne_nothing_of_isValid (isValid_of_findObject ho), o, ho, hks⟩
  by_cases hmem : oid ∈ k :: ks
  · obtain ⟨pre, post, hsplit⟩ := List.append_of_mem hmem
    rw [hsplit] at hk
    have hk' := hr.along_of_mem hk ht hnot
    cases pre with
    | nil =>
      obtain ⟨rfl, -, o₂, ho₂, hrest⟩ := hk'
      rw [ho'] at ho₂
      cases ho₂
      exact ⟨_, hrest⟩
    | cons x pre =>
      obtain ⟨rfl, -, o₂, ho₂, hrest⟩ := hk'
      rw [ho'] at ho₂
      cases ho₂
      exact ⟨_, hrest⟩
  · obtain ⟨-, -, o₂, ho₂, hrest⟩ := hr.along_of_notMem hk hmem
    rw [ho'] at ho₂
    cases ho₂
    exact ⟨_, hrest⟩

end Relinked

/-- `relink` does what it is for: the lists stay consistent, and all but the one the object
comes to lose it. -/
theorem relink_spec (hc : Consistent objects h.toLinks) {oid target : Int} {o : Object P}
    (ho : findObject objects oid = some o) (htarget : target = nothing ∨ isValid objects target)
    (hloop : ∀ ks, Along objects h.up target ks → oid ∉ ks) {wasOn isOn : Bool}
    (hwas : wasOn = true ↔ h.up o ≠ nothing) (hon : isOn = true ↔ target ≠ nothing) :
    ∃ objects', relink h objects oid target wasOn isOn = some objects' ∧
      Relinked h objects objects' oid target ∧ Consistent objects' h.toLinks ∧
      ∀ p w ks, p ≠ target → findObject objects p = some w →
        Along objects h.across (h.down w) ks → ∃ w', findObject objects' p = some w' ∧
          Along objects' h.across (h.down w') (ks.erase oid) := by
  obtain ⟨kids, hl, hexact⟩ := hc.exists_listed
  obtain ⟨above, habove⟩ := hc.up.exists_along htarget
  have hup : h.up o = nothing ∨ isValid objects (h.up o) := by
    obtain ⟨ks, hks⟩ := hc.up oid o ho
    exact hks.isValid
  -- the object is taken from its list
  obtain ⟨objects₁, heq₁, hs₁, hl₁⟩ : ∃ objects₁,
      (if wasOn then llRemove h objects (h.up o) oid else some objects) = some objects₁ ∧
      Spliced h objects objects₁ ∧ Listed objects₁ h.toLinks fun p => (kids p).erase oid := by
    have hother : ∀ p, isValid objects p → h.up o ≠ p → (kids p).erase oid = kids p := by
      intro p hp hne
      exact List.erase_of_not_mem fun hmem => hne ((hexact p oid o hp ho).mp hmem)
    by_cases hne : h.up o = nothing
    · rw [if_neg (fun hw => hwas.mp hw hne)]
      refine ⟨objects, rfl, .refl, hl.congr fun p hp => hother p hp ?_⟩
      rw [hne]
      exact (ne_nothing_of_isValid hp).symm
    · have hv := hup.resolve_left hne
      rw [if_pos (hwas.mpr hne)]
      obtain ⟨objects₁, heq, hs, hl₁⟩ := hl.remove hv ((hexact _ oid o hv ho).mpr rfl)
      refine ⟨objects₁, heq, hs, hl₁.congr fun p hp => ?_⟩
      rw [hs.isValid] at hp
      by_cases hpu : p = h.up o
      · rw [hpu, update_self]
      · rw [update_of_ne hpu]
        exact hother p hp (Ne.symm hpu)
  have hout : ∀ p, isValid objects₁ p → oid ∉ (kids p).erase oid := by
    intro p hp
    rw [hs₁.isValid] at hp
    exact (hl.nodup p hp).not_mem_erase
  -- and put on the other one
  obtain ⟨objects₂, heq₂, hs₂, hl₂⟩ : ∃ objects₂,
      (if isOn then llAppend h objects₁ target oid else some objects₁) = some objects₂ ∧
      Spliced h objects₁ objects₂ ∧ Listed objects₂ h.toLinks
        (update (fun p => (kids p).erase oid) target ((kids target).erase oid ++ [oid])) := by
    by_cases hne : target = nothing
    · rw [if_neg (fun hi => hon.mp hi hne)]
      refine ⟨objects₁, rfl, .refl, hl₁.congr fun p hp => update_of_ne ?_ _ _⟩
      rw [hne]
      exact ne_nothing_of_isValid hp
    · rw [if_pos (hon.mpr hne)]
      refine hl₁.append ?_ ?_ hout
      · rw [hs₁.isValid]
        exact htarget.resolve_left hne
      · rw [hs₁.isValid]
        exact isValid_of_findObject ho
  have hs := hs₁.trans hs₂
  obtain ⟨o₂, ho₂⟩ := isValid_iff.mp ((hs.isValid oid).trans (isValid_of_findObject ho))
  have hfind := findObject_put ho₂ (h.setUp target o₂)
  have hr : Relinked h objects (put objects₂ oid (h.setUp target o₂)) oid target := by
    constructor
    case length => rw [length_put, hs.length]
    case rest =>
      intro k
      rw [← hs.rest, hfind]
      split_ifs with hk
      · simp [hk, ho₂]
      · rfl
    case up_self => simp [hfind, ho]
    case up_ne =>
      intro k hk
      rw [← hs.up, hfind, if_neg hk]
  have hl₃ : Listed (put objects₂ oid (h.setUp target o₂)) h.toLinks
      (update (fun p => (kids p).erase oid) target ((kids target).erase oid ++ [oid])) := by
    have hvalid : ∀ k, isValid (put objects₂ oid (h.setUp target o₂)) k = isValid objects₂ k := by
      intro k
      rw [hr.isValid, hs.isValid]
    constructor
    case chain =>
      intro p hp
      rw [slot_put_setUp ho₂]
      exact hl₂.chain p (hvalid p ▸ hp)
    case valid => exact fun p k hp hk => hvalid k ▸ hl₂.valid p k (hvalid p ▸ hp) hk
    case nodup => exact fun p hp => hl₂.nodup p (hvalid p ▸ hp)
    case apart => exact fun p q k hp hq => hl₂.apart p q k (hvalid p ▸ hp) (hvalid q ▸ hq)
  refine ⟨_, ?_, hr, hl₃.consistent (hr.ends hc.up habove (hloop above habove)) ?_, ?_⟩
  · simp only [relink, ho, Option.bind_eq_bind, Option.bind_some, heq₁, heq₂, ho₂]
    rfl
  · intro p k o' hp ho'
    rw [hr.isValid] at hp
    by_cases hk : k = oid
    · subst hk
      have hself := hr.up_self
      rw [ho', ho, Option.map_some, Option.map_some, Option.some.injEq] at hself
      rw [hself]
      by_cases hpt : p = target
      · simp [hpt]
      · rw [update_of_ne hpt]
        simp [(hl.nodup p hp).not_mem_erase, Ne.symm hpt]
    · have hne := hr.up_ne k hk
      rw [ho', Option.map_some] at hne
      obtain ⟨o₀, ho₀, hup₀⟩ := Option.map_eq_some_iff.mp hne.symm
      rw [← hup₀, ← hexact p k o₀ hp ho₀]
      by_cases hpt : p = target
      · subst hpt
        simp [List.mem_erase_of_ne hk, hk]
      · rw [update_of_ne hpt]
        exact List.mem_erase_of_ne hk
  · intro p w ks hpt hw hks
    have hp := isValid_of_findObject hw
    obtain ⟨w', hw'⟩ := isValid_iff.mp ((hr.isValid p).trans hp)
    refine ⟨w', hw', ?_⟩
    have halong := hl₃.along hw'
    rw [update_of_ne hpt] at halong
    rwa [hks.unique (hl.along hw)]

end Db

end LambdaMOO
