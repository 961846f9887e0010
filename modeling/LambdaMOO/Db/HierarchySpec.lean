import LambdaMOO.Db.Hierarchy
import Mathlib.Data.List.Nodup
import Mathlib.Data.List.Perm.Subperm
import Mathlib.Tactic.IntervalCases

/-!
# Sound hierarchies pass validation

In a database whose links fit together `validate_hierarchies` finds nothing to object to and
nothing to change.
-/

namespace LambdaMOO

namespace Db

variable {P : Type} {objects : Objects P} {field : Object P → Int}

/-- The links of `field` lead from `start` through the objects `ks` to nothing. -/
def Along (objects : Objects P) (field : Object P → Int) : Int → List Int → Prop
  | start, [] => start = nothing
  | start, k :: ks => start = k ∧ k ≠ nothing ∧
      ∃ o, findObject objects k = some o ∧ Along objects field (field o) ks

/-- The links of a hierarchy fit together: those up end somewhere, each object has below it
exactly those that are below it, and an object below none is beside none. -/
structure Forest (objects : Objects P) (links : Links P) : Prop where
  up : ∀ oid o, findObject objects oid = some o → ∃ ks, Along objects links.up (links.up o) ks
  down : ∀ oid o, findObject objects oid = some o →
    ∃ ks, Along objects links.across (links.down o) ks ∧
      ∀ k ok, findObject objects k = some ok → (k ∈ ks ↔ links.up ok = oid)
  alone : ∀ oid o, findObject objects oid = some o → links.up o = nothing →
    links.across o = nothing

/-- Both hierarchies are sound and no object has a temporary flag. -/
structure Sound (objects : Objects P) : Prop where
  parents : Forest objects parentLinks
  locations : Forest objects locationLinks
  flags : ∀ oid o, findObject objects oid = some o → ∀ i, flagFirstTemp ≤ i →
    o.flags.getLsbD i = false

/-- There are no more valid numbers than places in the table. -/
lemma length_le_of_nodup {ks : List Int} (hnodup : ks.Nodup)
    (hvalid : ∀ k ∈ ks, isValid objects k) : ks.length ≤ objects.length := by
  have hmem : ∀ k ∈ ks, 0 ≤ k ∧ k.toNat < objects.length := by
    intro k hk
    obtain ⟨o, ho⟩ := Option.isSome_iff_exists.mp (hvalid k hk)
    obtain ⟨hpos, hget⟩ := findObject_eq_some ho
    exact ⟨hpos, (List.getElem?_eq_some_iff.mp hget).1⟩
  have hnat : (ks.map Int.toNat).Nodup := by
    refine List.Nodup.map_on ?_ hnodup
    intro x hx y hy hxy
    have hx := (hmem x hx).1
    have hy := (hmem y hy).1
    omega
  have hsub : ks.map Int.toNat ⊆ List.range objects.length := by
    intro i hi
    obtain ⟨k, hk, rfl⟩ := List.mem_map.mp hi
    exact List.mem_range.mpr (hmem k hk).2
  have hlen := (List.subperm_of_subset hnat hsub).length_le
  simpa using hlen

namespace Along

lemma unique {start : Int} {ks ks' : List Int} (h : Along objects field start ks)
    (h' : Along objects field start ks') : ks = ks' := by
  induction ks generalizing start ks' with
  | nil =>
    cases ks' with
    | nil => rfl
    | cons k' ks' => exact absurd (h'.1.symm.trans h) h'.2.1
  | cons k ks ih =>
    cases ks' with
    | nil => exact absurd (h.1.symm.trans h') h.2.1
    | cons k' ks' =>
      obtain ⟨rfl, hne, o, ho, hrest⟩ := h
      obtain ⟨rfl, _, o', ho', hrest'⟩ := h'
      obtain rfl : o = o' := by simpa [ho] using ho'
      rw [ih hrest hrest']

lemma isValid {start : Int} {ks : List Int} (h : Along objects field start ks) :
    start = nothing ∨ isValid objects start := by
  cases ks with
  | nil => exact Or.inl h
  | cons k ks =>
    obtain ⟨rfl, _, o, ho, _⟩ := h
    exact Or.inr (by simp [Db.isValid, ho])

/-- From every object of a chain the rest of it goes on. -/
lemma exists_of_mem {start k : Int} {ks : List Int} (h : Along objects field start ks)
    (hk : k ∈ ks) : ∃ rest o, k :: rest <:+ ks ∧ findObject objects k = some o ∧
      Along objects field (field o) rest := by
  induction ks generalizing start with
  | nil => simp at hk
  | cons k' ks ih =>
    obtain ⟨rfl, _, o, ho, hrest⟩ := h
    rcases List.mem_cons.mp hk with rfl | hk
    · exact ⟨ks, o, List.suffix_rfl, ho, hrest⟩
    · obtain ⟨rest, o', hsuf, ho', h'⟩ := ih hrest hk
      exact ⟨rest, o', hsuf.trans (List.suffix_cons _ _), ho', h'⟩

lemma nodup {start : Int} {ks : List Int} (h : Along objects field start ks) : ks.Nodup := by
  induction ks generalizing start with
  | nil => exact List.nodup_nil
  | cons k ks ih =>
    obtain ⟨rfl, _, o, ho, hrest⟩ := h
    refine List.nodup_cons.mpr ⟨fun hk => ?_, ih hrest⟩
    -- the chain would go on from its first object in two ways
    obtain ⟨rest, o', hsuf, ho', h'⟩ := hrest.exists_of_mem hk
    obtain rfl : o = o' := by simpa [ho] using ho'
    have hlen := hsuf.length_le
    rw [hrest.unique h', List.length_cons] at hlen
    omega

lemma length_le {start : Int} {ks : List Int} (h : Along objects field start ks) :
    ks.length ≤ objects.length := by
  refine length_le_of_nodup h.nodup fun k hk => ?_
  obtain ⟨_, o, _, ho, _⟩ := h.exists_of_mem hk
  simp [Db.isValid, ho]

/-- The two hands of the cycle check do not meet on a chain that ends. -/
lemma hasCycle_eq {slower faster : Int} {ss fs : List Int} (hs : Along objects field slower ss)
    (hf : Along objects field faster fs) (hle : fs.length ≤ ss.length) {n : Nat}
    (hn : fs.length < n) : hasCycle objects field n slower faster = some false := by
  induction n generalizing slower faster ss fs with
  | zero => omega
  | succ n ih =>
    unfold hasCycle
    cases fs with
    | nil =>
      have hend : faster = nothing := hf
      rw [if_pos hend]
    | cons f fs =>
      obtain ⟨rfl, hfne, o, ho, hf⟩ := hf
      simp only [hfne, if_false, ho, Option.bind_eq_bind, Option.bind_some]
      cases fs with
      | nil =>
        have hend : field o = nothing := hf
        rw [if_pos hend]
      | cons f₂ fs =>
        obtain ⟨hf₂, hf₂ne, o₂, ho₂, hf⟩ := hf
        cases ss with
        | nil => simp at hle
        | cons s ss =>
          obtain ⟨rfl, _, os, hos, hs⟩ := hs
          rw [hf₂, if_neg hf₂ne]
          simp only [ho₂, hos, Option.bind_some]
          simp only [List.length_cons] at hle hn
          rw [if_neg, ih hs hf (by omega) (by omega)]
          intro heq
          have := congrArg List.length (hf.unique (heq ▸ hs))
          omega

end Along

lemma Along.hasCycle_self {start : Int} {ks : List Int} (h : Along objects field start ks) :
    hasCycle objects field (objects.length + 1) start start = some false :=
  h.hasCycle_eq h (Nat.le_refl _) (Nat.lt_succ_of_le h.length_le)

lemma Along.map {start : Int} {ks : List Int} (h : Along objects field start ks)
    {g : Object P → Object P} (hg : ∀ o, field (g o) = field o) :
    Along (objects.map (Option.map g)) field start ks := by
  induction ks generalizing start with
  | nil => exact h
  | cons k ks ih =>
    obtain ⟨rfl, hne, o, ho, hrest⟩ := h
    refine ⟨rfl, hne, g o, ?_, ?_⟩
    · rw [findObject_map, ho]
      rfl
    · rw [hg]
      exact ih hrest

lemma Forest.map {links : Links P} (h : Forest objects links) {g : Object P → Object P}
    (hup : ∀ o, links.up (g o) = links.up o) (hdown : ∀ o, links.down (g o) = links.down o)
    (hacross : ∀ o, links.across (g o) = links.across o) :
    Forest (objects.map (Option.map g)) links where
  up := by
    intro oid o' ho'
    rw [findObject_map] at ho'
    obtain ⟨o, ho, rfl⟩ := Option.map_eq_some_iff.mp ho'
    obtain ⟨ks, hks⟩ := h.up oid o ho
    exact ⟨ks, hup o ▸ hks.map hup⟩
  down := by
    intro oid o' ho'
    rw [findObject_map] at ho'
    obtain ⟨o, ho, rfl⟩ := Option.map_eq_some_iff.mp ho'
    obtain ⟨ks, hks, hiff⟩ := h.down oid o ho
    refine ⟨ks, hdown o ▸ hks.map hacross, ?_⟩
    intro k ok' hok'
    rw [findObject_map] at hok'
    obtain ⟨ok, hok, rfl⟩ := Option.map_eq_some_iff.mp hok'
    rw [hup]
    exact hiff k ok hok
  alone := by
    intro oid o' ho'
    rw [findObject_map] at ho'
    obtain ⟨o, ho, rfl⟩ := Option.map_eq_some_iff.mp ho'
    rw [hup, hacross]
    exact h.alone oid o ho

/-- A sound database stays so when neither links nor flags change. -/
lemma Sound.map (h : Sound objects) {g : Object P → Object P}
    (hlinks : ∀ o, (g o).parent = o.parent ∧ (g o).child = o.child ∧ (g o).sibling = o.sibling ∧
      (g o).location = o.location ∧ (g o).contents = o.contents ∧ (g o).next = o.next)
    (hflags : ∀ o, (g o).flags = o.flags) : Sound (objects.map (Option.map g)) where
  parents := h.parents.map (fun o => (hlinks o).1) (fun o => (hlinks o).2.1)
    (fun o => (hlinks o).2.2.1)
  locations := h.locations.map (fun o => (hlinks o).2.2.2.1) (fun o => (hlinks o).2.2.2.2.1)
    (fun o => (hlinks o).2.2.2.2.2)
  flags := by
    intro oid o' ho' i hi
    rw [findObject_map] at ho'
    obtain ⟨o, ho, rfl⟩ := Option.map_eq_some_iff.mp ho'
    rw [hflags]
    exact h.flags oid o ho i hi

/-! ## Flags -/

/-- The objects with other flags. -/
def reflag (objects : Objects P) (fl : Nat → BitVec 16) : Objects P :=
  objects.mapIdx fun i o => o.map fun o => { o with flags := fl i }

lemma length_reflag (fl : Nat → BitVec 16) : (reflag objects fl).length = objects.length := by
  simp [reflag]

lemma findObject_reflag (fl : Nat → BitVec 16) (oid : Int) :
    findObject (reflag objects fl) oid
      = (findObject objects oid).map fun o => { o with flags := fl oid.toNat } := by
  unfold findObject reflag
  split
  · rfl
  · rw [List.getElem?_mapIdx]
    cases objects[oid.toNat]? with
    | none => rfl
    | some o => rfl

lemma Along.reflag {start : Int} {ks : List Int} (h : Along objects field start ks)
    (hfield : ∀ (o : Object P) (b : BitVec 16), field { o with flags := b } = field o)
    (fl : Nat → BitVec 16) : Along (reflag objects fl) field start ks := by
  induction ks generalizing start with
  | nil => exact h
  | cons k ks ih =>
    obtain ⟨rfl, hne, o, ho, hrest⟩ := h
    refine ⟨rfl, hne, { o with flags := fl start.toNat }, ?_, ?_⟩
    · rw [findObject_reflag, ho]
      rfl
    · rw [hfield]
      exact ih hrest

lemma modifyObject_reflag (fl : Nat → BitVec 16) (k flag : Nat) :
    modifyObject (reflag objects fl) k (clearFlag flag)
      = reflag objects (Function.update fl k (fl k &&& ~~~ (1#16 <<< flag))) := by
  apply List.ext_getElem?
  intro i
  unfold modifyObject reflag
  rw [List.getElem?_modify, List.getElem?_mapIdx, List.getElem?_mapIdx]
  by_cases hi : k = i
  · subst hi
    cases objects[k]? with
    | none => rfl
    | some o => cases o <;> simp [clearFlag]
  · simp [hi, Ne.symm hi]

/-- The flags `fl'` come from `fl` by clearing flags from the first temporary one on. -/
def Cleared (fl fl' : Nat → BitVec 16) : Prop :=
  ∀ k i, ((fl k).getLsbD i = false → (fl' k).getLsbD i = false) ∧
    (i < flagFirstTemp → (fl' k).getLsbD i = (fl k).getLsbD i)

lemma Cleared.refl (fl : Nat → BitVec 16) : Cleared fl fl := fun _ _ => ⟨id, fun _ => rfl⟩

lemma Cleared.trans {fl fl' fl'' : Nat → BitVec 16} (h : Cleared fl fl') (h' : Cleared fl' fl'') :
    Cleared fl fl'' :=
  fun k i => ⟨fun hi => (h' k i).1 ((h k i).1 hi),
    fun hi => ((h' k i).2 hi).trans ((h k i).2 hi)⟩

lemma getLsbD_and_not_shiftLeft_one (b : BitVec 16) (flag i : Nat) :
    (b &&& ~~~ (1#16 <<< flag)).getLsbD i = (b.getLsbD i && decide (i ≠ flag)) := by
  by_cases hi : i < 16
  · rw [BitVec.getLsbD_and, BitVec.getLsbD_not, BitVec.getLsbD_shiftLeft, BitVec.getLsbD_one]
    by_cases hif : i < flag
    · simp [hi, hif, Nat.ne_of_lt hif]
    · have : i - flag = 0 ↔ i = flag := by omega
      simp [hi, hif, this]
  · simp [BitVec.getLsbD_of_ge _ i (Nat.not_lt.mp hi)]

lemma cleared_update (fl : Nat → BitVec 16) (k : Nat) {flag : Nat}
    (hflag : flagFirstTemp ≤ flag) :
    Cleared fl (Function.update fl k (fl k &&& ~~~ (1#16 <<< flag))) := by
  intro j i
  by_cases hj : j = k
  · subst hj
    rw [Function.update_self, getLsbD_and_not_shiftLeft_one]
    refine ⟨fun h => by simp [h], fun h => ?_⟩
    have : i ≠ flag := by omega
    simp [this]
  · rw [Function.update_of_ne hj]
    exact ⟨id, fun _ => rfl⟩

/-- What phase 3a needs of a hierarchy: the links do not depend on flags, and its flag is a
temporary one. -/
structure Links.Plain (links : Links P) : Prop where
  up : ∀ (o : Object P) (b : BitVec 16), links.up { o with flags := b } = links.up o
  down : ∀ (o : Object P) (b : BitVec 16), links.down { o with flags := b } = links.down o
  across : ∀ (o : Object P) (b : BitVec 16), links.across { o with flags := b } = links.across o
  flag : flagFirstTemp ≤ links.flag

lemma parentLinks_plain : (parentLinks : Links P).Plain :=
  ⟨fun _ _ => rfl, fun _ _ => rfl, fun _ _ => rfl, Nat.le_refl _⟩

lemma locationLinks_plain : (locationLinks : Links P).Plain :=
  ⟨fun _ _ => rfl, fun _ _ => rfl, fun _ _ => rfl, Nat.le_succ _⟩

variable {links : Links P}

lemma claim_eq (hl : links.Plain) {oid : Nat} {start : Int} {ks : List Int}
    (h : Along objects links.across start ks)
    (hup : ∀ k ok, k ∈ ks → findObject objects k = some ok → links.up ok = oid) {n : Nat}
    (hn : ks.length < n) (b : Bool) (fl : Nat → BitVec 16) :
    ∃ fl', claim links oid n start (b, reflag objects fl) = some (b, reflag objects fl') ∧
      Cleared fl fl' ∧ ∀ k ∈ ks, (fl' k.toNat).getLsbD links.flag = false := by
  induction ks generalizing start n fl with
  | nil =>
    obtain ⟨n, rfl⟩ : ∃ m, n = m + 1 := ⟨n - 1, by omega⟩
    have hend : start = nothing := h
    exact ⟨fl, by rw [claim, if_pos hend], Cleared.refl fl, by simp⟩
  | cons k ks ih =>
    obtain ⟨n, rfl⟩ : ∃ m, n = m + 1 := ⟨n - 1, by simp at hn; omega⟩
    obtain ⟨rfl, hne, o, ho, hrest⟩ := h
    have hok : links.up o = oid := hup start o (by simp) ho
    simp only [List.length_cons] at hn
    obtain ⟨fl', heq, hc, hks⟩ := ih hrest
      (fun k ok hk => hup k ok (by simp [hk])) (n := n) (by omega)
      (Function.update fl start.toNat (fl start.toNat &&& ~~~ (1#16 <<< links.flag)))
    have hupd := cleared_update fl start.toNat hl.flag
    refine ⟨fl', ?_, hupd.trans hc, ?_⟩
    · rw [claim, if_neg hne, findObject_reflag, ho]
      simp only [Option.map_some, Option.bind_eq_bind, Option.bind_some, hl.up, hl.across, hok,
        ne_eq, not_true_eq_false, if_false, modifyObject_reflag]
      exact heq
    · intro k hk
      rcases List.mem_cons.mp hk with rfl | hk
      · refine (hc k.toNat links.flag).1 ?_
        rw [Function.update_self, getLsbD_and_not_shiftLeft_one]
        simp
      · exact hks k hk

/-- The objects below `oid` have been claimed. -/
def Claimed (objects : Objects P) (links : Links P) (fl : Nat → BitVec 16) (oid : Nat) : Prop :=
  ∀ k ok, findObject objects k = some ok → links.up ok = oid →
    (fl k.toNat).getLsbD links.flag = false

lemma Claimed.cleared {fl fl' : Nat → BitVec 16} {oid : Nat} (h : Claimed objects links fl oid)
    (hc : Cleared fl fl') : Claimed objects links fl' oid :=
  fun k ok hk hup => (hc k.toNat links.flag).1 (h k ok hk hup)

lemma Forest.claim_eq (hf : Forest objects links) (hl : links.Plain) {oid : Nat} {o : Object P}
    (ho : findObject objects oid = some o) (b : Bool) (fl : Nat → BitVec 16) :
    ∃ fl', claim links oid (objects.length + 1) (links.down o) (b, reflag objects fl)
        = some (b, reflag objects fl') ∧ Cleared fl fl' ∧ Claimed objects links fl' oid := by
  obtain ⟨ks, hks, hiff⟩ := hf.down oid o ho
  obtain ⟨fl', heq, hc, hclear⟩ := Db.claim_eq hl hks
    (fun k ok hk hok => (hiff k ok hok).mp hk) (Nat.lt_succ_of_le hks.length_le) b fl
  exact ⟨fl', heq, hc, fun k ok hok hup => hclear k ((hiff k ok hok).mpr hup)⟩

lemma Sound.phase3a_eq (h : Sound objects) {oid : Nat} (hoid : isValid objects oid) (b : Bool)
    (fl : Nat → BitVec 16) :
    ∃ fl', phase3a oid (b, reflag objects fl) = some (b, reflag objects fl') ∧ Cleared fl fl' ∧
      Claimed objects parentLinks fl' oid ∧ Claimed objects locationLinks fl' oid := by
  obtain ⟨o, ho⟩ := Option.isSome_iff_exists.mp hoid
  obtain ⟨fl₁, heq₁, hc₁, hcl₁⟩ := h.parents.claim_eq parentLinks_plain ho b fl
  obtain ⟨fl₂, heq₂, hc₂, hcl₂⟩ := h.locations.claim_eq locationLinks_plain ho b fl₁
  refine ⟨fl₂, ?_, hc₁.trans hc₂, hcl₁.cleared hc₂, hcl₂⟩
  unfold phase3a
  simp only [findObject_reflag, ho, Option.map_some, length_reflag, Option.bind_eq_bind]
  rw [show (parentLinks.down o : Int) = o.child from rfl] at heq₁
  rw [heq₁]
  exact heq₂

lemma phase3a_of_not_isValid {oid : Nat} (hoid : ¬ isValid objects oid) (b : Bool)
    (fl : Nat → BitVec 16) :
    phase3a oid (b, reflag objects fl) = some (b, reflag objects fl) := by
  have ho : findObject objects oid = none := by simpa [isValid] using hoid
  simp only [phase3a, findObject_reflag, ho, Option.map_none]

lemma Sound.phase3aLoop_eq (h : Sound objects) (oids : List Nat) (b : Bool)
    (fl : Nat → BitVec 16) :
    ∃ fl', phase3aLoop oids (b, reflag objects fl) = some (b, reflag objects fl') ∧
      Cleared fl fl' ∧ ∀ oid : Nat, oid ∈ oids → isValid objects oid →
        Claimed objects parentLinks fl' oid ∧ Claimed objects locationLinks fl' oid := by
  induction oids generalizing fl with
  | nil => exact ⟨fl, rfl, Cleared.refl fl, by simp⟩
  | cons oid oids ih =>
    by_cases hoid : isValid objects oid
    · obtain ⟨fl₁, heq₁, hc₁, hp₁, hl₁⟩ := h.phase3a_eq hoid b fl
      obtain ⟨fl₂, heq₂, hc₂, hcl⟩ := ih fl₁
      refine ⟨fl₂, ?_, hc₁.trans hc₂, ?_⟩
      · rw [phase3aLoop, heq₁]
        exact heq₂
      · intro x hx hv
        rcases List.mem_cons.mp hx with rfl | hx
        · exact ⟨hp₁.cleared hc₂, hl₁.cleared hc₂⟩
        · exact hcl x hx hv
    · obtain ⟨fl₂, heq₂, hc₂, hcl⟩ := ih fl
      refine ⟨fl₂, ?_, hc₂, ?_⟩
      · rw [phase3aLoop, phase3a_of_not_isValid hoid]
        exact heq₂
      · intro x hx hv
        rcases List.mem_cons.mp hx with rfl | hx
        · exact absurd hv hoid
        · exact hcl x hx hv

/-! ## The whole validation -/

lemma Forest.up_isValid (h : Forest objects links) {oid : Int} {o : Object P}
    (ho : findObject objects oid = some o) : links.up o = nothing ∨ isValid objects (links.up o) := by
  obtain ⟨ks, hks⟩ := h.up oid o ho
  exact hks.isValid

lemma Forest.down_isValid (h : Forest objects links) {oid : Int} {o : Object P}
    (ho : findObject objects oid = some o) :
    links.down o = nothing ∨ isValid objects (links.down o) := by
  obtain ⟨ks, hks, _⟩ := h.down oid o ho
  exact hks.isValid

lemma Forest.across_isValid (h : Forest objects links) {oid : Int} {o : Object P}
    (ho : findObject objects oid = some o) :
    links.across o = nothing ∨ isValid objects (links.across o) := by
  rcases h.up_isValid ho with hup | hup
  · exact Or.inl (h.alone oid o ho hup)
  · obtain ⟨p, hp⟩ := Option.isSome_iff_exists.mp hup
    obtain ⟨ks, hks, hiff⟩ := h.down _ p hp
    obtain ⟨rest, o', _, ho', hrest⟩ := hks.exists_of_mem ((hiff oid o ho).mpr rfl)
    obtain rfl : o = o' := by simpa [ho] using ho'
    exact hrest.isValid

lemma checkLink_of_isValid {link : Int} (h : link = nothing ∨ isValid objects link) :
    checkLink objects link = link := by
  unfold checkLink
  rcases h with h | h <;> simp [h]

lemma Sound.phase1_eq (h : Sound objects) {oid : Int} {o : Object P}
    (ho : findObject objects oid = some o) : phase1 objects o = o := by
  have hnext : ¬ (o.location = nothing ∧ o.next ≠ nothing) :=
    fun hn => hn.2 (h.locations.alone oid o ho hn.1)
  have e₁ : checkLink objects o.parent = o.parent :=
    checkLink_of_isValid (h.parents.up_isValid ho)
  have e₂ : checkLink objects o.child = o.child :=
    checkLink_of_isValid (h.parents.down_isValid ho)
  have e₃ : checkLink objects o.sibling = o.sibling :=
    checkLink_of_isValid (h.parents.across_isValid ho)
  have e₄ : checkLink objects o.location = o.location :=
    checkLink_of_isValid (h.locations.up_isValid ho)
  have e₅ : checkLink objects o.contents = o.contents :=
    checkLink_of_isValid (h.locations.down_isValid ho)
  have e₆ : checkLink objects o.next = o.next :=
    checkLink_of_isValid (h.locations.across_isValid ho)
  unfold phase1
  simp only [hnext, if_false, e₁, e₂, e₃, e₄, e₅, e₆]

lemma Sound.phase2_eq (h : Sound objects) {oid : Int} {o : Object P}
    (ho : findObject objects oid = some o) : phase2 objects o = some false := by
  obtain ⟨_, h₁⟩ := h.parents.up oid o ho
  obtain ⟨_, h₂, _⟩ := h.parents.down oid o ho
  obtain ⟨_, h₃⟩ := h.locations.up oid o ho
  obtain ⟨_, h₄, _⟩ := h.locations.down oid o ho
  have e₁ : hasCycle objects Object.parent (objects.length + 1) o.parent o.parent = some false :=
    h₁.hasCycle_self
  have e₂ : hasCycle objects Object.sibling (objects.length + 1) o.child o.child = some false :=
    h₂.hasCycle_self
  have e₃ : hasCycle objects Object.location (objects.length + 1) o.location o.location
      = some false := h₃.hasCycle_self
  have e₄ : hasCycle objects Object.next (objects.length + 1) o.contents o.contents
      = some false := h₄.hasCycle_self
  simp [phase2, e₁, e₂, e₃, e₄]

lemma findObject_of_getElem? {i : Nat} {o : Object P} (h : objects[i]? = some (some o)) :
    findObject objects i = some o := by
  simp [findObject, h]

/-- A change to every object that none of them notices. -/
lemma map_eq_self {g : Object P → Object P}
    (h : ∀ oid o, findObject objects oid = some o → g o = o) :
    objects.map (Option.map g) = objects := by
  apply List.ext_getElem?
  intro i
  rw [List.getElem?_map]
  cases ho : objects[i]? with
  | none => rfl
  | some o =>
    cases o with
    | none => rfl
    | some o => simp [h i o (findObject_of_getElem? ho)]

lemma exists_findObject_of_mem {o : Object P} (h : o ∈ objects.filterMap id) :
    ∃ i : Nat, findObject objects i = some o := by
  simp only [List.mem_filterMap, id_eq, exists_eq_right] at h
  obtain ⟨i, hi⟩ := List.getElem?_of_mem h
  exact ⟨i, findObject_of_getElem? hi⟩

/-- The flags after phase 2. -/
def tempFlags (objects : Objects P) (i : Nat) : BitVec 16 :=
  ((findObject objects i).map fun o => (setTempFlags o).flags).getD 0

lemma map_setTempFlags : objects.map (Option.map setTempFlags) = reflag objects (tempFlags objects) := by
  apply List.ext_getElem?
  intro i
  unfold reflag
  rw [List.getElem?_map, List.getElem?_mapIdx]
  cases ho : objects[i]? with
  | none => rfl
  | some o =>
    cases o with
    | none => rfl
    | some o => simp [tempFlags, findObject_of_getElem? ho, setTempFlags]

lemma getLsbD_and_not_temp (b : BitVec 16) (i : Nat) :
    (b &&& ~~~ (3#16 <<< flagFirstTemp)).getLsbD i = (b.getLsbD i && decide (i < flagFirstTemp)) := by
  by_cases hi : i < 16
  · interval_cases i <;> simp [flagFirstTemp]
  · simp [BitVec.getLsbD_of_ge _ i (Nat.not_lt.mp hi)]

lemma Claimed.unclaimed_eq {fl : Nat → BitVec 16} (hl : links.Plain) (hf : Forest objects links)
    (hcl : ∀ oid : Nat, isValid objects oid → Claimed objects links fl oid) {oid : Int}
    {o : Object P} (ho : findObject objects oid = some o) :
    unclaimed links { o with flags := fl oid.toNat } = false := by
  unfold unclaimed
  rw [hl.up]
  rcases hf.up_isValid ho with hup | hup
  · simp [hup]
  · have hnat : ((links.up o).toNat : Int) = links.up o := by
      obtain ⟨p, hp⟩ := Option.isSome_iff_exists.mp hup
      unfold findObject at hp
      split_ifs at hp with hneg
      exact Int.toNat_of_nonneg (Int.not_lt.mp hneg)
    have := hcl (links.up o).toNat (by rw [hnat]; exact hup) oid o ho hnat.symm
    simp [this]

lemma Cleared.clearTempFlags_eq {fl : Nat → BitVec 16} (h : Sound objects)
    (hc : Cleared (tempFlags objects) fl) :
    (reflag objects fl).map (Option.map clearTempFlags) = objects := by
  apply List.ext_getElem?
  intro i
  unfold reflag
  rw [List.getElem?_map, List.getElem?_mapIdx]
  cases ho : objects[i]? with
  | none => rfl
  | some o =>
    cases o with
    | none => rfl
    | some o =>
      have ho := findObject_of_getElem? ho
      suffices hfl : fl i &&& ~~~ (3#16 <<< flagFirstTemp) = o.flags by
        simp [clearTempFlags, hfl]
      apply BitVec.eq_of_getLsbD_eq
      intro j _
      rw [getLsbD_and_not_temp]
      by_cases hj : j < flagFirstTemp
      · rw [(hc i j).2 hj]
        simp [hj, tempFlags, ho, setTempFlags]
      · simp [hj, h.flags i o ho j (Nat.not_lt.mp hj)]

/-- Validation accepts a sound database and leaves it as it is. -/
theorem Sound.validateHierarchies_eq (h : Sound objects) :
    validateHierarchies objects = some objects := by
  obtain ⟨fl, heq, hc, hcl⟩ := h.phase3aLoop_eq (List.range objects.length) false
    (tempFlags objects)
  have hbs : (objects.filterMap id).mapM (phase2 objects)
      = some ((objects.filterMap id).map fun _ => false) := by
    apply mapM_eq_some_map
    intro o ho
    obtain ⟨i, hi⟩ := exists_findObject_of_mem ho
    exact h.phase2_eq hi
  have hall : ∀ oid : Nat, isValid objects oid →
      Claimed objects parentLinks fl oid ∧ Claimed objects locationLinks fl oid := by
    intro oid hoid
    refine hcl oid (List.mem_range.mpr ?_) hoid
    obtain ⟨o, ho⟩ := Option.isSome_iff_exists.mp hoid
    by_contra hlt
    simp [findObject, List.getElem?_eq_none (Nat.not_lt.mp hlt)] at ho
  have hnone : ((reflag objects fl).filterMap id).any (fun o =>
      unclaimed parentLinks o || unclaimed locationLinks o) = false := by
    rw [List.any_eq_false]
    intro o ho
    obtain ⟨i, hi⟩ := exists_findObject_of_mem ho
    rw [findObject_reflag] at hi
    obtain ⟨o', ho', rfl⟩ := Option.map_eq_some_iff.mp hi
    have h₁ := Claimed.unclaimed_eq parentLinks_plain h.parents (fun x hx => (hall x hx).1) ho'
    have h₂ := Claimed.unclaimed_eq locationLinks_plain h.locations (fun x hx => (hall x hx).2) ho'
    rw [h₁, h₂]
    simp
  unfold validateHierarchies validation
  simp only [map_eq_self fun _ _ ho => h.phase1_eq ho, hbs, Option.bind_eq_bind, Option.bind_some,
    map_setTempFlags, length_reflag]
  rw [if_neg (by simp), heq]
  simp only [Option.bind_some, hnone, hc.clearTempFlags_eq h]
  rfl

end Db

end LambdaMOO
