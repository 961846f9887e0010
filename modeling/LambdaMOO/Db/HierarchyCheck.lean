import LambdaMOO.Db.HierarchySpec
import LambdaMOO.Lib.Floyd

/-!
# What validation finds out

`validate_hierarchies` comes to an end on every database, and where it reports success the
lists of children and of contents and the lines of ancestors and of locations fit together.
-/

namespace LambdaMOO

namespace Db

variable {P : Type} {objects : Objects P} {field : Object P → Int} {links : Links P}

/-- From every object the links of `field` come to an end. -/
def Ends (objects : Objects P) (field : Object P → Int) : Prop :=
  ∀ oid o, findObject objects oid = some o → ∃ ks, Along objects field (field o) ks

/-- The lines up end, and the list of each object has exactly those that are below it, each
once. -/
structure Consistent (objects : Objects P) (links : Links P) : Prop where
  up : Ends objects links.up
  down : ∀ oid o, findObject objects oid = some o →
    ∃ ks, Along objects links.across (links.down o) ks ∧ ks.Nodup ∧
      ∀ k ok, findObject objects k = some ok → (k ∈ ks ↔ links.up ok = oid)

/-! ## Cycles -/

/-- The link is null or leads to an object. -/
def Leads (objects : Objects P) (link : Int) : Prop := link = nothing ∨ isValid objects link

/-- The links of `field` lead to objects. -/
def Closed (objects : Objects P) (field : Object P → Int) : Prop :=
  ∀ oid o, findObject objects oid = some o → Leads objects (field o)

lemma Leads.exists_findObject {link : Int} (h : Leads objects link) (hne : link ≠ nothing) :
    ∃ o, findObject objects link = some o := by
  rcases h with h | h
  · exact absurd h hne
  · exact Option.isSome_iff_exists.mp h

/-- The object behind `oid`, `NOTHING` behind none. -/
def follow (objects : Objects P) (field : Object P → Int) (oid : Int) : Int :=
  ((findObject objects oid).map field).getD nothing

lemma follow_nothing : follow objects field nothing = nothing := rfl

lemma follow_eq {oid : Int} {o : Object P} (h : findObject objects oid = some o) :
    follow objects field oid = field o := by
  rw [follow, h]
  rfl

/-- The numbers a link can have. -/
def nodes (objects : Objects P) : Finset Int :=
  insert nothing ((Finset.range objects.length).image Nat.cast)

lemma card_nodes_le (objects : Objects P) : (nodes objects).card ≤ objects.length + 1 := by
  refine (Finset.card_insert_le _ _).trans (Nat.succ_le_succ ?_)
  exact Finset.card_image_le.trans (Finset.card_range _).le

lemma findObject_bounds {oid : Int} {o : Object P} (h : findObject objects oid = some o) :
    0 ≤ oid ∧ oid.toNat < objects.length := by
  obtain ⟨hpos, hget⟩ := findObject_eq_some h
  exact ⟨hpos, (List.getElem?_eq_some_iff.mp hget).1⟩

lemma Leads.mem_nodes {link : Int} (h : Leads objects link) : link ∈ nodes objects := by
  unfold nodes
  rcases h with h | h
  · exact Finset.mem_insert.mpr (.inl h)
  · obtain ⟨o, ho⟩ := Option.isSome_iff_exists.mp h
    obtain ⟨hpos, hlt⟩ := findObject_bounds ho
    refine Finset.mem_insert_of_mem (Finset.mem_image.mpr ⟨link.toNat, ?_, ?_⟩)
    · exact Finset.mem_range.mpr hlt
    · exact Int.toNat_of_nonneg hpos

lemma Closed.follow_leads (h : Closed objects field) (oid : Int) :
    Leads objects (follow objects field oid) := by
  cases ho : findObject objects oid with
  | none => exact .inl (by rw [follow, ho]; rfl)
  | some o =>
    rw [follow_eq ho]
    exact h oid o ho

/-- The hands `k` and `2 * k` steps behind the start come to an end if they meet. -/
lemma exists_hasCycle (hf : Closed objects field) {start : Int} {n k : Nat} {slower faster : Int}
    (hslow : (follow objects field)^[k] start = slower)
    (hfast : (follow objects field)^[2 * k] start = faster) (hls : Leads objects slower)
    (hlf : Leads objects faster) (hmeet : ∃ i, k < i ∧ i ≤ k + n ∧
      (follow objects field)^[2 * i] start = (follow objects field)^[i] start) :
    ∃ b, hasCycle objects field n slower faster = some b := by
  induction n generalizing k slower faster with
  | zero =>
    obtain ⟨i, hlt, hle, _⟩ := hmeet
    omega
  | succ n ih =>
    unfold hasCycle
    split_ifs with hend
    · exact ⟨false, rfl⟩
    obtain ⟨o, ho⟩ := hlf.exists_findObject hend
    rw [ho, Option.bind_eq_bind, Option.bind_some]
    split_ifs with hnext
    · exact ⟨false, rfl⟩
    have hln := hf faster o ho
    obtain ⟨o₂, ho₂⟩ := hln.exists_findObject hnext
    have hsne : slower ≠ nothing := by
      rintro rfl
      rw [Nat.two_mul, Function.iterate_add_apply, hslow,
        Function.iterate_fixed follow_nothing] at hfast
      exact hend hfast.symm
    obtain ⟨os, hos⟩ := hls.exists_findObject hsne
    rw [ho₂, hos, Option.bind_some, Option.bind_some]
    have hslow' : (follow objects field)^[k + 1] start = field os := by
      rw [Function.iterate_succ_apply', hslow, follow_eq hos]
    have hfast' : (follow objects field)^[2 * (k + 1)] start = field o₂ := by
      rw [Nat.mul_succ, Function.iterate_succ_apply', Function.iterate_succ_apply', hfast,
        follow_eq ho, follow_eq ho₂]
    dsimp only
    split_ifs with hmet
    · exact ⟨true, rfl⟩
    · obtain ⟨i, hlt, hle, heq⟩ := hmeet
      refine ih hslow' hfast' (hf slower os hos) (hf _ o₂ ho₂) ⟨i, ?_, by omega, heq⟩
      rcases Nat.lt_or_eq_of_le (Nat.succ_le_of_lt hlt) with h | rfl
      · exact h
      · exact absurd (hfast'.symm.trans (heq.trans hslow')) hmet

/-- Where no cycle is found there is an end. -/
lemma exists_along_of_hasCycle {n : Nat} {slower faster : Int}
    (h : hasCycle objects field n slower faster = some false) :
    ∃ ks, Along objects field faster ks := by
  induction n generalizing slower faster with
  | zero => cases h
  | succ n ih =>
    unfold hasCycle at h
    split_ifs at h with hend
    · exact ⟨[], hend⟩
    obtain ⟨o, ho, h⟩ := Option.bind_eq_some_iff.mp h
    split_ifs at h with hnext
    · exact ⟨[faster], rfl, hend, o, ho, hnext⟩
    obtain ⟨o₂, ho₂, h⟩ := Option.bind_eq_some_iff.mp h
    obtain ⟨os, _, h⟩ := Option.bind_eq_some_iff.mp h
    dsimp only at h
    split_ifs at h
    · cases h
    · obtain ⟨ks, hks⟩ := ih h
      exact ⟨faster :: field o :: ks, rfl, hend, o, ho, rfl, hnext, o₂, ho₂, hks⟩

/-- The check of a chain comes to an end. -/
lemma Closed.exists_hasCycle (hf : Closed objects field) {start : Int}
    (hstart : Leads objects start) :
    ∃ b, hasCycle objects field (objects.length + 1) start start = some b := by
  obtain ⟨i, hpos, hle, heq⟩ := Function.exists_iterate_two_mul_eq
    (fun y _ => (hf.follow_leads y).mem_nodes) hstart.mem_nodes
  refine Db.exists_hasCycle hf (k := 0) rfl rfl hstart hstart ⟨i, hpos, ?_, heq⟩
  have hcard := card_nodes_le objects
  omega

/-- All links lead to objects. -/
structure AllClosed (objects : Objects P) : Prop where
  parent : Closed objects Object.parent
  child : Closed objects Object.child
  sibling : Closed objects Object.sibling
  location : Closed objects Object.location
  contents : Closed objects Object.contents
  next : Closed objects Object.next

/-- What phase 2 finds out about an object in whose chains it finds no cycle. -/
structure Unbroken (objects : Objects P) (o : Object P) : Prop where
  parent : ∃ ks, Along objects Object.parent o.parent ks
  child : ∃ ks, Along objects Object.sibling o.child ks
  location : ∃ ks, Along objects Object.location o.location ks
  contents : ∃ ks, Along objects Object.next o.contents ks

lemma AllClosed.phase2_eq (h : AllClosed objects) {oid : Int} {o : Object P}
    (ho : findObject objects oid = some o) :
    ∃ b, phase2 objects o = some b ∧ (b = false → Unbroken objects o) := by
  obtain ⟨b₁, h₁⟩ := h.parent.exists_hasCycle (h.parent oid o ho)
  obtain ⟨b₂, h₂⟩ := h.sibling.exists_hasCycle (h.child oid o ho)
  obtain ⟨b₃, h₃⟩ := h.location.exists_hasCycle (h.location oid o ho)
  obtain ⟨b₄, h₄⟩ := h.next.exists_hasCycle (h.contents oid o ho)
  refine ⟨b₁ || b₂ || b₃ || b₄, by simp [phase2, h₁, h₂, h₃, h₄], ?_⟩
  intro hb
  simp only [Bool.or_eq_false_iff] at hb
  obtain ⟨⟨⟨rfl, rfl⟩, rfl⟩, rfl⟩ := hb
  exact ⟨exists_along_of_hasCycle h₁, exists_along_of_hasCycle h₂,
    exists_along_of_hasCycle h₃, exists_along_of_hasCycle h₄⟩

/-! ## Claims -/

/-- Whoever is on the list of `oid` is below `oid`. -/
def Honest (objects : Objects P) (links : Links P) (oid : Nat) : Prop :=
  ∀ o, findObject objects oid = some o → ∀ ks, Along objects links.across (links.down o) ks →
    ∀ k ok, k ∈ ks → findObject objects k = some ok → links.up ok = oid

/-- Whose flag is cleared is on a list. -/
def Witnessed (objects : Objects P) (links : Links P) (fl : Nat → BitVec 16) : Prop :=
  ∀ k : Nat, isValid objects k → (fl k).getLsbD links.flag = false →
    ∃ (oid : Nat) (o : Object P) (ks : List Int), findObject objects oid = some o ∧
      Along objects links.across (links.down o) ks ∧ (k : Int) ∈ ks

/-- The lists of a hierarchy end. -/
def ListsEnd (objects : Objects P) (links : Links P) : Prop :=
  ∀ oid o, findObject objects oid = some o → ∃ ks, Along objects links.across (links.down o) ks

/-- What a walk along the list `ks` does to the flags. -/
structure Marks (links : Links P) (ks : List Int) (fl fl' : Nat → BitVec 16) : Prop where
  other : ∀ k i, i ≠ links.flag → (fl' k).getLsbD i = (fl k).getLsbD i
  own : ∀ k : Nat, (fl' k).getLsbD links.flag = false →
    (fl k).getLsbD links.flag = false ∨ (k : Int) ∈ ks

lemma marks_update (links : Links P) (k : Nat) (fl : Nat → BitVec 16) :
    Marks links [(k : Int)] fl (Function.update fl k (fl k &&& ~~~ (1#16 <<< links.flag))) where
  other := by
    intro j i hi
    by_cases hj : j = k
    · subst hj
      rw [Function.update_self, getLsbD_and_not_shiftLeft_one]
      simp [hi]
    · rw [Function.update_of_ne hj]
  own := by
    intro j hj
    by_cases hjk : j = k
    · exact .inr (by simp [hjk])
    · rw [Function.update_of_ne hjk] at hj
      exact .inl hj

lemma Marks.cons {k : Int} {ks : List Int} {fl fl' : Nat → BitVec 16}
    (h : Marks links ks fl fl') : Marks links (k :: ks) fl fl' where
  other := h.other
  own := fun j hj => (h.own j hj).imp_right (List.mem_cons_of_mem k)

lemma Marks.trans {k : Int} {ks : List Int} {fl fl' fl'' : Nat → BitVec 16}
    (h : Marks links [k] fl fl') (h' : Marks links ks fl' fl'') :
    Marks links (k :: ks) fl fl'' where
  other := fun j i hi => (h'.other j i hi).trans (h.other j i hi)
  own := by
    intro j hj
    rcases h'.own j hj with hj | hj
    · exact (h.own j hj).imp_right fun hk => by simp_all
    · exact .inr (List.mem_cons_of_mem k hj)

/-- The walk along a list that ends. -/
lemma claim_spec (hl : links.Plain) (oid : Nat) {start : Int} {ks : List Int}
    (h : Along objects links.across start ks) {n : Nat} (hn : ks.length < n) (b : Bool)
    (fl : Nat → BitVec 16) :
    ∃ b' fl', claim links oid n start (b, reflag objects fl) = some (b', reflag objects fl') ∧
      Marks links ks fl fl' ∧ (b' = false → b = false ∧
        ∀ k ok, k ∈ ks → findObject objects k = some ok → links.up ok = oid) := by
  induction ks generalizing start n b fl with
  | nil =>
    obtain ⟨n, rfl⟩ : ∃ m, n = m + 1 := ⟨n - 1, by omega⟩
    have hend : start = nothing := h
    refine ⟨b, fl, by rw [claim, if_pos hend], ⟨fun _ _ _ => rfl, fun _ hk => .inl hk⟩, ?_⟩
    intro hb
    exact ⟨hb, by simp⟩
  | cons k ks ih =>
    obtain ⟨n, rfl⟩ : ∃ m, n = m + 1 := ⟨n - 1, by simp at hn; omega⟩
    obtain ⟨rfl, hne, o, ho, hrest⟩ := h
    have hlen : ks.length < n := by simpa using hn
    rw [claim, if_neg hne, findObject_reflag, ho]
    simp only [Option.map_some, Option.bind_eq_bind, Option.bind_some, hl.up, hl.across,
      modifyObject_reflag]
    split_ifs with hup
    · obtain ⟨b', fl', heq, hmarks, hb'⟩ := ih hrest hlen true fl
      refine ⟨b', fl', heq, hmarks.cons, fun hb => ?_⟩
      cases (hb' hb).1
    · obtain ⟨b', fl', heq, hmarks, hb'⟩ := ih hrest hlen b
        (Function.update fl start.toNat (fl start.toNat &&& ~~~ (1#16 <<< links.flag)))
      have hnat : (start.toNat : Int) = start := Int.toNat_of_nonneg (findObject_bounds ho).1
      have hfirst := marks_update links start.toNat fl
      rw [hnat] at hfirst
      refine ⟨b', fl', heq, hfirst.trans hmarks, fun hb => ⟨(hb' hb).1, ?_⟩⟩
      intro k ok hk hok
      rcases List.mem_cons.mp hk with rfl | hk
      · obtain rfl : o = ok := by simpa [ho] using hok
        exact not_not.mp hup
      · exact (hb' hb).2 k ok hk hok

lemma flag_ne : (parentLinks : Links P).flag ≠ (locationLinks : Links P).flag :=
  Nat.ne_of_lt (Nat.lt_succ_self _)

lemma Witnessed.marks {oid : Nat} {o : Object P} {ks : List Int} {fl fl' : Nat → BitVec 16}
    (h : Witnessed objects links fl) (ho : findObject objects oid = some o)
    (hks : Along objects links.across (links.down o) ks) (hm : Marks links ks fl fl') :
    Witnessed objects links fl' := by
  intro k hk hflag
  rcases hm.own k hflag with hold | hnew
  · exact h k hk hold
  · exact ⟨oid, o, ks, ho, hks, hnew⟩

/-- The flags of another hierarchy are left alone. -/
lemma Witnessed.other {links' : Links P} {ks : List Int} {fl fl' : Nat → BitVec 16}
    (h : Witnessed objects links fl) (hm : Marks links' ks fl fl')
    (hne : links.flag ≠ links'.flag) : Witnessed objects links fl' :=
  fun k hk hflag => h k hk ((hm.other k _ hne) ▸ hflag)

lemma honest_of_along {oid : Nat} {o : Object P} {ks : List Int}
    (ho : findObject objects oid = some o) (hks : Along objects links.across (links.down o) ks)
    (hup : ∀ k ok, k ∈ ks → findObject objects k = some ok → links.up ok = oid) :
    Honest objects links oid := by
  intro o' ho' ks' hks' k ok hk hok
  obtain rfl : o = o' := by simpa [ho] using ho'
  rw [hks'.unique hks] at hk
  exact hup k ok hk hok

/-- What phase 3a knows behind some of the objects. -/
structure Checked (objects : Objects P) (oids : List Nat) (b b' : Bool)
    (fl fl' : Nat → BitVec 16) : Prop where
  honest : b' = false → b = false ∧ ∀ oid ∈ oids,
    Honest objects parentLinks oid ∧ Honest objects locationLinks oid
  parents : Witnessed objects parentLinks fl → Witnessed objects parentLinks fl'
  locations : Witnessed objects locationLinks fl → Witnessed objects locationLinks fl'

lemma phase3a_spec (hp : ListsEnd objects parentLinks) (hloc : ListsEnd objects locationLinks)
    (oid : Nat) (b : Bool) (fl : Nat → BitVec 16) :
    ∃ b' fl', phase3a oid (b, reflag objects fl) = some (b', reflag objects fl') ∧
      Checked objects [oid] b b' fl fl' := by
  cases ho : findObject objects oid with
  | none =>
    have hv : ¬ isValid objects oid := by simp [isValid, ho]
    refine ⟨b, fl, phase3a_of_not_isValid hv b fl, ⟨fun hb => ⟨hb, ?_⟩, id, id⟩⟩
    intro k hk
    rw [List.mem_singleton.mp hk]
    constructor <;> intro o ho' <;> rw [ho] at ho' <;> cases ho'
  | some o =>
    obtain ⟨ks₁, hks₁⟩ := hp oid o ho
    obtain ⟨ks₂, hks₂⟩ := hloc oid o ho
    obtain ⟨b₁, fl₁, heq₁, hm₁, hb₁⟩ := claim_spec parentLinks_plain oid hks₁
      (Nat.lt_succ_of_le hks₁.length_le) b fl
    obtain ⟨b₂, fl₂, heq₂, hm₂, hb₂⟩ := claim_spec locationLinks_plain oid hks₂
      (Nat.lt_succ_of_le hks₂.length_le) b₁ fl₁
    refine ⟨b₂, fl₂, ?_, ⟨fun hb => ⟨(hb₁ (hb₂ hb).1).1, ?_⟩, ?_, ?_⟩⟩
    · unfold phase3a
      simp only [findObject_reflag, ho, Option.map_some, length_reflag, Option.bind_eq_bind]
      rw [show (parentLinks.down o : Int) = o.child from rfl] at heq₁
      rw [heq₁]
      exact heq₂
    · intro k hk
      rw [List.mem_singleton.mp hk]
      exact ⟨honest_of_along ho hks₁ (hb₁ (hb₂ hb).1).2, honest_of_along ho hks₂ (hb₂ hb).2⟩
    · intro h
      exact (h.marks ho hks₁ hm₁).other hm₂ flag_ne
    · intro h
      exact (h.other hm₁ flag_ne.symm).marks ho hks₂ hm₂

lemma phase3aLoop_spec (hp : ListsEnd objects parentLinks)
    (hloc : ListsEnd objects locationLinks) (oids : List Nat) (b : Bool)
    (fl : Nat → BitVec 16) :
    ∃ b' fl', phase3aLoop oids (b, reflag objects fl) = some (b', reflag objects fl') ∧
      Checked objects oids b b' fl fl' := by
  induction oids generalizing b fl with
  | nil => exact ⟨b, fl, rfl, ⟨fun hb => ⟨hb, by simp⟩, id, id⟩⟩
  | cons oid oids ih =>
    obtain ⟨b₁, fl₁, heq₁, h₁⟩ := phase3a_spec hp hloc oid b fl
    obtain ⟨b₂, fl₂, heq₂, h₂⟩ := ih b₁ fl₁
    refine ⟨b₂, fl₂, by rw [phase3aLoop, heq₁]; exact heq₂,
      ⟨fun hb => ?_, h₂.parents ∘ h₁.parents, h₂.locations ∘ h₁.locations⟩⟩
    obtain ⟨hb₁, hrest⟩ := h₂.honest hb
    obtain ⟨hb, hfirst⟩ := h₁.honest hb₁
    refine ⟨hb, fun k hk => ?_⟩
    rcases List.mem_cons.mp hk with rfl | hk
    · exact hfirst k List.mem_cons_self
    · exact hrest k hk

/-! ## The whole validation -/

lemma isValid_map {g : Object P → Object P} (oid : Int) :
    isValid (objects.map (Option.map g)) oid = isValid objects oid := by
  simp [isValid, findObject_map]

lemma checkLink_leads (link : Int) : Leads objects (checkLink objects link) := by
  unfold checkLink
  split_ifs with h
  · exact .inl rfl
  · by_cases hne : link = nothing
    · exact .inl hne
    · exact .inr (by_contra fun hv => h ⟨hne, hv⟩)

lemma closed_phase1 (hfield : ∀ o, ∃ link, field (phase1 objects o) = checkLink objects link) :
    Closed (objects.map (Option.map (phase1 objects))) field := by
  intro oid o' ho'
  rw [findObject_map] at ho'
  obtain ⟨o, -, rfl⟩ := Option.map_eq_some_iff.mp ho'
  obtain ⟨link, hlink⟩ := hfield o
  rw [hlink, Leads, isValid_map]
  exact checkLink_leads link

/-- Phase 1 leaves only links to objects. -/
lemma allClosed_phase1 (objects : Objects P) :
    AllClosed (objects.map (Option.map (phase1 objects))) where
  parent := closed_phase1 fun _ => ⟨_, rfl⟩
  child := closed_phase1 fun _ => ⟨_, rfl⟩
  sibling := closed_phase1 fun _ => ⟨_, rfl⟩
  location := closed_phase1 fun _ => ⟨_, rfl⟩
  contents := closed_phase1 fun _ => ⟨_, rfl⟩
  next := closed_phase1 fun _ => ⟨_, rfl⟩

lemma exists_mapM_eq {α β : Type} {f : α → Option β} {l : List α}
    (h : ∀ x ∈ l, ∃ y, f x = some y) :
    ∃ ys, l.mapM f = some ys ∧ ∀ x ∈ l, ∃ y ∈ ys, f x = some y := by
  induction l with
  | nil => exact ⟨[], rfl, by simp⟩
  | cons x l ih =>
    obtain ⟨y, hy⟩ := h x List.mem_cons_self
    obtain ⟨ys, hys, hall⟩ := ih fun z hz => h z (List.mem_cons_of_mem _ hz)
    refine ⟨y :: ys, by simp [List.mapM_cons, hy, hys], ?_⟩
    intro z hz
    rcases List.mem_cons.mp hz with rfl | hz
    · exact ⟨y, List.mem_cons_self, hy⟩
    · obtain ⟨y', hmem, hy'⟩ := hall z hz
      exact ⟨y', List.mem_cons_of_mem _ hmem, hy'⟩

lemma mem_filterMap_of_findObject {oid : Int} {o : Object P}
    (h : findObject objects oid = some o) : o ∈ objects.filterMap id := by
  unfold findObject at h
  split_ifs at h
  exact List.mem_filterMap.mpr ⟨some o, List.mem_of_getElem? (Option.join_eq_some_iff.mp h), rfl⟩

lemma map_clearTempFlags (fl : Nat → BitVec 16) :
    (reflag objects fl).map (Option.map clearTempFlags)
      = reflag objects fun i => fl i &&& ~~~ (3#16 <<< flagFirstTemp) := by
  apply List.ext_getElem?
  intro i
  unfold reflag
  rw [List.getElem?_map, List.getElem?_mapIdx, List.getElem?_mapIdx]
  cases objects[i]? with
  | none => rfl
  | some o => cases o <;> rfl

/-- The links do not depend on the flags. -/
lemma Consistent.reflag (h : Consistent objects links) (hl : links.Plain)
    (fl : Nat → BitVec 16) : Consistent (reflag objects fl) links where
  up := by
    intro oid o' ho'
    rw [findObject_reflag] at ho'
    obtain ⟨o, ho, rfl⟩ := Option.map_eq_some_iff.mp ho'
    obtain ⟨ks, hks⟩ := h.up oid o ho
    exact ⟨ks, hl.up o _ ▸ hks.reflag hl.up fl⟩
  down := by
    intro oid o' ho'
    rw [findObject_reflag] at ho'
    obtain ⟨o, ho, rfl⟩ := Option.map_eq_some_iff.mp ho'
    obtain ⟨ks, hks, hnodup, hiff⟩ := h.down oid o ho
    refine ⟨ks, hl.down o _ ▸ hks.reflag hl.across fl, hnodup, ?_⟩
    intro k ok' hok'
    rw [findObject_reflag] at hok'
    obtain ⟨ok, hok, rfl⟩ := Option.map_eq_some_iff.mp hok'
    rw [hl.up]
    exact hiff k ok hok

/-- Lists that are honest and claim everybody are consistent. -/
lemma consistent_of_checked (hl : links.Plain) (hup : Ends objects links.up)
    (hlists : ListsEnd objects links)
    (hhonest : ∀ oid, oid ∈ List.range objects.length → Honest objects links oid)
    {fl : Nat → BitVec 16} (hwit : Witnessed objects links fl)
    (hunclaimed : ∀ (k : Nat) o, findObject objects k = some o →
      unclaimed links { o with flags := fl k } = false) : Consistent objects links where
  up := hup
  down := by
    have hall : ∀ {oid : Int} {o : Object P}, findObject objects oid = some o →
        ((oid.toNat : Nat) : Int) = oid ∧ Honest objects links oid.toNat := by
      intro oid o ho
      obtain ⟨hpos, hlt⟩ := findObject_bounds ho
      exact ⟨Int.toNat_of_nonneg hpos, hhonest _ (List.mem_range.mpr hlt)⟩
    intro oid o ho
    obtain ⟨hoid, honest⟩ := hall ho
    obtain ⟨ks, hks⟩ := hlists oid o ho
    refine ⟨ks, hks, hks.nodup, fun k ok hok => ⟨fun hk => ?_, fun heq => ?_⟩⟩
    · rw [← hoid]
      exact honest o (by rw [hoid]; exact ho) ks hks k ok hk hok
    · -- the object is claimed, and the claim is an honest one
      obtain ⟨hk, -⟩ := hall hok
      have hflag : (fl k.toNat).getLsbD links.flag = false := by
        have hun := hunclaimed k.toNat ok (by rw [hk]; exact hok)
        unfold unclaimed at hun
        rw [hl.up, heq] at hun
        have hne : oid ≠ nothing := by
          rintro rfl
          exact absurd (findObject_bounds ho).1 (by decide)
        simpa [hne] using hun
      obtain ⟨p, po, ks', hpo, hks', hmem⟩ := hwit k.toNat
        (by rw [hk]; exact Option.isSome_iff_exists.mpr ⟨ok, hok⟩) hflag
      rw [hk] at hmem
      have hpk := (hall hpo).2
      rw [Int.toNat_natCast] at hpk
      have hup := hpk po hpo ks' hks' k ok hmem hok
      rw [heq] at hup
      subst hup
      obtain rfl : o = po := by simpa [ho] using hpo
      rw [hks.unique hks']
      exact hmem

lemma getLsbD_or_temp (b : BitVec 16) {i : Nat} (hi : i = flagFirstTemp ∨ i = flagFirstTemp + 1) :
    (b ||| 3#16 <<< flagFirstTemp).getLsbD i = true := by
  rcases hi with rfl | rfl <;> simp [flagFirstTemp]

/-- After phase 2 every object has the flag of each hierarchy. -/
lemma witnessed_tempFlags (hflag : links.flag = flagFirstTemp ∨ links.flag = flagFirstTemp + 1) :
    Witnessed objects links (tempFlags objects) := by
  intro k hk hclear
  obtain ⟨o, ho⟩ := Option.isSome_iff_exists.mp hk
  unfold tempFlags at hclear
  rw [ho, Option.map_some, Option.getD_some, setTempFlags, getLsbD_or_temp _ hflag] at hclear
  cases hclear

lemma unclaimed_eq_false {objects' : Objects P}
    (h : (objects'.filterMap id).any (fun o =>
      unclaimed parentLinks o || unclaimed locationLinks o) = false) (oid : Int) {o : Object P}
    (ho : findObject objects' oid = some o) :
    unclaimed parentLinks o = false ∧ unclaimed locationLinks o = false := by
  have hun := List.any_eq_false.mp h o (mem_filterMap_of_findObject ho)
  simpa using hun

lemma validation_consistent (objects : Objects P) :
    ∃ ok objects', validation objects = some (ok, objects') ∧
      (ok = true → Consistent objects' parentLinks ∧ Consistent objects' locationLinks) := by
  have hclosed := allClosed_phase1 objects
  unfold validation
  generalize objects.map (Option.map (phase1 objects)) = objects at hclosed ⊢
  obtain ⟨bs, hbs, hall⟩ := exists_mapM_eq (f := phase2 objects) (l := objects.filterMap id)
    (by
      intro o ho
      obtain ⟨i, hi⟩ := exists_findObject_of_mem ho
      obtain ⟨b, hb, -⟩ := hclosed.phase2_eq hi
      exact ⟨b, hb⟩)
  simp only [hbs, Option.bind_eq_bind, Option.bind_some, map_setTempFlags, length_reflag]
  split_ifs with hany
  · exact ⟨false, _, rfl, fun h => by cases h⟩
  have hunbroken : ∀ oid o, findObject objects oid = some o → Unbroken objects o := by
    intro oid o ho
    obtain ⟨b, hmem, hb⟩ := hall o (mem_filterMap_of_findObject ho)
    obtain ⟨b', hb', himp⟩ := hclosed.phase2_eq ho
    obtain rfl : b = b' := by simpa [hb] using hb'
    have hfalse := List.any_eq_false.mp (Bool.not_eq_true _ ▸ hany) b hmem
    exact himp (by simpa using hfalse)
  obtain ⟨b, fl, heq, hcheck⟩ := phase3aLoop_spec (fun oid o ho => (hunbroken oid o ho).child)
    (fun oid o ho => (hunbroken oid o ho).contents) (List.range objects.length) false
    (tempFlags objects)
  rw [heq]
  refine ⟨_, _, rfl, fun hok => ?_⟩
  simp only [Bool.not_eq_true', Bool.or_eq_false_iff] at hok
  obtain ⟨rfl, hun⟩ := hok
  obtain ⟨-, hhonest⟩ := hcheck.honest rfl
  have hunclaimed : ∀ (k : Nat) o, findObject objects k = some o →
      unclaimed parentLinks { o with flags := fl k } = false ∧
        unclaimed locationLinks { o with flags := fl k } = false := by
    intro k o ho
    refine unclaimed_eq_false hun k ?_
    rw [findObject_reflag, ho]
    rfl
  rw [map_clearTempFlags]
  constructor
  · refine Consistent.reflag (consistent_of_checked parentLinks_plain ?_ ?_ ?_
      (hcheck.parents (witnessed_tempFlags (.inl rfl))) ?_) parentLinks_plain _
    · exact fun oid o ho => (hunbroken oid o ho).parent
    · exact fun oid o ho => (hunbroken oid o ho).child
    · exact fun oid hoid => (hhonest oid hoid).1
    · exact fun k o ho => (hunclaimed k o ho).1
  · refine Consistent.reflag (consistent_of_checked locationLinks_plain ?_ ?_ ?_
      (hcheck.locations (witnessed_tempFlags (.inr rfl))) ?_) locationLinks_plain _
    · exact fun oid o ho => (hunbroken oid o ho).location
    · exact fun oid o ho => (hunbroken oid o ho).contents
    · exact fun oid hoid => (hhonest oid hoid).2
    · exact fun k o ho => (hunclaimed k o ho).2

/-- Validation comes to an end, and where it reports success the hierarchies fit together. -/
theorem validation_spec (objects : Objects P) :
    ∃ ok objects', validation objects = some (ok, objects') ∧
      (ok = true → Consistent objects' parentLinks ∧ Consistent objects' locationLinks) :=
  validation_consistent objects

/-- An object without a parent that is its own sibling. -/
def ownSibling : Object Unit :=
  { name := "", flags := 0, owner := 0, location := nothing, contents := nothing,
    next := nothing, parent := nothing, child := nothing, sibling := 0, verbdefs := [],
    propdefs := [], propval := [], waifPropdefs := none }

/-- Validation does not look at the sibling of an object that is on no list. -/
theorem validation_ownSibling :
    validation [some ownSibling] = some (true, [some ownSibling]) ∧
      ¬ Ends [some ownSibling] Object.sibling := by
  refine ⟨rfl, fun hends => ?_⟩
  obtain ⟨ks, hks⟩ := hends 0 ownSibling rfl
  -- the chain is one longer than itself
  have hcycle : Along [some ownSibling] Object.sibling 0 (0 :: ks) :=
    ⟨rfl, by decide, ownSibling, rfl, hks⟩
  have hlen := congrArg List.length (hks.unique hcycle)
  rw [List.length_cons] at hlen
  omega

end Db

end LambdaMOO
