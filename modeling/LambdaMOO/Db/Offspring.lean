import LambdaMOO.Db.Lines

/-!
# Trees of descendants

The recursions of `db_properties.c` down from an object visit everybody below it, each once, with
the number of the definitions in between.
-/

namespace LambdaMOO

namespace Db

variable {P : Type} {objects objects' : Objects P}

/-- A list of objects, each with those below it. -/
inductive Offspring where
  | nil
  | cons (k : Int) (below beside : Offspring)

namespace Offspring

def tops : Offspring → List Int
  | .nil => []
  | .cons k _ beside => k :: beside.tops

def members : Offspring → List Int
  | .nil => []
  | .cons k below beside => k :: (below.members ++ beside.members)

def height : Offspring → Nat
  | .nil => 0
  | .cons _ below beside => max below.height beside.height + 1

/-- The calls of a recursion that adds the number of definitions on the way down. -/
def visits (len : Int → Nat) : Offspring → Nat → List (Int × Nat)
  | .nil, _ => []
  | .cons k below beside, pos =>
    (k, pos) :: (below.visits len (pos + len k) ++ beside.visits len pos)

lemma map_visits (len : Int → Nat) (f : Offspring) (pos : Nat) :
    (f.visits len pos).map Prod.fst = f.members := by
  induction f generalizing pos with
  | nil => rfl
  | cons k below beside ihb ihs => simp [visits, members, ihb, ihs]

lemma mem_members {len : Int → Nat} {f : Offspring} {pos : Nat} {x : Int} {p : Nat}
    (hx : (x, p) ∈ f.visits len pos) : x ∈ f.members := by
  rw [← map_visits len f pos]
  exact List.mem_map_of_mem hx

lemma exists_mem_visits (len : Int → Nat) {f : Offspring} (pos : Nat) {x : Int}
    (hx : x ∈ f.members) : ∃ p, (x, p) ∈ f.visits len pos := by
  rw [← map_visits len f pos, List.mem_map] at hx
  obtain ⟨⟨_, p⟩, hmem, rfl⟩ := hx
  exact ⟨p, hmem⟩

lemma tops_subset_members (f : Offspring) : f.tops ⊆ f.members := by
  induction f with
  | nil => simp [tops]
  | cons k below beside _ ihs =>
    intro x hx
    rcases List.mem_cons.mp hx with rfl | hx
    · simp [members]
    · simp [members, ihs hx]

lemma height_le (f : Offspring) : f.height ≤ f.members.length := by
  induction f with
  | nil => simp [height]
  | cons k below beside ihb ihs =>
    simp only [height, members, List.length_cons, List.length_append]
    omega

end Offspring

/-- The list of children from `start` on, whose parent is `q`, with everybody below. -/
def Hangs (objects : Objects P) : Int → Int → Offspring → Prop
  | _, start, .nil => start = nothing
  | q, start, .cons k below beside => start = k ∧ k ≠ nothing ∧
      ∃ o, findObject objects k = some o ∧ o.parent = q ∧ Hangs objects k o.child below ∧
        Hangs objects q o.sibling beside

namespace Hangs

variable {q start : Int} {f : Offspring} {ks : List Int}

lemma along (h : Hangs objects q start f) : Along objects Object.sibling start f.tops := by
  induction f generalizing q start with
  | nil => exact h
  | cons k below beside _ ihs =>
    obtain ⟨rfl, hne, o, ho, -, -, hs⟩ := h
    exact ⟨rfl, hne, o, ho, ihs hs⟩

lemma isValid (h : Hangs objects q start f) {x : Int} (hx : x ∈ f.members) :
    isValid objects x := by
  induction f generalizing q start with
  | nil => simp [Offspring.members] at hx
  | cons k below beside ihb ihs =>
    obtain ⟨rfl, -, o, ho, -, hb, hs⟩ := h
    rw [Offspring.members, List.mem_cons, List.mem_append] at hx
    rcases hx with rfl | hx | hx
    · exact isValid_of_findObject ho
    · exact ihb hb hx
    · exact ihs hs hx

/-- The number of definitions an object is visited with, told by its line. -/
lemma line_of_visit (h : Hangs objects q start f) (hq : Along objects Object.parent q ks)
    {pos : Nat} {x : Int} {p : Nat}
    (hx : (x, p) ∈ f.visits (fun k => (defs objects k).length) pos) :
    ∃ pre t, t ∈ f.tops ∧ Along objects Object.parent x (pre ++ t :: ks) ∧
      p + (defs objects x).length = pos + ((pre ++ [t]).flatMap (defs objects)).length := by
  induction f generalizing q start ks pos with
  | nil => simp [Offspring.visits] at hx
  | cons k below beside ihb ihs =>
    obtain ⟨rfl, hne, o, ho, rfl, hb, hs⟩ := h
    have hk := hq.cons_self ho
    rw [Offspring.visits, List.mem_cons, List.mem_append] at hx
    rcases hx with heq | hx | hx
    · obtain ⟨rfl, rfl⟩ := Prod.mk.inj heq
      exact ⟨[], x, by simp [Offspring.tops], hk, by simp⟩
    · obtain ⟨pre, t, -, hline, hp⟩ := ihb hb hk hx
      refine ⟨pre ++ [t], start, by simp [Offspring.tops], by simpa using hline, ?_⟩
      rw [hp]
      simp only [List.flatMap_append, List.length_append, List.flatMap_singleton]
      omega
    · obtain ⟨pre, t, ht, hline, hp⟩ := ihs hs hq hx
      exact ⟨pre, t, by simp [Offspring.tops, ht], hline, hp⟩

lemma line_of_mem (h : Hangs objects q start f) (hq : Along objects Object.parent q ks) {x : Int}
    (hx : x ∈ f.members) :
    ∃ pre t, t ∈ f.tops ∧ Along objects Object.parent x (pre ++ t :: ks) := by
  obtain ⟨p, hvisit⟩ := Offspring.exists_mem_visits (fun k => (defs objects k).length) 0 hx
  obtain ⟨pre, t, ht, hline, -⟩ := h.line_of_visit hq hvisit
  exact ⟨pre, t, ht, hline⟩

lemma nodup_members (h : Hangs objects q start f) (hq : Along objects Object.parent q ks) :
    f.members.Nodup := by
  induction f generalizing q start ks with
  | nil => exact List.nodup_nil
  | cons k below beside ihb ihs =>
    have htops : k ∉ beside.tops := (List.nodup_cons.mp h.along.nodup).1
    obtain ⟨rfl, hne, o, ho, rfl, hb, hs⟩ := h
    have hk := hq.cons_self ho
    rw [Offspring.members, List.nodup_cons, List.mem_append, List.nodup_append]
    refine ⟨?_, ihb hb hk, ihs hs hq, ?_⟩
    · rintro (hmem | hmem)
      · obtain ⟨pre, t, -, hline⟩ := hb.line_of_mem hk hmem
        have hlen := congrArg List.length (hline.unique hk)
        simp at hlen
        omega
      · obtain ⟨pre, t, ht, hline⟩ := hs.line_of_mem hq hmem
        have heq : pre ++ t :: ks = [] ++ start :: ks := hline.unique hk
        obtain ⟨-, heq⟩ := List.append_inj' heq rfl
        exact htops ((List.cons.inj heq).1 ▸ ht)
    · rintro x hxb y hys rfl
      obtain ⟨pre, t, -, hline⟩ := hb.line_of_mem hk hxb
      obtain ⟨pre', t', ht', hline'⟩ := hs.line_of_mem hq hys
      have heq : (pre ++ [t]) ++ start :: ks = pre' ++ t' :: ks := by
        simpa using hline.unique hline'
      obtain ⟨-, heq⟩ := List.append_inj' heq rfl
      exact htops ((List.cons.inj heq).1 ▸ ht')

lemma height_le (h : Hangs objects q start f) (hq : Along objects Object.parent q ks) :
    f.height ≤ objects.length :=
  f.height_le.trans (length_le_of_nodup (h.nodup_members hq) fun _ hk => h.isValid hk)

/-- The object the list is about is not on it. -/
lemma notMem (h : Hangs objects q start f) (hq : Along objects Object.parent q (q :: ks)) :
    q ∉ f.members := by
  intro hmem
  obtain ⟨pre, t, -, hline⟩ := h.line_of_mem hq hmem
  have hlen := congrArg List.length (hline.unique hq)
  simp at hlen
  omega

/-- The tree below one that is on the list. -/
lemma exists_of_mem_tops (h : Hangs objects q start f) {t : Int} (ht : t ∈ f.tops) :
    ∃ o below, findObject objects t = some o ∧ Hangs objects t o.child below ∧
      ∀ x ∈ below.members, x ∈ f.members := by
  induction f generalizing start with
  | nil => simp [Offspring.tops] at ht
  | cons k below beside _ ihs =>
    obtain ⟨rfl, -, o, ho, -, hb, hs⟩ := h
    rcases List.mem_cons.mp ht with rfl | ht
    · exact ⟨o, below, ho, hb, fun x hx => by simp [Offspring.members, hx]⟩
    · obtain ⟨o', below', ho', hb', hsub⟩ := ihs hs ht
      exact ⟨o', below', ho', hb', fun x hx => by simp [Offspring.members, hsub x hx]⟩

/-- Everybody whose line leads through the object is in the tree. -/
lemma mem_of_along (hc : Consistent objects parentLinks) {w : Object P}
    (hw : findObject objects q = some w) (h : Hangs objects q w.child f) {x : Int}
    {pre : List Int} (hx : Along objects Object.parent x (pre ++ q :: ks)) (hne : x ≠ q) :
    x ∈ f.members := by
  induction pre using List.reverseRecOn generalizing q w f ks with
  | nil => exact absurd hx.1 hne
  | append_singleton pre t ih =>
    rw [List.append_assoc] at hx
    obtain ⟨-, -, ot, hot, hrest⟩ := hx.suffix
    have htq : ot.parent = q := hrest.1
    obtain ⟨cs, hcs, -, hiff⟩ := hc.down q w hw
    have ht : t ∈ f.tops := h.along.unique hcs ▸ (hiff t ot hot).mpr htq
    by_cases hxt : x = t
    · exact hxt ▸ f.tops_subset_members ht
    · obtain ⟨o, below, ho, hb, hsub⟩ := h.exists_of_mem_tops ht
      exact hsub x (ih ho hb hx hxt)

end Hangs

/-! ## Every object has its tree -/

/-- The trees below the objects of a list are one tree together. -/
lemma exists_hangs_along {q start : Int} {cs : List Int}
    (hcs : Along objects Object.sibling start cs)
    (hall : ∀ c ∈ cs, ∀ o, findObject objects c = some o →
      o.parent = q ∧ ∃ f, Hangs objects c o.child f) :
    ∃ f, Hangs objects q start f := by
  induction cs generalizing start with
  | nil => exact ⟨.nil, hcs⟩
  | cons c cs ih =>
    obtain ⟨rfl, hne, o, ho, hrest⟩ := hcs
    obtain ⟨hparent, below, hb⟩ := hall start List.mem_cons_self o ho
    obtain ⟨beside, hs⟩ := ih hrest fun c hc => hall c (List.mem_cons_of_mem _ hc)
    exact ⟨.cons start below beside, rfl, hne, o, ho, hparent, hb, hs⟩

lemma Consistent.exists_hangs (hc : Consistent objects parentLinks) {q : Int} {w : Object P}
    (hw : findObject objects q = some w) : ∃ f, Hangs objects q w.child f := by
  -- the longer the line up, the less there is below
  suffices hall : ∀ m q w ks, findObject objects q = some w →
      Along objects Object.parent q ks → objects.length ≤ ks.length + m →
      ∃ f, Hangs objects q w.child f by
    obtain ⟨ks, hks⟩ := hc.up q w hw
    exact hall objects.length q w (q :: ks) hw (hks.cons_self hw) (by omega)
  intro m
  induction m with
  | zero =>
    intro q w ks hw hks hm
    obtain ⟨cs, hcs, -, hiff⟩ := hc.down q w hw
    refine exists_hangs_along hcs fun c hmem o ho => ?_
    have hparent : o.parent = q := (hiff c o ho).mp hmem
    have hlen := (Along.cons_self ho (hparent ▸ hks)).length_le
    simp only [List.length_cons] at hlen
    omega
  | succ m ih =>
    intro q w ks hw hks hm
    obtain ⟨cs, hcs, -, hiff⟩ := hc.down q w hw
    refine exists_hangs_along hcs fun c hmem o ho => ?_
    have hparent : o.parent = q := (hiff c o ho).mp hmem
    refine ⟨hparent, ih c o (c :: ks) ho (Along.cons_self ho (hparent ▸ hks)) ?_⟩
    simp only [List.length_cons]
    omega

lemma Hangs.below_iff (hc : Consistent objects parentLinks) {oid : Int} {o : Object P}
    (ho : findObject objects oid = some o) {f : Offspring} (hf : Hangs objects oid o.child f)
    {x : Int} : Below objects oid x ↔ x = oid ∨ x ∈ f.members := by
  obtain ⟨ks, hks⟩ := hc.up oid o ho
  have hoid := hks.cons_self ho
  constructor
  · rintro ⟨pre, post, hline⟩
    by_cases hx : x = oid
    · exact .inl hx
    · exact .inr (Hangs.mem_of_along hc ho hf hline hx)
  · rintro (rfl | hx)
    · exact ⟨[], ks, hoid⟩
    · obtain ⟨pre, t, -, hline⟩ := hf.line_of_mem hoid hx
      exact ⟨pre ++ [t], ks, by simpa using hline⟩

/-! ## The search for definitions -/

/-- The object with the number defines the property. -/
def definesAt (objects : Objects P) (pname : String) (x : Int) : Bool :=
  (defs objects x).any fun p => strEqual p.name pname

lemma definesAt_eq {pname : String} {x : Int} {o : Object P} (ho : findObject objects x = some o) :
    definesAt objects pname x = defines o pname := by
  rw [definesAt, defs_eq ho, defines]

lemma Hangs.definedOnList_eq {q start : Int} {f : Offspring} (h : Hangs objects q start f)
    (pname : String) {n : Nat} (hn : f.height < n) :
    definedOnList objects pname n start = some (f.members.any (definesAt objects pname)) := by
  induction f generalizing q start n with
  | nil =>
    obtain ⟨n, rfl⟩ : ∃ m, n = m + 1 := ⟨n - 1, by omega⟩
    rw [show start = nothing from h]
    rfl
  | cons k below beside ihb ihs =>
    obtain ⟨n, rfl⟩ : ∃ m, n = m + 1 := ⟨n - 1, by omega⟩
    obtain ⟨rfl, hne, o, ho, -, hb, hs⟩ := h
    rw [Offspring.height] at hn
    simp only [definedOnList, if_neg hne, ho, Option.bind_eq_bind, Option.bind_some,
      ihb hb (n := n) (by omega), ihs hs (n := n) (by omega), Offspring.members, List.any_cons,
      List.any_append, definesAt_eq ho]
    cases defines o pname
    · cases below.members.any (definesAt objects pname) <;> rfl
    · rfl

/-- `property_defined_at_or_below` says whether the object or one below defines the property. -/
lemma definedAtOrBelow_spec (hc : Consistent objects parentLinks) {oid : Int} {o : Object P}
    (ho : findObject objects oid = some o) (pname : String) :
    ∃ b, definedAtOrBelow objects pname oid = some b ∧
      (b = true ↔ ∃ x, Below objects oid x ∧ definesAt objects pname x) := by
  obtain ⟨ks, hks⟩ := hc.up oid o ho
  have hoid := hks.cons_self ho
  obtain ⟨f, hf⟩ := hc.exists_hangs ho
  have hheight : f.height < objects.length + 1 := Nat.lt_succ_of_le (hf.height_le hoid)
  refine ⟨(oid :: f.members).any (definesAt objects pname), ?_, ?_⟩
  · simp only [definedAtOrBelow, ho, Option.bind_eq_bind, Option.bind_some,
      hf.definedOnList_eq pname hheight, List.any_cons, definesAt_eq ho]
    cases defines o pname <;> rfl
  · rw [List.any_eq_true]
    exact exists_congr fun x => and_congr_left fun _ => by
      rw [hf.below_iff hc ho, List.mem_cons]

/-! ## Walks -/

/-- What `act` does to each visited object with the number it is visited with: it succeeds as
long as the parent is ready for it, and leaves the object ready for its children. -/
def Acts (objects : Objects P) (act : Objects P → Int → Nat → Option (Objects P))
    (ready : Nat → Object P → Prop) (effect : Nat → Object P → Object P → Prop)
    (calls : List (Int × Nat)) : Prop :=
  ∀ x p, (x, p) ∈ calls → ∀ cur o oq, Alike objects cur → findObject objects x = some o →
    findObject cur x = some o → findObject cur o.parent = some oq → ready p oq →
    ∃ o', act cur x p = some (put cur x o') ∧ o'.frame = o.frame ∧ effect p o o' ∧
      ready (p + o.propdefs.length) o'

/-- The visited objects have been acted on; nothing else has changed. -/
structure Walked (objects cur cur' : Objects P) (effect : Nat → Object P → Object P → Prop)
    (calls : List (Int × Nat)) : Prop where
  alike : Alike cur cur'
  visited : ∀ x p, (x, p) ∈ calls → ∀ o, findObject objects x = some o →
    ∃ o', findObject cur' x = some o' ∧ effect p o o'
  other : ∀ x, x ∉ calls.map Prod.fst → findObject cur' x = findObject cur x

lemma forChildren_spec {act : Objects P → Int → Nat → Option (Objects P)}
    {ready : Nat → Object P → Prop} {effect : Nat → Object P → Object P → Prop} {q start : Int}
    {f : Offspring} (h : Hangs objects q start f) (hnodup : f.members.Nodup) (hq : q ∉ f.members)
    {pos n : Nat} (hn : f.height < n)
    (hact : Acts objects act ready effect (f.visits (fun k => (defs objects k).length) pos))
    {cur : Objects P} {oq : Object P} (hcur : Alike objects cur)
    (hsame : ∀ x ∈ f.members, findObject cur x = findObject objects x)
    (hoq : findObject cur q = some oq) (hready : ready pos oq) :
    ∃ cur', forChildren act n start pos cur = some cur' ∧
      Walked objects cur cur' effect (f.visits (fun k => (defs objects k).length) pos) := by
  induction f generalizing q start pos n cur oq with
  | nil =>
    obtain ⟨n, rfl⟩ : ∃ m, n = m + 1 := ⟨n - 1, by omega⟩
    rw [show start = nothing from h]
    exact ⟨cur, rfl, .refl, fun x p hx => by simp [Offspring.visits] at hx, fun _ _ => rfl⟩
  | cons k below beside ihb ihs =>
    obtain ⟨n, rfl⟩ : ∃ m, n = m + 1 := ⟨n - 1, by omega⟩
    obtain ⟨rfl, hne, o, ho, rfl, hb, hs⟩ := h
    rw [Offspring.height] at hn
    simp only [Offspring.visits, defs_eq ho] at hact ⊢
    rw [Offspring.members, List.nodup_cons, List.mem_append, not_or, List.nodup_append] at hnodup
    obtain ⟨⟨hkb, hks⟩, hnb, hns, hapart⟩ := hnodup
    simp only [Offspring.members, List.mem_cons, List.mem_append, not_or] at hq
    obtain ⟨hqk, hqb, hqs⟩ := hq
    have hok : findObject cur start = some o := by
      rw [hsame start (by simp [Offspring.members]), ho]
    -- the object itself
    obtain ⟨o', heq, hframe, heffect, hready'⟩ := hact start pos List.mem_cons_self cur o oq hcur ho
      hok hoq hready
    have hchild : o'.child = o.child := Object.eq_of_frame _ (fun _ => rfl) hframe
    have hsibling : o'.sibling = o.sibling := Object.eq_of_frame _ (fun _ => rfl) hframe
    have hdefs : o'.propdefs = o.propdefs := Object.eq_of_frame _ (fun _ => rfl) hframe
    have hput := findObject_put hok o'
    have halike : Alike cur (put cur start o') := .put hok hframe
    -- those below it
    obtain ⟨cur₁, heq₁, hw₁⟩ := ihb hb hnb hkb (n := n) (by omega)
      (fun x p hx => hact x p (by simp [hx])) (hcur.trans halike)
      (fun x hx => by
        rw [hput, if_neg fun (h : x = start) => hkb (h ▸ hx),
          hsame x (by simp [Offspring.members, hx])])
      (show findObject (put cur start o') start = some o' by rw [hput, if_pos rfl]) hready'
    have hfind₁ : ∀ x, x ≠ start → x ∉ below.members →
        findObject cur₁ x = findObject cur x := by
      intro x hxk hxb
      rw [hw₁.other x (by rwa [Offspring.map_visits]), hput, if_neg hxk]
    have hself₁ : findObject cur₁ start = some o' := by
      rw [hw₁.other start (by rwa [Offspring.map_visits]), hput, if_pos rfl]
    -- those beside it
    obtain ⟨cur₂, heq₂, hw₂⟩ := ihs hs hns hqs (n := n) (by omega)
      (fun x p hx => hact x p (by simp [hx])) ((hcur.trans halike).trans hw₁.alike)
      (fun x hx => by
        rw [hfind₁ x (fun h => hks (h ▸ hx)) (fun hxb => hapart x hxb x hx rfl),
          hsame x (by simp [Offspring.members, hx])])
      (show findObject cur₁ o.parent = some oq by rw [hfind₁ _ hqk hqb, hoq]) hready
    refine ⟨cur₂, ?_, (halike.trans hw₁.alike).trans hw₂.alike, ?_, ?_⟩
    · simp only [forChildren, if_neg hne, heq, Option.bind_eq_bind, Option.bind_some, hput,
        if_true, hchild, hdefs, heq₁, hself₁, hsibling, heq₂]
    · intro x p hx ox hox
      rw [List.mem_cons, List.mem_append] at hx
      rcases hx with hx | hx | hx
      · obtain ⟨rfl, rfl⟩ := Prod.mk.inj hx
        rw [ho] at hox
        cases hox
        exact ⟨o', by rw [hw₂.other x (by rwa [Offspring.map_visits]), hself₁], heffect⟩
      · obtain ⟨ox', hox', heffect'⟩ := hw₁.visited x p hx ox hox
        refine ⟨ox', ?_, heffect'⟩
        rw [hw₂.other x, hox']
        rw [Offspring.map_visits]
        exact fun hxs => hapart x (Offspring.mem_members hx) x hxs rfl
      · exact hw₂.visited x p hx ox hox
    · intro x hx
      simp only [List.map_cons, List.map_append, Offspring.map_visits, List.mem_cons,
        List.mem_append, not_or] at hx
      rw [hw₂.other x (by rw [Offspring.map_visits]; exact hx.2.2), hfind₁ x hx.1 hx.2.1]

/-- A walk from an object on has left `o'` of it. Those below it have been acted on with the number
of the definitions on the line between. -/
structure Cascade (objects objects' : Objects P) (oid : Int) (o' : Object P) (pos : Nat)
    (effect : Nat → Object P → Object P → Prop) : Prop where
  alike : Alike objects objects'
  self : findObject objects' oid = some o'
  below : ∀ x o pre ks, Along objects Object.parent x (pre ++ oid :: ks) → x ≠ oid →
    findObject objects x = some o → ∃ o' p, findObject objects' x = some o' ∧
      p + o.propdefs.length = pos + (pre.flatMap (defs objects)).length ∧ effect p o o'
  other : ∀ x, ¬ Below objects oid x → findObject objects' x = findObject objects x

lemma exists_cascade (act : Objects P → Int → Nat → Option (Objects P))
    (ready : Nat → Object P → Prop) (effect : Nat → Object P → Object P → Prop) (pos : Nat)
    (hc : Consistent objects parentLinks) {oid : Int} {o o' : Object P}
    (ho : findObject objects oid = some o) (hframe : o'.frame = o.frame)
    (hready : ready pos o')
    (hact : ∀ x ox pre ks p, Along objects Object.parent x (pre ++ oid :: ks) →
      findObject objects x = some ox →
      p + ox.propdefs.length = pos + (pre.flatMap (defs objects)).length →
      ∀ cur oq, Alike objects cur → findObject cur x = some ox →
        findObject cur ox.parent = some oq → ready p oq →
        ∃ ox', act cur x p = some (put cur x ox') ∧ ox'.frame = ox.frame ∧ effect p ox ox' ∧
          ready (p + ox.propdefs.length) ox') :
    ∃ objects', forChildren act (objects.length + 1) o.child pos (put objects oid o')
        = some objects' ∧
      Cascade objects objects' oid o' pos effect := by
  obtain ⟨ks, hks⟩ := hc.up oid o ho
  have hoid := hks.cons_self ho
  obtain ⟨f, hf⟩ := hc.exists_hangs ho
  have hnot := hf.notMem hoid
  have hput := findObject_put ho o'
  have halike : Alike objects (put objects oid o') := .put ho hframe
  have hacts : Acts objects act ready effect
      (f.visits (fun k => (defs objects k).length) pos) := by
    intro x p hx cur ox oq hcur hox hcx hoq hrdy
    obtain ⟨pre, t, -, hline, hp⟩ := hf.line_of_visit hoid hx
    rw [defs_eq hox] at hp
    exact hact x ox (pre ++ [t]) ks p (by simpa using hline) hox hp cur oq hcur hcx hoq hrdy
  obtain ⟨objects', heq, hw⟩ := forChildren_spec hf (hf.nodup_members hoid) hnot
    (Nat.lt_succ_of_le (hf.height_le hoid)) hacts halike
    (fun x hx => by rw [hput, if_neg fun (h : x = oid) => hnot (h ▸ hx)])
    (show findObject (put objects oid o') oid = some o' by rw [hput, if_pos rfl]) hready
  refine ⟨objects', heq, halike.trans hw.alike, ?_, ?_, ?_⟩
  · rw [hw.other oid (by rwa [Offspring.map_visits]), hput, if_pos rfl]
  · intro x ox pre ks' hline hne hox
    have hx : x ∈ f.members :=
      ((hf.below_iff hc ho).mp ⟨pre, ks', hline⟩).resolve_left hne
    obtain ⟨p, hvisit⟩ := Offspring.exists_mem_visits (fun k => (defs objects k).length) pos hx
    obtain ⟨ox', hox', heffect⟩ := hw.visited x p hvisit ox hox
    obtain ⟨pre', t, -, hline', hp⟩ := hf.line_of_visit hoid hvisit
    have hsame : pre ++ oid :: ks' = (pre' ++ [t]) ++ oid :: ks := by
      simpa using hline.unique hline'
    obtain ⟨-, -, o₂, ho₂, hrest⟩ := hline.suffix
    rw [ho] at ho₂
    cases ho₂
    obtain rfl := hrest.unique hks
    rw [List.append_cancel_right hsame]
    rw [defs_eq hox] at hp
    exact ⟨ox', p, hox', hp, heffect⟩
  · intro x hx
    rw [hf.below_iff hc ho, not_or] at hx
    rw [hw.other x (by rw [Offspring.map_visits]; exact hx.2), hput, if_neg hx.1]

end Db

end LambdaMOO
