import LambdaMOO.Db.Shift

/-!
# Changing the parent

The slots for the definitions up to the nearest common ancestor of the old and the new parent make
room for those on the new side. The object is only moved if none of the names on the new side is
defined at it or below.
-/

namespace LambdaMOO

namespace Db

variable {P : Type} {objects objects' : Objects P}

/-! ## The check -/

lemma anyDefined_spec (hc : Consistent objects parentLinks) {oid : Int} {o : Object P}
    (ho : findObject objects oid = some o) (ps : List Propdef) :
    ∃ b, anyDefined objects oid ps = some b ∧
      (b = true ↔ ∃ p ∈ ps, ∃ x, Below objects oid x ∧ definesAt objects p.name x) := by
  induction ps with
  | nil => exact ⟨false, rfl, by simp⟩
  | cons p ps ih =>
    obtain ⟨b, hb, hiff⟩ := ih
    obtain ⟨found, hfound, hfoundIff⟩ := definedAtOrBelow_spec hc ho p.name
    cases found with
    | true =>
      refine ⟨true, ?_, iff_of_true rfl ⟨p, List.mem_cons_self, hfoundIff.mp rfl⟩⟩
      simp only [anyDefined, hfound, Option.bind_eq_bind, Option.bind_some, if_true]
      rfl
    | false =>
      refine ⟨b, ?_, ?_⟩
      · simpa only [anyDefined, hfound, Option.bind_eq_bind, Option.bind_some,
          Bool.false_eq_true, if_false] using hb
      · rw [hiff, List.exists_mem_cons_iff, ← hfoundIff]
        simp

/-- No name that comes with the new parent is defined at the object or below. -/
def Fits (objects : Objects P) (oid parent : Int) : Prop :=
  ∀ x, Below objects oid x → ∀ p ∈ defs objects x, ∀ q ∈ lineProps objects parent, Differ p q

lemma checkPropertiesForChparent_spec (hc : Consistent objects parentLinks) {oid : Int}
    {o : Object P} (ho : findObject objects oid = some o) (parent : Int) :
    ∃ b, checkPropertiesForChparent objects oid parent = some b ∧
      (b = true ↔ Fits objects oid parent) := by
  obtain ⟨b, hb, hiff⟩ := anyDefined_spec hc ho (lineProps objects parent)
  refine ⟨!b, by simp [checkPropertiesForChparent, hb], ?_⟩
  rw [Bool.not_eq_true', ← Bool.not_eq_true, hiff]
  simp only [Fits, differ_iff, definesAt, List.any_eq_true]
  constructor
  · exact fun h x hx p hp q hq heq => h ⟨q, hq, x, hx, p, hp, heq⟩
  · rintro h ⟨q, hq, x, hx, p, hp, heq⟩
    exact h x hx p hp q hq heq

/-! ## The nearest common ancestor -/

/-- Two lines part before they are one. -/
lemma exists_common {field : Object P → Int} {start start' : Int} {ks ks' : List Int}
    (h : Along objects field start ks) (h' : Along objects field start' ks') :
    ∃ as bs cs, ks = as ++ cs ∧ ks' = bs ++ cs ∧
      ks.find? (fun k => ks'.contains k) = cs.head? ∧ ∀ k ∈ as, k ∉ bs := by
  cases hfind : ks.find? fun k => ks'.contains k with
  | none =>
    refine ⟨ks, ks', [], by simp, by simp, rfl, fun k hk hk' => ?_⟩
    have hnot := List.find?_eq_none.mp hfind k hk
    exact hnot (by simpa using hk')
  | some c =>
    obtain ⟨hc, as, cs, rfl, has⟩ := List.find?_eq_some_iff_append.mp hfind
    obtain ⟨bs, cs', hsplit⟩ := List.append_of_mem (by simpa using hc)
    subst hsplit
    obtain ⟨-, rfl⟩ : c = c ∧ cs = cs' := List.cons.inj (h.suffix.unique h'.suffix)
    refine ⟨as, bs, c :: cs, rfl, rfl, rfl, fun k hk hk' => ?_⟩
    have hnot := has k hk
    simp [hk'] at hnot

/-! ## One object -/

lemma parentSlots_eq {parent : Int} {n new : Nat}
    (h : new = 0 ∨ ∃ oq, findObject objects parent = some oq ∧ n + new ≤ oq.propval.length) :
    ∃ slots, parentSlots objects parent n new = some slots ∧ slots.length = new := by
  rcases h with rfl | ⟨oq, hoq, hlen⟩
  · exact ⟨[], rfl, rfl⟩
  · by_cases hnew : new = 0
    · exact ⟨[], by rw [parentSlots, if_pos hnew], hnew.symm⟩
    · refine ⟨(oq.propval.drop n).take new, ?_, ?_⟩
      · simp only [parentSlots, if_neg hnew, hoq, Option.bind_eq_bind, Option.bind_some,
          if_neg (show ¬ oq.propval.length < n + new by omega)]
        rfl
      · rw [List.length_take, List.length_drop]
        omega

lemma fixSlots_eq {x : Int} {o : Object P} (ho : findObject objects x = some o)
    {old new common n : Nat} (hparent : new = 0 ∨
      ∃ oq, findObject objects o.parent = some oq ∧ n + new ≤ oq.propval.length)
    (hlen : o.propval.length = n + o.propdefs.length + old + common) :
    ∃ o', fixSlots old new common objects x n = some (put objects x o') ∧ o'.frame = o.frame ∧
      Reslotted (fun v => v = .clear) (n + o.propdefs.length) old new o o' ∧
      n + o.propdefs.length + new ≤ o'.propval.length := by
  obtain ⟨copied, hcopied, hcount⟩ := parentSlots_eq hparent
  have htake : (o.propval.drop (n + o.propdefs.length + old)).take common
      = o.propval.drop (n + o.propdefs.length + old) :=
    List.take_of_length_le (by rw [List.length_drop]; omega)
  simp only [fixSlots, ho, Option.bind_eq_bind, Option.bind_some, hcopied, htake,
    if_neg (show ¬ o.propval.length < n + o.propdefs.length + old + common by omega)]
  refine ⟨_, rfl, rfl, ⟨_, ?_, ?_, rfl⟩, ?_⟩
  · rw [List.length_map, hcount]
  · intro pv hpv
    obtain ⟨pv', -, rfl⟩ := List.mem_map.mp hpv
    rfl
  · simp only [List.length_append, List.length_take, List.length_map, hcount]
    omega

/-! ## The object and those below it -/

section

variable {oid parent : Int} {o : Object P}

lemma Relinked.map_eq {h : Hierarchy P} (hr : Relinked h objects objects' oid parent) {α : Type}
    (f : Object P → α) (hf : ∀ o, f (h.rest o) = f o) (k : Int) :
    (findObject objects' k).map f = (findObject objects k).map f := by
  have heq := congrArg (Option.map f) (hr.rest k)
  simpa [Function.comp_def, hf] using heq

lemma Relinked.findObject {h : Hierarchy P} (hr : Relinked h objects objects' oid parent) {k : Int}
    {o' : Object P} (ho' : Db.findObject objects' k = some o') :
    ∃ o, Db.findObject objects k = some o ∧
      ∀ {α : Type} (f : Object P → α), (∀ o, f (h.rest o) = f o) → f o' = f o := by
  have heq := hr.rest k
  rw [ho', Option.map_some] at heq
  obtain ⟨o, ho, hrest⟩ := Option.map_eq_some_iff.mp heq.symm
  exact ⟨o, ho, fun f hf => by rw [← hf o', ← hrest, hf]⟩

lemma Relinked.defs {h : Hierarchy P} (hr : Relinked h objects objects' oid parent)
    (hf : ∀ o, (h.rest o).propdefs = o.propdefs) (k : Int) :
    Db.defs objects' k = Db.defs objects k := by
  rw [Db.defs, hr.map_eq Object.propdefs hf]
  rfl

/-- A line that leads through the object led through it before. -/
lemma Relinked.along_back {h : Hierarchy P} (hr : Relinked h objects objects' oid parent)
    (hends : Ends objects h.up) {ks ks' : List Int} (hoid : Along objects h.up oid (oid :: ks))
    (hparent : Along objects h.up parent ks') (hnot : oid ∉ ks') {x : Int} {pre post : List Int}
    (hx : Along objects' h.up x (pre ++ oid :: post)) :
    Along objects h.up x (pre ++ oid :: ks) ∧ post = ks' := by
  obtain ⟨ox', hox'⟩ := isValid_iff.mp (hx.isValid.resolve_left fun hnil => by
    rw [hnil] at hx
    have hend : Along objects' h.up nothing [] := rfl
    simpa using hx.unique hend)
  obtain ⟨ox, hox, -⟩ := hr.findObject hox'
  obtain ⟨js, hjs⟩ := hends x ox hox
  have hxjs := hjs.cons_self hox
  have hmem : oid ∈ x :: js := by
    by_contra hnot'
    have heq := (hr.along_of_notMem hxjs hnot').unique hx
    exact hnot' (heq ▸ by simp)
  obtain ⟨pre', post', hsplit⟩ := List.append_of_mem hmem
  rw [hsplit] at hxjs
  obtain ⟨-, rfl⟩ : oid = oid ∧ post' = ks := List.cons.inj (hxjs.suffix.unique hoid)
  have hx' := hr.along_of_mem hxjs hparent hnot
  obtain ⟨-, rfl⟩ : oid = oid ∧ post = ks' := List.cons.inj (hx.suffix.unique hx'.suffix)
  rw [List.append_cancel_right (hx.unique hx')]
  exact ⟨hxjs, rfl⟩

/-- The old and the new line of the object that is to be moved, from the common ancestor on the
same. -/
structure Parting (objects : Objects P) (parent : Int) (o : Object P)
    (as bs cs : List Int) : Prop where
  new : Along objects Object.parent parent (as ++ cs)
  old : Along objects Object.parent o.parent (bs ++ cs)
  find : (as ++ cs).find? (fun k => (bs ++ cs).contains k) = cs.head?

lemma fixPropertiesAfterChparent_spec (hc : Consistent objects parentLinks)
    (hfit : PropsFit objects) (ho : findObject objects oid = some o)
    (hr : Relinked inheritance objects objects' oid parent)
    (hc' : Consistent objects' parentLinks) {as bs cs : List Int}
    (hpart : Parting objects parent o as bs cs) (hnew : oid ∉ as ++ cs) :
    ∃ objects'' o'', fixPropertiesAfterChparent objects' oid o.parent = some objects'' ∧
      Cascade objects' objects'' oid o'' o.propdefs.length (fun p x x' =>
        Reslotted (fun v => v = .clear) (p + x.propdefs.length) (tagged objects bs).length
          (tagged objects as).length x x') ∧
      o''.propdefs = o.propdefs ∧
      Reslotted (fun v => v = .clear) o.propdefs.length (tagged objects bs).length
        (tagged objects as).length o o'' := by
  have hoid := Along.cons_self ho hpart.old
  have hold : oid ∉ bs ++ cs := (List.nodup_cons.mp hoid.nodup).1
  have hnew' : Along objects' Object.parent parent (as ++ cs) := hr.along_of_notMem hpart.new hnew
  have hold' : Along objects' Object.parent o.parent (bs ++ cs) :=
    hr.along_of_notMem hpart.old hold
  have hdefs : ∀ ks, tagged objects' ks = tagged objects ks := fun ks =>
    tagged_congr fun k _ => hr.defs (fun _ => rfl) k
  obtain ⟨o₁, ho₁⟩ := isValid_iff.mp ((hr.isValid oid).trans (isValid_of_findObject ho))
  have hparent : o₁.parent = parent := by
    have hself := hr.up_self
    rw [ho₁, ho, Option.map_some, Option.map_some] at hself
    exact Option.some.inj hself
  have hrest : o₁.propdefs = o.propdefs ∧ o₁.propval = o.propval := by
    obtain ⟨o₂, ho₂, hrest⟩ := hr.findObject ho₁
    rw [ho] at ho₂
    cases ho₂
    exact ⟨hrest Object.propdefs fun _ => rfl, hrest Object.propval fun _ => rfl⟩
  have hcount : ∀ {x ox pre post}, Along objects' Object.parent x (pre ++ oid :: post) →
      Db.findObject objects' x = some ox →
      ox.propval.length = o.propdefs.length + (pre.flatMap (Db.defs objects')).length +
        (tagged objects bs).length + (tagged objects cs).length := by
    intro x ox pre post hx hox
    obtain ⟨hxo, -⟩ := hr.along_back hc.up hoid hpart.new hnew hx
    obtain ⟨oy, hoy, hrest⟩ := hr.findObject hox
    have hval : ox.propval = oy.propval := hrest Object.propval fun _ => rfl
    rw [hval, hfit.length x oy hoy, Along.countProperties_eq hxo, tagged_append, tagged_cons,
      tagged_append, defs_eq ho, ← hdefs pre]
    simp only [List.length_append, List.length_map, length_tagged]
    omega
  -- the numbers of definitions
  have hcommon : commonProperties objects' (as ++ cs) (bs ++ cs) = (tagged objects cs).length := by
    rw [commonProperties, hpart.find]
    cases cs with
    | nil => rfl
    | cons c cs =>
      rw [← hdefs, ← hold'.suffix.countProperties_eq]
      rfl
  have hcountNew : countProperties objects' parent
      = (tagged objects as).length + (tagged objects cs).length := by
    rw [hnew'.countProperties_eq, hdefs, tagged_append, List.length_append]
  have hcountOld : countProperties objects' o.parent
      = (tagged objects bs).length + (tagged objects cs).length := by
    rw [hold'.countProperties_eq, hdefs, tagged_append, List.length_append]
  -- the new parent has a slot for each of them
  have hready : (tagged objects as).length = 0 ∨ ∃ oq, Db.findObject objects' o₁.parent = some oq ∧
      0 + (tagged objects as).length ≤ oq.propval.length := by
    rcases hpart.new.isValid with hnil | hv
    · have hend : Along objects Object.parent parent [] := hnil
      have hempty := hpart.new.unique hend
      left
      rw [(List.append_eq_nil_iff.mp hempty).1]
      rfl
    · obtain ⟨oq, hoq⟩ := isValid_iff.mp ((hr.isValid parent).trans hv)
      obtain ⟨oq₀, hoq₀, hrest⟩ := hr.findObject hoq
      have hval : oq.propval = oq₀.propval := hrest Object.propval fun _ => rfl
      refine .inr ⟨oq, by rw [hparent, hoq], ?_⟩
      rw [hval, hfit.length parent oq₀ hoq₀, hpart.new.countProperties_eq, tagged_append,
        List.length_append]
      omega
  have hoid' : Along objects' Object.parent oid ([] ++ oid :: (as ++ cs)) :=
    Along.cons_self ho₁ (hparent ▸ hnew')
  -- the object itself
  have hlen₁ := hcount hoid' ho₁
  obtain ⟨o₂, heq₂, hframe₂, hslots₂, hlen₂⟩ := fixSlots_eq ho₁ hready
    (show o₁.propval.length = 0 + o₁.propdefs.length + (tagged objects bs).length
      + (tagged objects cs).length by rw [hlen₁, hrest.1]; simp)
  rw [Nat.zero_add, hrest.1] at hslots₂ hlen₂
  have hfind₂ : Db.findObject (put objects' oid o₂) oid = some o₂ := by
    rw [findObject_put ho₁, if_pos rfl]
  have hchild : o₂.child = o₁.child := Object.eq_of_frame Object.child (fun _ => rfl) hframe₂
  have hpropdefs : o₂.propdefs = o.propdefs :=
    (Object.eq_of_frame Object.propdefs (fun _ => rfl) hframe₂).trans hrest.1
  -- those below it
  obtain ⟨objects'', heq, hcas⟩ := exists_cascade
    (fixSlots (tagged objects bs).length (tagged objects as).length (tagged objects cs).length)
    (fun p oq => p + (tagged objects as).length ≤ oq.propval.length)
    (fun p x x' => Reslotted (fun v => v = .clear) (p + x.propdefs.length)
      (tagged objects bs).length (tagged objects as).length x x')
    o.propdefs.length hc' ho₁ hframe₂ hlen₂
    (by
      intro x ox pre post p hx hox hp cur oq _ hcx hoq hrdy
      obtain ⟨ox', heq, hframe, heffect, hlen⟩ := fixSlots_eq hcx (.inr ⟨oq, hoq, hrdy⟩)
        (show ox.propval.length = p + ox.propdefs.length + (tagged objects bs).length
          + (tagged objects cs).length by rw [hcount hx hox, hp])
      exact ⟨ox', heq, hframe, heffect, hlen⟩)
  refine ⟨objects'', o₂, ?_, hcas, hpropdefs, ?_⟩
  · simp only [fixPropertiesAfterChparent, ho₁, Option.bind_eq_bind, Option.bind_some, hparent,
      line_eq hnew' (Nat.lt_succ_of_le hnew'.length_le),
      line_eq hold' (Nat.lt_succ_of_le hold'.length_le), hcommon, hcountNew, hcountOld, countLess,
      if_pos (Nat.le_add_left _ _), Nat.add_sub_cancel, fixProps, heq₂, hfind₂, hchild, hpropdefs,
      length_put, Nat.zero_add]
    exact heq
  · simpa only [Reslotted, hrest.2] using hslots₂

lemma Relinked.below_iff {h : Hierarchy P} (hr : Relinked h objects objects' oid parent)
    (hends : Ends objects h.up) {ks ks' : List Int} (hoid : Along objects h.up oid (oid :: ks))
    (hparent : Along objects h.up parent ks') (hnot : oid ∉ ks') (x : Int) :
    (∃ pre post, Along objects' h.up x (pre ++ oid :: post)) ↔
      ∃ pre post, Along objects h.up x (pre ++ oid :: post) := by
  constructor
  · rintro ⟨pre, post, hx⟩
    exact ⟨pre, ks, (hr.along_back hends hoid hparent hnot hx).1⟩
  · rintro ⟨pre, post, hx⟩
    exact ⟨pre, ks', hr.along_of_mem hx hparent hnot⟩

/-- The walk puts the slots where the definitions on the new line have their places. -/
lemma Cascade.respliced_of_relinked {objects'' : Objects P} {o'' : Object P}
    (hc : Consistent objects parentLinks) (hfit : PropsFit objects)
    (ho : Db.findObject objects oid = some o)
    (hr : Relinked inheritance objects objects' oid parent) {as bs cs : List Int}
    (hpart : Parting objects parent o as bs cs) (hnew : oid ∉ as ++ cs)
    (hcas : Cascade objects' objects'' oid o'' o.propdefs.length fun p x x' =>
      Reslotted (fun v => v = .clear) (p + x.propdefs.length) (tagged objects bs).length
        (tagged objects as).length x x')
    (hdefs'' : o''.propdefs = o.propdefs)
    (hself : Reslotted (fun v => v = .clear) o.propdefs.length (tagged objects bs).length
      (tagged objects as).length o o'') :
    Respliced objects objects'' oid (tagged objects bs) (tagged objects as)
      (tagged objects cs) := by
  have hoid := Along.cons_self ho hpart.old
  have hbelow : ∀ x, Below objects' oid x ↔ Below objects oid x :=
    hr.below_iff hc.up hoid hpart.new hnew
  have hsame : SameLinks parentLinks objects' objects'' := hcas.alike.sameLinks fun _ => rfl
  have hdefs : ∀ ks, tagged objects'' ks = tagged objects ks := fun ks =>
    tagged_congr fun k _ => by rw [hcas.alike.defs, hr.defs fun _ => rfl]
  have hline : ∀ {x pre post}, Along objects Object.parent x (pre ++ oid :: post) →
      tags objects x = tagged objects (pre ++ [oid]) ++ tagged objects bs ++ tagged objects cs ∧
      tags objects'' x
        = tagged objects (pre ++ [oid]) ++ tagged objects as ++ tagged objects cs := by
    intro x pre post hx
    have hpost : oid :: post = oid :: (bs ++ cs) := hx.suffix.unique hoid
    have hx' : Along objects' Object.parent x (pre ++ oid :: (as ++ cs)) :=
      hr.along_of_mem hx hpart.new hnew
    have hx'' : Along objects'' Object.parent x (pre ++ oid :: (as ++ cs)) :=
      hx'.congr fun k _ => hsame.map_up k
    rw [hx.tags_eq, hx''.tags_eq, hdefs, hpost]
    simp [tagged_append, tagged_cons]
  constructor
  case other =>
    intro x ox'' hox'' hx
    have hox' : Db.findObject objects' x = some ox'' := by
      rw [← hox'', hcas.other x fun h => hx ((hbelow x).mp h)]
    obtain ⟨ox, hox, hrest⟩ := hr.findObject hox'
    refine ⟨ox, hox, hrest Object.propdefs fun _ => rfl, hrest Object.propval fun _ => rfl, ?_⟩
    obtain ⟨js, hjs⟩ := hc.up x ox hox
    have hxjs := hjs.cons_self hox
    have hnot : oid ∉ x :: js := by
      intro hmem
      obtain ⟨pre, post, hsplit⟩ := List.append_of_mem hmem
      exact hx ⟨pre, post, hsplit ▸ hxjs⟩
    have hxjs' : Along objects' Object.parent x (x :: js) := hr.along_of_notMem hxjs hnot
    have hxjs'' : Along objects'' Object.parent x (x :: js) :=
      hxjs'.congr fun k _ => hsame.map_up k
    rw [Along.tags_eq hxjs, hxjs''.tags_eq, hdefs]
  case below =>
    rintro x ox'' hox'' ⟨pre, post, hx⟩
    obtain ⟨htags, htags'⟩ := hline hx
    have hcut : ∀ {y}, Along objects Object.parent y (pre ++ oid :: post) → ∀ oy,
        Db.findObject objects y = some oy →
        (tagged objects (pre ++ [oid])).length ≤ oy.propval.length := by
      intro y hy oy hoy
      rw [hfit.length y oy hoy, hy.countProperties_eq]
      simp only [tagged_append, tagged_cons, tagged_nil, List.length_append, List.length_nil]
      omega
    by_cases hxo : x = oid
    · subst hxo
      rw [hcas.self] at hox''
      cases hox''
      obtain rfl : pre = [] := by
        have hlen := congrArg List.length (hx.unique hoid)
        have hlen' := congrArg List.length (hx.suffix.unique hoid)
        simp only [List.length_append, List.length_cons] at hlen hlen'
        exact List.length_eq_zero_iff.mp (by omega)
      have hfirst : (tagged objects [x]).length = o.propdefs.length := by
        simp [tagged, defs_eq ho]
      have hcut' := hcut hx o ho
      obtain ⟨slots, hslots, -, hval⟩ := hself
      refine ⟨o, tagged objects [x], slots, ho, htags, htags', hslots, by rw [hfirst, hval],
        fun pv hpv => .inl ?_⟩
      rw [List.nil_append, hfirst] at hcut'
      rwa [hval, hdefs'', take_splice le_rfl hcut'] at hpv
    · obtain ⟨ox', hox'⟩ := isValid_iff.mp (hsame.isValid x ▸ isValid_of_findObject hox'')
      obtain ⟨ox, hox, hrest⟩ := hr.findObject hox'
      have hval' : ox'.propval = ox.propval := hrest Object.propval fun _ => rfl
      have hdefs' : ox'.propdefs = ox.propdefs := hrest Object.propdefs fun _ => rfl
      obtain ⟨oy, p, hoy, hp, slots, hslots, -, hval⟩ := hcas.below x ox' pre (as ++ cs)
        (hr.along_of_mem hx hpart.new hnew) hxo hox'
      rw [hox''] at hoy
      cases hoy
      obtain ⟨oz, hoz, hframe⟩ := hcas.alike.findObject hox'
      rw [hox''] at hoz
      cases hoz
      have hown : ox''.propdefs = ox.propdefs :=
        (Object.eq_of_frame Object.propdefs (fun _ => rfl) hframe).trans hdefs'
      have hfirst : p + ox'.propdefs.length = (tagged objects (pre ++ [oid])).length := by
        rw [hp, tagged_append, List.length_append, length_tagged,
          List.flatMap_congr fun k _ => hr.defs (fun _ => rfl) k]
        simp [tagged, defs_eq ho, Nat.add_comm]
      rw [hfirst, hval'] at hval
      refine ⟨ox, _, slots, hox, htags, htags', hslots, hval, fun pv hpv => .inl ?_⟩
      rwa [hval, hown, take_splice (by rw [← hfirst, hdefs']; omega) (hcut hx ox hox)] at hpv

/-- What has changed when an object has got another parent. `old` are the definitions that count
for it no more, `new` those that have come. -/
structure Reparented (objects objects' : Objects P) (oid parent : Int) (o : Object P)
    (old new common : List (Int × Propdef)) : Prop where
  consistent : Consistent objects' parentLinks
  locations : SameLinks locationLinks objects objects'
  fit : PropsFit objects'
  up_self : (Db.findObject objects' oid).map Object.parent = some parent
  up_ne : ∀ k, k ≠ oid →
    (Db.findObject objects' k).map Object.parent = (Db.findObject objects k).map Object.parent
  children : ∀ p w ks, p ≠ parent → Db.findObject objects p = some w →
    Along objects Object.sibling w.child ks → ∃ w', Db.findObject objects' p = some w' ∧
      Along objects' Object.sibling w'.child (ks.erase oid)
  slots : Respliced objects objects' oid old new common
  old_line : tags objects o.parent = old ++ common
  new_line : tags objects parent = new ++ common
  apart : ∀ t ∈ old, t ∉ new

/-- `db_change_parent` comes to an end. It refuses if a name is defined on both sides, and does
what it is for otherwise. -/
theorem dbChangeParent_spec (hc : Consistent objects parentLinks) (hfit : PropsFit objects)
    (ho : Db.findObject objects oid = some o) (hparent : parent = nothing ∨ isValid objects parent)
    (hloop : ∀ ks, Along objects Object.parent parent ks → oid ∉ ks) :
    ∃ b objects', dbChangeParent objects oid parent = some (b, objects') ∧
      (b = true ↔ Fits objects oid parent) ∧ (b = false → objects' = objects) ∧
      (b = true → ∃ old new common, Reparented objects objects' oid parent o old new common) := by
  obtain ⟨b, hb, hiff⟩ := checkPropertiesForChparent_spec hc ho parent
  cases b with
  | false =>
    refine ⟨false, objects, ?_, hiff, fun _ => rfl, by rintro ⟨⟩⟩
    simp only [dbChangeParent, hb, Option.bind_eq_bind, Option.bind_some, Bool.not_false, if_true]
    rfl
  | true =>
    have hfits := hiff.mp rfl
    obtain ⟨ks, hks⟩ := hc.exists_line ho
    obtain ⟨ks', hks'⟩ : ∃ ks', Along objects Object.parent parent ks' :=
      hc.up.exists_along hparent
    have hnew := hloop ks' hks'
    obtain ⟨as, bs, cs, rfl, rfl, hfind, hapart⟩ := exists_common hks' hks
    have hpart : Parting objects parent o as bs cs := ⟨hks', hks, hfind⟩
    have hwas : decide (o.parent ≠ nothing) = true ↔ inheritance.up o ≠ nothing :=
      decide_eq_true_iff
    have hon : decide (parent ≠ nothing) = true ↔ parent ≠ nothing := decide_eq_true_iff
    obtain ⟨objects₁, heq₁, hr, hc₁, hkids⟩ :=
      relink_spec (h := inheritance) hc ho hparent hloop hwas hon
    obtain ⟨objects₂, o₂, heq₂, hcas, hdefs₂, hself⟩ :=
      fixPropertiesAfterChparent_spec hc hfit ho hr hc₁ hpart hnew
    have hslots := hcas.respliced_of_relinked hc hfit ho hr hpart hnew hdefs₂ hself
    have hc₂ : Consistent objects₂ parentLinks :=
      (hcas.alike.sameLinks fun _ => rfl).consistent hc₁
    have hup : ∀ k, (Db.findObject objects₂ k).map Object.parent
        = (Db.findObject objects₁ k).map Object.parent :=
      hcas.alike.map_eq Object.parent fun _ => rfl
    refine ⟨true, objects₂, ?_, hiff, by rintro ⟨⟩, fun _ => ⟨_, _, _, hc₂, ?_, ?_, ?_, ?_, ?_, hslots,
      ?_, ?_, ?_⟩⟩
    · simp only [dbChangeParent, hb, ho, heq₁, heq₂, Option.bind_eq_bind, Option.bind_some,
        Bool.not_true, Bool.false_eq_true, if_false]
      rfl
    · have hloc : SameLinks locationLinks objects objects₁ := hr.map_eq _ fun _ => rfl
      exact hloc.trans (hcas.alike.sameLinks fun _ => rfl)
    · refine hslots.propsFit hc.up hc₂.up hfit ?_
      rintro x ⟨pre, post, hx⟩ hv
      obtain ⟨ox₂, hox₂⟩ := isValid_iff.mp hv
      obtain ⟨ox, first, -, hox, htags, htags', -⟩ := hslots.below x ox₂ hox₂ ⟨pre, post, hx⟩
      have hfirst : first = tagged objects (pre ++ [oid]) := by
        have hpost : oid :: post = oid :: (bs ++ cs) :=
          hx.suffix.unique (Along.cons_self ho hks)
        have heq : first ++ tagged objects (bs ++ cs)
            = tagged objects (pre ++ [oid]) ++ tagged objects (bs ++ cs) := by
          rw [tagged_append bs, ← List.append_assoc, ← htags, hx.tags_eq, hpost]
          simp [tagged_append, tagged_cons]
        exact List.append_cancel_right heq
      have hold := hfit.distinct x ox hox
      have hline : lineProps objects parent
          = (tagged objects as ++ tagged objects cs).map Prod.snd := by
        rw [hks'.lineProps_eq_map, hks'.tags_eq, tagged_append]
      have habove : (lineProps objects parent).Pairwise Differ := by
        rcases hparent with rfl | hv
        · rw [lineProps_nothing]
          exact List.Pairwise.nil
        · obtain ⟨op, hop⟩ := isValid_iff.mp hv
          exact hfit.distinct parent op hop
      rw [hx.lineProps_eq_map, htags, List.append_assoc, List.map_append,
        List.pairwise_append] at hold
      rw [htags', List.append_assoc, List.map_append, ← hline, List.pairwise_append]
      refine ⟨hold.1, habove, fun p hp q hq => ?_⟩
      obtain ⟨⟨k, p⟩, hmem, rfl⟩ := List.mem_map.mp hp
      rw [hfirst] at hmem
      obtain ⟨hk, hdef⟩ := mem_tagged hmem
      exact hfits k (hx.below hk) p hdef q hq
    · have hself := hr.up_self
      rw [ho] at hself
      rw [hup]
      exact hself
    · intro k hk
      rw [hup]
      exact hr.up_ne k hk
    · intro p w js hp hw hjs
      obtain ⟨w₁, hw₁, hjs₁⟩ := hkids p w js hp hw hjs
      obtain ⟨w₂, hw₂, hframe⟩ := hcas.alike.findObject hw₁
      refine ⟨w₂, hw₂, ?_⟩
      rw [show w₂.child = w₁.child from Object.eq_of_frame _ (fun _ => rfl) hframe]
      exact hcas.alike.along (fun _ => rfl) hjs₁
    · rw [hks.tags_eq, tagged_append]
    · rw [hks'.tags_eq, tagged_append]
    · rintro ⟨k, p⟩ ht ht'
      exact hapart k (mem_tagged ht').1 (mem_tagged ht).1

end

end Db

end LambdaMOO
