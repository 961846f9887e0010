import LambdaMOO.Db.Offspring

/-!
# The layout of the slots

The slots of an object belong to the definitions along its line, one after the other. An operation
on properties takes a stretch of the slots of everybody at or below an object and puts other ones
in their place.
-/

namespace LambdaMOO

namespace Db

variable {P : Type} {objects objects' : Objects P}

/-! ## Definitions and their definers -/

/-- The definitions on the objects of a line, each with its definer. -/
def tagged (objects : Objects P) (ks : List Int) : List (Int × Propdef) :=
  ks.flatMap fun k => (defs objects k).map (Prod.mk k)

/-- The definitions that count for an object, each with its definer, in the order of its slots. -/
def tags (objects : Objects P) (oid : Int) : List (Int × Propdef) :=
  tagged objects ((line objects (objects.length + 1) oid).getD [])

lemma line_eq {start : Int} {ks : List Int} (ha : Along objects Object.parent start ks) {n : Nat}
    (hn : ks.length < n) : line objects n start = some ks := by
  induction ks generalizing start n with
  | nil =>
    obtain ⟨n, rfl⟩ : ∃ m, n = m + 1 := ⟨n - 1, by omega⟩
    rw [show start = nothing from ha]
    rfl
  | cons k ks ih =>
    obtain ⟨n, rfl⟩ : ∃ m, n = m + 1 := ⟨n - 1, by omega⟩
    obtain ⟨rfl, hne, o, ho, hrest⟩ := ha
    simp only [line, if_neg hne, ho, Option.bind_eq_bind, Option.bind_some,
      ih hrest (n := n) (by simpa using hn)]
    rfl

lemma Along.tags_eq {start : Int} {ks : List Int} (ha : Along objects Object.parent start ks) :
    tags objects start = tagged objects ks := by
  rw [tags, line_eq ha (Nat.lt_succ_of_le ha.length_le), Option.getD_some]

@[simp]
lemma tagged_nil : tagged objects [] = [] := rfl

lemma tagged_append (ks ks' : List Int) :
    tagged objects (ks ++ ks') = tagged objects ks ++ tagged objects ks' := by
  rw [tagged, List.flatMap_append]
  rfl

lemma tagged_cons (k : Int) (ks : List Int) :
    tagged objects (k :: ks) = (defs objects k).map (Prod.mk k) ++ tagged objects ks := rfl

lemma map_snd_tagged (ks : List Int) :
    (tagged objects ks).map Prod.snd = ks.flatMap (defs objects) := by
  simp [tagged, List.map_flatMap, Function.comp_def]

lemma length_tagged (ks : List Int) :
    (tagged objects ks).length = (ks.flatMap (defs objects)).length := by
  rw [← map_snd_tagged, List.length_map]

lemma Along.lineProps_eq_map {start : Int} {ks : List Int}
    (ha : Along objects Object.parent start ks) :
    lineProps objects start = (tags objects start).map Prod.snd := by
  rw [lineProps_eq ha, ha.tags_eq, map_snd_tagged]

lemma Along.countProperties_eq {start : Int} {ks : List Int}
    (ha : Along objects Object.parent start ks) :
    countProperties objects start = (tagged objects ks).length := by
  rw [Db.countProperties_eq, lineProps_eq ha, length_tagged]

lemma tagged_congr {ks : List Int} (h : ∀ k ∈ ks, defs objects' k = defs objects k) :
    tagged objects' ks = tagged objects ks := by
  rw [tagged, tagged, List.flatMap_congr fun k hk => ?_]
  rw [h k hk]

/-! ## Properties in order -/

/-- The names are different, case aside. -/
def Differ (p q : Propdef) : Prop := strEqual p.name q.name = false

lemma strEqual_iff {s t : String} :
    strEqual s t ↔ s.toList.map Char.toLower = t.toList.map Char.toLower := by
  simp [strEqual]

lemma differ_iff {p q : Propdef} : Differ p q ↔ ¬ strEqual p.name q.name := by
  simp [Differ]

lemma Differ.symm {p q : Propdef} (h : Differ p q) : Differ q p := by
  rw [differ_iff, strEqual_iff] at h ⊢
  exact fun heq => h heq.symm

/-- Every object has a slot for each definition that counts for it, no two of these have the same
name, and none of the slots for its own is clear. -/
structure PropsFit (objects : Objects P) : Prop where
  length : ∀ oid o, findObject objects oid = some o →
    o.propval.length = countProperties objects oid
  distinct : ∀ oid o, findObject objects oid = some o → (lineProps objects oid).Pairwise Differ
  set : ∀ oid o, findObject objects oid = some o →
    ∀ pv ∈ o.propval.take o.propdefs.length, pv.var.isClear = false

/-! ## Stretches of slots -/

/-- What an operation on the properties of `oid` does: at it and below, a stretch of slots for the
definitions `old` makes room for slots for `new`, before those for `common`. -/
structure Respliced (objects objects' : Objects P) (oid : Int)
    (old new common : List (Int × Propdef)) : Prop where
  other : ∀ x o', findObject objects' x = some o' → ¬ Below objects oid x →
    ∃ o, findObject objects x = some o ∧ o'.propdefs = o.propdefs ∧ o'.propval = o.propval ∧
      tags objects' x = tags objects x
  below : ∀ x o', findObject objects' x = some o' → Below objects oid x →
    ∃ o first slots, findObject objects x = some o ∧
      tags objects x = first ++ old ++ common ∧ tags objects' x = first ++ new ++ common ∧
      slots.length = new.length ∧
      o'.propval = o.propval.take first.length ++ slots ++
        o.propval.drop (first.length + old.length) ∧
      ∀ pv ∈ o'.propval.take o'.propdefs.length,
        pv ∈ o.propval.take o.propdefs.length ∨ pv.var.isClear = false

lemma Respliced.propsFit {oid : Int} {old new common : List (Int × Propdef)}
    (hr : Respliced objects objects' oid old new common) (hends : Ends objects Object.parent)
    (hends' : Ends objects' Object.parent) (hfit : PropsFit objects)
    (hdistinct : ∀ x, Below objects oid x → isValid objects' x →
      ((tags objects' x).map Prod.snd).Pairwise Differ) : PropsFit objects' := by
  have hline : ∀ {x o}, findObject objects x = some o →
      lineProps objects x = (tags objects x).map Prod.snd := by
    intro x o ho
    obtain ⟨ks, hks⟩ := hends x o ho
    exact (hks.cons_self ho).lineProps_eq_map
  have hline' : ∀ {x o}, findObject objects' x = some o →
      lineProps objects' x = (tags objects' x).map Prod.snd := by
    intro x o ho
    obtain ⟨ks, hks⟩ := hends' x o ho
    exact (hks.cons_self ho).lineProps_eq_map
  constructor
  case length =>
    intro x o' ho'
    rw [countProperties_eq, hline' ho', List.length_map]
    by_cases hx : Below objects oid x
    · obtain ⟨o, first, slots, ho, htags, htags', hslots, hval, -⟩ := hr.below x o' ho' hx
      have hlen := hfit.length x o ho
      rw [countProperties_eq, hline ho, List.length_map, htags] at hlen
      rw [hval, htags']
      simp only [List.length_append, List.length_take, List.length_drop] at hlen ⊢
      omega
    · obtain ⟨o, ho, -, hval, htags⟩ := hr.other x o' ho' hx
      rw [hval, htags, hfit.length x o ho, countProperties_eq, hline ho, List.length_map]
  case distinct =>
    intro x o' ho'
    rw [hline' ho']
    by_cases hx : Below objects oid x
    · exact hdistinct x hx (isValid_of_findObject ho')
    · obtain ⟨o, ho, -, -, htags⟩ := hr.other x o' ho' hx
      rw [htags, ← hline ho]
      exact hfit.distinct x o ho
  case set =>
    intro x o' ho' pv hpv
    by_cases hx : Below objects oid x
    · obtain ⟨o, first, slots, ho, -, -, -, -, hown⟩ := hr.below x o' ho' hx
      rcases hown pv hpv with hmem | hset
      · exact hfit.set x o ho pv hmem
      · exact hset
    · obtain ⟨o, ho, hdefs, hval, -⟩ := hr.other x o' ho' hx
      rw [hval, hdefs] at hpv
      exact hfit.set x o ho pv hpv

end Db

end LambdaMOO
