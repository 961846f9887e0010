import LambdaMOO.Db.Properties
import LambdaMOO.Db.Splice

/-!
# Lines of ancestors

The definitions that count for an object are those along the line from it up to its last
ancestor.
-/

namespace LambdaMOO

/-- An object but for the values of its properties and the cached list of its waifs. -/
def Object.frame {P : Type} (o : Object P) : Object P :=
  { o with propval := [], waifPropdefs := none }

/-- A field that the frame has is the same in objects of the same frame. -/
lemma Object.eq_of_frame {P α : Type} {o o' : Object P} (f : Object P → α)
    (hf : ∀ o, f o.frame = f o) (h : o'.frame = o.frame) : f o' = f o := by
  rw [← hf o', h, hf]

namespace Db

variable {P : Type} {objects objects' : Objects P}

/-! ## Lines -/

/-- The definitions on one object. -/
def defs (objects : Objects P) (k : Int) : List Propdef :=
  ((findObject objects k).map Object.propdefs).getD []

lemma defs_eq {k : Int} {o : Object P} (ho : findObject objects k = some o) :
    defs objects k = o.propdefs := by
  simp [defs, ho]

lemma flatMap_ancestors {start : Int} {ks : List Int}
    (ha : Along objects Object.parent start ks) {n : Nat} (hn : ks.length ≤ n) :
    (ancestors objects n start).flatMap Object.propdefs = ks.flatMap (defs objects) := by
  induction ks generalizing start n with
  | nil =>
    have hend : start = nothing := ha
    subst hend
    cases n <;> simp [ancestors, findObject, nothing]
  | cons k ks ih =>
    obtain ⟨n, rfl⟩ : ∃ m, n = m + 1 := ⟨n - 1, by simp at hn; omega⟩
    obtain ⟨rfl, -, o, ho, hrest⟩ := ha
    simp only [ancestors, ho, List.flatMap_cons, defs_eq ho]
    rw [ih hrest (by simpa using hn)]

lemma lineProps_eq {start : Int} {ks : List Int} (ha : Along objects Object.parent start ks) :
    lineProps objects start = ks.flatMap (defs objects) :=
  flatMap_ancestors ha ha.length_le

lemma countProperties_eq (oid : Int) :
    countProperties objects oid = (lineProps objects oid).length := by
  simp [countProperties, lineProps, List.length_flatMap]

lemma lineProps_nothing : lineProps objects nothing = [] :=
  lineProps_eq (show Along objects Object.parent nothing [] from rfl)

lemma Along.cons_self {field : Object P → Int} {oid : Int} {o : Object P} {ks : List Int}
    (ho : findObject objects oid = some o) (ha : Along objects field (field o) ks) :
    Along objects field oid (oid :: ks) :=
  ⟨rfl, ne_nothing_of_isValid (isValid_of_findObject ho), o, ho, ha⟩

/-- The line of an object that has a parent with a line. -/
lemma lineProps_of_parent (hp : Ends objects Object.parent) {oid : Int} {o : Object P}
    (ho : findObject objects oid = some o) :
    lineProps objects oid = o.propdefs ++ lineProps objects o.parent := by
  obtain ⟨ks, hks⟩ := hp oid o ho
  rw [lineProps_eq (hks.cons_self ho), lineProps_eq hks, List.flatMap_cons, defs_eq ho]

/-- `x` is `oid` or below it. -/
def Below (objects : Objects P) (oid x : Int) : Prop :=
  ∃ pre post, Along objects Object.parent x (pre ++ oid :: post)

lemma Along.suffix {field : Object P → Int} {start x : Int} {pre post : List Int}
    (ha : Along objects field start (pre ++ x :: post)) : Along objects field x (x :: post) := by
  induction pre generalizing start with
  | nil =>
    obtain ⟨rfl, hrest⟩ := ha
    exact ⟨rfl, hrest⟩
  | cons k pre ih =>
    obtain ⟨-, -, o, -, hrest⟩ := ha
    exact ih hrest

/-- What lies on the line up from somebody below is below, too. -/
lemma Along.below {x y oid : Int} {pre post : List Int}
    (ha : Along objects Object.parent x (pre ++ oid :: post)) (hy : y ∈ pre ++ [oid]) :
    Below objects oid y := by
  obtain ⟨as, bs, hsplit⟩ := List.append_of_mem hy
  rcases List.eq_nil_or_concat bs with rfl | ⟨bs, z, rfl⟩
  · obtain ⟨-, heq⟩ := List.append_inj' hsplit rfl
    obtain rfl : oid = y := by simpa using heq
    exact ⟨[], post, ha.suffix⟩
  · have hsplit : pre ++ [oid] = (as ++ y :: bs) ++ [z] := by simpa using hsplit
    obtain ⟨hpre, -⟩ := List.append_inj' hsplit rfl
    rw [hpre, List.append_assoc] at ha
    exact ⟨y :: bs, post, ha.suffix⟩

/-! ## Changes that leave links alone -/

/-- The links of an object within a hierarchy. -/
def Links.fields (links : Links P) (o : Object P) : Int × Int × Int :=
  (links.up o, links.down o, links.across o)

/-- There are the same objects with the same links. -/
def SameLinks (links : Links P) (objects objects' : Objects P) : Prop :=
  ∀ k, (findObject objects' k).map links.fields = (findObject objects k).map links.fields

namespace SameLinks

variable {links : Links P}

lemma refl : SameLinks links objects objects := fun _ => rfl

lemma symm (h : SameLinks links objects objects') : SameLinks links objects' objects :=
  fun k => (h k).symm

lemma trans {objects'' : Objects P} (h : SameLinks links objects objects')
    (h' : SameLinks links objects' objects'') : SameLinks links objects objects'' :=
  fun k => (h' k).trans (h k)

lemma put {k : Int} {o o' : Object P} (ho : findObject objects k = some o)
    (hfields : links.fields o' = links.fields o) :
    SameLinks links objects (Db.put objects k o') := by
  intro x
  rw [findObject_put ho]
  split_ifs with hx
  · simp [hx, ho, hfields]
  · rfl

lemma isValid (h : SameLinks links objects objects') (k : Int) :
    Db.isValid objects' k = Db.isValid objects k :=
  isValid_of_map_eq (h k)

lemma findObject (h : SameLinks links objects objects') {k : Int} {o' : Object P}
    (ho' : Db.findObject objects' k = some o') :
    ∃ o, Db.findObject objects k = some o ∧ links.fields o' = links.fields o := by
  have heq := h k
  rw [ho', Option.map_some] at heq
  obtain ⟨o, ho, hfields⟩ := Option.map_eq_some_iff.mp heq.symm
  exact ⟨o, ho, hfields.symm⟩

lemma map_up (h : SameLinks links objects objects') (k : Int) :
    (Db.findObject objects' k).map links.up = (Db.findObject objects k).map links.up := by
  simpa [Function.comp_def, Links.fields] using congrArg (Option.map Prod.fst) (h k)

lemma map_across (h : SameLinks links objects objects') (k : Int) :
    (Db.findObject objects' k).map links.across = (Db.findObject objects k).map links.across := by
  simpa [Function.comp_def, Links.fields] using
    congrArg (Option.map fun p : Int × Int × Int => p.2.2) (h k)

lemma consistent (h : SameLinks links objects objects') (hc : Consistent objects links) :
    Consistent objects' links where
  up := by
    intro k o' ho'
    obtain ⟨o, ho, hfields⟩ := h.findObject ho'
    obtain ⟨ks, hks⟩ := hc.up k o ho
    rw [show links.up o' = links.up o from congrArg Prod.fst hfields]
    exact ⟨ks, hks.congr fun k _ => h.map_up k⟩
  down := by
    intro k o' ho'
    obtain ⟨o, ho, hfields⟩ := h.findObject ho'
    obtain ⟨ks, hks, hnodup, hiff⟩ := hc.down k o ho
    rw [show links.down o' = links.down o from congrArg (fun p => p.2.1) hfields]
    refine ⟨ks, hks.congr fun k _ => h.map_across k, hnodup, fun x ox' hox' => ?_⟩
    obtain ⟨ox, hox, hfields⟩ := h.findObject hox'
    rw [show links.up ox' = links.up ox from congrArg Prod.fst hfields]
    exact hiff x ox hox

end SameLinks

/-! ## Changes to values -/

/-- Only values of properties have changed. -/
structure Alike (objects objects' : Objects P) : Prop where
  length : objects'.length = objects.length
  frame : ∀ k, (findObject objects' k).map Object.frame = (findObject objects k).map Object.frame

namespace Alike

lemma refl : Alike objects objects := ⟨rfl, fun _ => rfl⟩

lemma trans {objects'' : Objects P} (h : Alike objects objects') (h' : Alike objects' objects'') :
    Alike objects objects'' :=
  ⟨h'.length.trans h.length, fun k => (h'.frame k).trans (h.frame k)⟩

lemma symm (h : Alike objects objects') : Alike objects' objects :=
  ⟨h.length.symm, fun k => (h.frame k).symm⟩

lemma map_eq (h : Alike objects objects') {α : Type} (f : Object P → α)
    (hf : ∀ o, f o.frame = f o) (k : Int) :
    (findObject objects' k).map f = (findObject objects k).map f := by
  have heq := congrArg (Option.map f) (h.frame k)
  simpa [Function.comp_def, hf] using heq

lemma findObject (h : Alike objects objects') {k : Int} {o : Object P}
    (ho : findObject objects k = some o) :
    ∃ o', Db.findObject objects' k = some o' ∧ o'.frame = o.frame := by
  have heq := h.frame k
  rw [ho, Option.map_some] at heq
  obtain ⟨o', ho', hframe⟩ := Option.map_eq_some_iff.mp heq
  exact ⟨o', ho', hframe⟩

lemma put {k : Int} {o o' : Object P} (ho : Db.findObject objects k = some o)
    (hframe : o'.frame = o.frame) : Alike objects (Db.put objects k o') where
  length := length_put k o'
  frame := by
    intro x
    rw [findObject_put ho]
    split_ifs with hx
    · simp [hx, ho, hframe]
    · rfl

lemma isValid (h : Alike objects objects') (k : Int) : isValid objects' k = isValid objects k :=
  isValid_of_map_eq (h.frame k)

lemma defs (h : Alike objects objects') (k : Int) : defs objects' k = defs objects k := by
  rw [Db.defs, h.map_eq Object.propdefs fun _ => rfl]
  rfl

lemma along (h : Alike objects objects') {field : Object P → Int}
    (hf : ∀ o, field o.frame = field o) {start : Int} {ks : List Int}
    (ha : Along objects field start ks) : Along objects' field start ks :=
  ha.congr fun k _ => h.map_eq field hf k

lemma lineProps (h : Alike objects objects') (oid : Int) :
    lineProps objects' oid = lineProps objects oid := by
  have hline : ∀ n oid, (ancestors objects' n oid).flatMap Object.propdefs
      = (ancestors objects n oid).flatMap Object.propdefs := by
    intro n
    induction n with
    | zero => exact fun _ => rfl
    | succ n ih =>
      intro oid
      have heq := h.map_eq (fun o => (o.propdefs, o.parent)) (fun _ => rfl) oid
      simp only [ancestors]
      cases ho : Db.findObject objects oid with
      | none =>
        rw [ho] at heq
        rw [Option.map_eq_none_iff.mp heq]
      | some o =>
        rw [ho, Option.map_some] at heq
        obtain ⟨o', ho', hpair⟩ := Option.map_eq_some_iff.mp heq
        obtain ⟨hdefs, hparent⟩ := Prod.mk.inj hpair
        simp only [ho', List.flatMap_cons, hdefs, hparent, ih]
  rw [Db.lineProps, h.length, hline]
  rfl

lemma countProperties (h : Alike objects objects') (oid : Int) :
    countProperties objects' oid = countProperties objects oid := by
  rw [countProperties_eq, countProperties_eq, h.lineProps]

lemma sameLinks (h : Alike objects objects') {links : Links P}
    (hframe : ∀ o, links.fields o.frame = links.fields o) : SameLinks links objects objects' :=
  h.map_eq links.fields hframe

end Alike

end Db

end LambdaMOO
