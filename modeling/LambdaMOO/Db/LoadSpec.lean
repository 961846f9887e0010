import LambdaMOO.Db.Load
import LambdaMOO.Db.Emit

/-!
# What a dump says is read back

The readers undo what the relation `Emits` describes. A waif comes back under its number in
the final list of waifs, with the properties that were recorded of it.
-/

namespace LambdaMOO

open Reader

/-! ## What can be written -/

/-- The text of the number is exact: one line that is read as the same number. -/
structure FloatText.Exact (ft : FloatText) (d : FlNum) : Prop where
  line : '\n' ∉ ft.print d
  start : (ft.print d).head?.any isSpace = false
  back : ft.strtoflnum (ft.print d) = (some d, [])

mutual
/-- The numbers in the value are in range, its floats have exact texts, and its strings
contain no newline. -/
def Var.Fits (ft : FloatText) : Var → Prop
  | .int n | .obj n | .catchMark n | .finallyMark n => IntRange.num.Has n
  | .str s => '\n' ∉ s.toList
  | .float d => ft.Exact d
  | .list vs => IntRange.unum.Has vs.length ∧ Var.AllFit ft vs
  | .err _ | .clear | .none | .waif _ => True

/-- The same for the elements of a list. -/
def Var.AllFit (ft : FloatText) : List Var → Prop
  | [] => True
  | v :: vs => v.Fits ft ∧ Var.AllFit ft vs
end

lemma Var.allFit_iff {ft : FloatText} {vs : List Var} :
    Var.AllFit ft vs ↔ ∀ v ∈ vs, v.Fits ft := by
  induction vs with
  | nil => simp [Var.AllFit]
  | cons v vs ih => simp [Var.AllFit, ih]

/-- The properties recorded of a waif come in ascending order. -/
structure Record.Fits (ft : FloatText) (R : Record) : Prop where
  cls : IntRange.num.Has R.cls
  owner : IntRange.num.Has R.owner
  length : IntRange.int.Has R.length
  sorted : R.props.Pairwise fun p q => p.1 < q.1
  bounded : ∀ p ∈ R.props, p.1 < R.length
  vals : ∀ p ∈ R.props, p.2.Fits ft

/-! ## What is read -/

/-- The values of the properties from `i` on, all of which have slots. -/
def fill (length : Nat) : Nat → List (Nat × Var) → List Var
  | i, [] => List.replicate (length - i) .clear
  | i, (c, v) :: ps => List.replicate (c - i) .clear ++ v :: fill length (c + 1) ps

namespace Record

/-- The recorded properties that are mapped. -/
def mappable (R : Record) : List (Nat × Var) := R.props.filter fun p => p.1 < nMappableProps

/-- The others. -/
def unmappable (R : Record) : List (Nat × Var) := R.props.filter fun p => nMappableProps ≤ p.1

/-- The values as they are stored. -/
def slots (R : Record) : List Var :=
  R.mappable.map Prod.snd ++ fill R.length nMappableProps R.unmappable

/-- The map. -/
def map (R : Record) : BitVec nMappableProps := (R.mappable.map Prod.fst).foldl mapProp 0

/-- The waif that is read, in which the other waifs have new names. -/
def waif (f : Nat → Nat) (R : Record) : Waif :=
  { cls := R.cls, owner := R.owner, propdefs := none,
    propvals := some (R.slots.map (Var.rename f)), pmap := R.map }

end Record

section Restores

variable {α β : Type} (ft : FloatText) (records : Nat → Option Record) (final : List Nat)

/-- The waif that stands for `r` after the load. -/
def loadedWaif (r : Nat) : Waif := ((records r).map (Record.waif final.idxOf)).getD blankWaif

/-- The loader when the waifs `s'` have numbers and those of `s` had them before. -/
def Loader.grow (l : Loader) (s s' : List Nat) : Loader :=
  { l with savedWaifs := l.savedWaifs ++ (s'.drop s.length).map (loadedWaif records final) }

/-- The reader gives back `a` for the text of the pieces, if that is not longer than `n`.
All waifs are numbered as in `final`. -/
def Restores (n : Nat) (r : Reader Loader α) (ps : List Piece) (a : α) : Prop :=
  ∀ s t s', t.length ≤ n → Emits ft records ps s t s' → s' <+: final →
    ∀ l : Loader, l.savedWaifs.length = s.length → Takes r l t a (l.grow records final s s')

variable {ft records final} {n : Nat} {r : Reader Loader α} {f : α → Reader Loader β}
  {ps qs : List Piece} {a : α} {b : β}

lemma Loader.grow_self (l : Loader) (s : List Nat) : l.grow records final s s = l := by
  simp [Loader.grow]

lemma Loader.grow_grow (l : Loader) {s s₁ s' : List Nat} (h : s <+: s₁) (h' : s₁ <+: s') :
    (l.grow records final s s₁).grow records final s₁ s' = l.grow records final s s' := by
  obtain ⟨x, rfl⟩ := h
  obtain ⟨y, rfl⟩ := h'
  simp [Loader.grow, List.drop_append, List.drop_eq_nil_of_le]

lemma Loader.length_grow (l : Loader) {s s' : List Nat} (h : s <+: s')
    (hl : l.savedWaifs.length = s.length) :
    (l.grow records final s s').savedWaifs.length = s'.length := by
  obtain ⟨x, rfl⟩ := h
  simp [Loader.grow, hl]

lemma Restores.mono (h : Restores ft records final n r ps a) {m : Nat} (hm : m ≤ n) :
    Restores ft records final m r ps a :=
  fun s t s' ht => h s t s' (ht.trans hm)

lemma Restores.pure (a : α) : Restores ft records final n (Pure.pure a) [] a := by
  intro s t s' _ he _ l _
  cases he
  rw [Loader.grow_self]
  exact Takes.pure a l

/-- A line that is no value. -/
lemma Restores.text {u : List Char} (h : ∀ l : Loader, Takes r l u a l) :
    Restores ft records final n r [.text u] a := by
  intro s t s' _ he _ l _
  cases he with
  | text he =>
    cases he
    rw [Loader.grow_self, List.append_nil]
    exact h l

lemma Restores.bind (h : Restores ft records final n r ps a)
    (h' : Restores ft records final n (f a) qs b) :
    Restores ft records final n (r >>= f) (ps ++ qs) b := by
  intro s t s' ht he hp l hl
  obtain ⟨t₁, t₂, s₁, rfl, h₁, h₂⟩ := he.split ps qs rfl
  rw [List.length_append] at ht
  have hs₁ := h₂.isPrefix
  have hr := h s t₁ s₁ (by omega) h₁ (hs₁.trans hp) l hl
  have hf := h' s₁ t₂ s' (by omega) h₂ hp (l.grow records final s s₁)
    (l.length_grow h₁.isPrefix hl)
  rw [l.grow_grow h₁.isPrefix hs₁] at hf
  exact hr.bind hf

/-- A line in front leaves less text for the rest. -/
lemma Restores.text_bind {u : List Char} (h : ∀ l : Loader, Takes r l u a l)
    (h' : Restores ft records final (n - u.length) (f a) qs b) :
    Restores ft records final n (r >>= f) (.text u :: qs) b := by
  intro s t s' ht he hp l hl
  cases he with
  | text he =>
    rw [List.length_append] at ht
    exact (h l).bind (h' s _ s' (by omega) he hp l hl)

lemma Restores.text_then {u : List Char} (h : ∀ l : Loader, Takes r l u a l)
    (h' : Restores ft records final n (f a) qs b) :
    Restores ft records final n (r >>= f) (.text u :: qs) b :=
  Restores.text_bind h (h'.mono (Nat.sub_le ..))

lemma Restores.map (h : Restores ft records final n r ps a) (g : α → β) :
    Restores ft records final n (g <$> r) ps (g a) :=
  fun s t s' ht he hp l hl => (h s t s' ht he hp l hl).map

/-- A reader that ends in a pure step. -/
lemma Restores.bind_pure (h : Restores ft records final n r ps a) (g : α → β) :
    Restores ft records final n (r >>= fun a => Pure.pure (g a)) ps (g a) := by
  have := h.bind (Restores.pure (g a)) (f := fun a => Pure.pure (g a))
  rwa [List.append_nil] at this

lemma Restores.bind_pure' (h : Restores ft records final n r ps a) {g : α → β} (hb : g a = b) :
    Restores ft records final n (r >>= fun a => Pure.pure (g a)) ps b :=
  hb ▸ h.bind_pure g

/-- A loop that reads as many items as were written. -/
lemma Restores.times {γ : Type} {xs : List γ} {g : γ → List Piece} {k : γ → α}
    (h : ∀ x ∈ xs, Restores ft records final n r (g x) (k x)) :
    Restores ft records final n (Reader.times r xs.length) (xs.flatMap g) (xs.map k) := by
  induction xs with
  | nil => exact Restores.pure []
  | cons x xs ih =>
    rw [List.flatMap_cons]
    exact (h x (by simp)).bind ((ih fun y hy => h y (by simp [hy])).bind_pure _)

end Restores

/-! ## Values -/

section Values

variable {ft : FloatText} {records : Nat → Option Record} {final : List Nat}

lemma takes_intmaxText {range : IntRange} {i : Int} (h : range.Has i) (l : Loader) :
    Takes (dbioReadInteger range) l (intmaxText i) i l := takes_dbioReadInteger h l

/-- A number as the payload of a value. -/
lemma takes_num (c : Int → Var) {i : Int} (h : IntRange.num.Has i) (l : Loader) :
    Takes (c <$> dbioReadInteger .num) l (intmaxText i) (c i) l := (takes_intmaxText h l).map

lemma takes_err (e : ErrorCode) (l : Loader) :
    Takes (Var.err <$> dbioReadErr) l (intmaxText e.toNum) (.err e) l := by
  have hrange : IntRange.err.Has e.toNum := by
    cases e <;> decide
  apply Takes.map
  refine (takes_intmaxText hrange l).bind_last (Takes.lift ?_)
  cases e <;> rfl

lemma takes_float {d : FlNum} (h : ft.Exact d) (l : Loader) :
    Takes (Var.float <$> dbioReadFloat ft) l (floatText ft d) (.float d) l := by
  apply Takes.map
  refine (Takes.line h.line).bind_last (Takes.lift ?_)
  simp [h.back, h.start]

/-- The line with the type. -/
lemma takes_typeCode (v : Var) (l : Loader) :
    Takes (dbioReadInteger .intmax) l (intmaxText v.typeCode) v.typeCode l := by
  apply takes_intmaxText
  cases v <;> simp only [Var.typeCode] <;> decide

/-- A value without parts is read back whole. -/
lemma takes_scalar {v : Var} {u : List Char} (hu : v.scalarText ft = some u) (hv : v.Fits ft)
    (f : Nat → Nat) (n : Nat) (l : Loader) :
    Takes (dbioReadVar ft (n + 1)) l u (v.rename f) l := by
  cases v with
  | list vs => simp [Var.scalarText] at hu
  | waif r => simp [Var.scalarText] at hu
  | clear =>
    cases hu
    exact (takes_typeCode .clear l).bind_last (Takes.pure _ l)
  | none =>
    cases hu
    exact (takes_typeCode .none l).bind_last (Takes.pure _ l)
  | str s =>
    cases hu
    exact (takes_typeCode (.str s) l).bind (takes_dbioReadString hv l).map
  | err e =>
    cases hu
    exact (takes_typeCode (.err e) l).bind (takes_err e l)
  | int i =>
    cases hu
    exact (takes_typeCode (.int i) l).bind (takes_num Var.int hv l)
  | obj i =>
    cases hu
    exact (takes_typeCode (.obj i) l).bind (takes_num Var.obj hv l)
  | catchMark i =>
    cases hu
    exact (takes_typeCode (.catchMark i) l).bind (takes_num Var.catchMark hv l)
  | finallyMark i =>
    cases hu
    exact (takes_typeCode (.finallyMark i) l).bind (takes_num Var.finallyMark hv l)
  | float d =>
    cases hu
    exact (takes_typeCode (.float d) l).bind (takes_float hv l)

variable {n : Nat} {readVar : Reader Loader Var} {f : Nat → Nat}

lemma restores_readPackable {ps : List (Nat × Var)} {cur : Int} (hrange : IntRange.int.Has cur)
    (hcur : ¬ (0 ≤ cur ∧ cur < nMappableProps))
    (hps : ∀ p ∈ ps, p.1 < nMappableProps ∧
      Restores ft records final n readVar [.var p.2] (p.2.rename f))
    {fuel : Nat} (hfuel : ps.length < fuel) {packable : List Var}
    (hlen : packable.length + ps.length ≤ nMappableProps) (map : BitVec nMappableProps) :
    Restores ft records final n (readPackable readVar fuel packable map)
      (ps.flatMap propPieces ++ [.text (intmaxText cur)])
      (cur, packable ++ ps.map (fun p => p.2.rename f), (ps.map Prod.fst).foldl mapProp map) := by
  induction ps generalizing fuel packable map with
  | nil =>
    obtain ⟨fuel, rfl⟩ := Nat.exists_eq_add_of_lt hfuel
    simp only [List.length_nil, Nat.zero_add]
    unfold readPackable
    refine Restores.text_bind (fun l => takes_intmaxText hrange l) ?_
    rw [if_neg hcur, List.map_nil, List.append_nil]
    exact Restores.pure _
  | cons p ps ih =>
    obtain ⟨fuel, rfl⟩ : ∃ m, fuel = m + 1 := ⟨fuel - 1, by simp at hfuel; omega⟩
    obtain ⟨hp, hv⟩ := hps p (by simp)
    have hidx : IntRange.int.Has p.1 :=
      IntRange.Has.of_le (j := nMappableProps) (by decide) hp.le
    simp only [List.length_cons] at hfuel hlen
    unfold readPackable
    rw [List.flatMap_cons, List.append_assoc]
    refine Restores.text_bind (fun l => takes_intmaxText hidx l) ?_
    have hcur' : (0 : Int) ≤ p.1 ∧ (p.1 : Int) < nMappableProps :=
      ⟨by omega, by exact_mod_cast hp⟩
    have hroom : packable.length < nMappableProps := by omega
    rw [if_pos hcur', if_pos hroom, lift_some, pure_bind]
    refine (hv.mono (Nat.sub_le ..)).bind (Restores.mono ?_ (Nat.sub_le ..)) (a := p.2.rename f)
    have hlen' : (packable ++ [p.2.rename f]).length + ps.length ≤ nMappableProps := by
      simp only [List.length_append, List.length_singleton]
      omega
    have := ih (fun q hq => hps q (by simp [hq])) (Nat.lt_of_succ_lt_succ hfuel) hlen'
      (mapProp map p.1)
    simpa using this

lemma nextIndex_has {ps : List (Nat × Var)} {length : Nat} (hl : IntRange.int.Has length)
    (hps : ∀ p ∈ ps, p.1 < length) : IntRange.int.Has (nextIndex ps) := by
  cases ps with
  | nil => decide
  | cons p ps => exact hl.of_le (hps p (by simp)).le

lemma map_rename_replicate_clear (k : Nat) :
    (List.replicate k Var.clear).map (Var.rename f) = List.replicate k .clear := by
  rw [List.map_replicate]
  rfl

lemma restores_readUnpackable {ps : List (Nat × Var)} {length : Nat}
    (hl : IntRange.int.Has length) (hsorted : ps.Pairwise fun p q => p.1 < q.1) {i : Nat}
    (hps : ∀ p ∈ ps, i ≤ p.1 ∧ p.1 < length ∧
      Restores ft records final n readVar [.var p.2] (p.2.rename f))
    {fuel : Nat} (hfuel : ps.length < fuel) (q : List Var) :
    Restores ft records final n (readUnpackable readVar length fuel (nextIndex ps) i q)
      (restPieces ps) (q ++ (fill length i ps).map (Var.rename f)) := by
  induction ps generalizing fuel i q with
  | nil =>
    obtain ⟨fuel, rfl⟩ := Nat.exists_eq_add_of_lt hfuel
    simp only [List.length_nil, Nat.zero_add]
    unfold readUnpackable nextIndex
    rw [if_pos (by decide), fill, map_rename_replicate_clear]
    exact Restores.pure _
  | cons p ps ih =>
    obtain ⟨c, v⟩ := p
    obtain ⟨fuel, rfl⟩ : ∃ m, fuel = m + 1 := ⟨fuel - 1, by simp at hfuel; omega⟩
    obtain ⟨hic, hc, hv⟩ := hps (c, v) (by simp)
    simp only [List.length_cons] at hfuel
    rw [List.pairwise_cons] at hsorted
    have hneg : ¬ (c : Int) < 0 := by omega
    have hmax : max i c = c := Nat.max_eq_right hic
    have hc' : c < length := hc
    have hrest := ih hsorted.2 (i := c + 1)
      (fun q hq => ⟨hsorted.1 q hq, (hps q (by simp [hq])).2⟩) (Nat.lt_of_succ_lt_succ hfuel)
      (q ++ List.replicate (c - i) .clear ++ [v.rename f])
    have hnext : IntRange.int.Has (nextIndex ps) :=
      nextIndex_has hl fun q hq => (hps q (by simp [hq])).2.1
    unfold readUnpackable
    simp only [nextIndex, hneg, if_false, Int.toNat_natCast, hmax, hc', if_true, lift_some,
      pure_bind]
    have hq : q ++ (fill length i ((c, v) :: ps)).map (Var.rename f)
        = q ++ List.replicate (c - i) .clear ++ [v.rename f]
          ++ (fill length (c + 1) ps).map (Var.rename f) := by
      simp only [fill, List.map_append, map_rename_replicate_clear, List.map_cons,
        List.append_assoc, List.cons_append, List.nil_append]
    rw [hq]
    refine hv.bind (a := v.rename f) ?_
    exact Restores.text_bind (fun l => takes_intmaxText hnext l) (hrest.mono (Nat.sub_le ..))

lemma takes_dot (l : Loader) : Takes (dbioScxnf [.lit '.']) l ['.', '\n'] (1, []) l :=
  takes_dbioScxnf (u := ['.']) (by simp) (by simp) rfl l

/-- The properties in ascending order are the mappable ones and then the others. -/
lemma Record.Fits.props_eq {R : Record} (h : R.Fits ft) : R.props = R.mappable ++ R.unmappable := by
  have hs := h.sorted
  unfold Record.mappable Record.unmappable
  generalize R.props = ps at hs
  induction ps with
  | nil => rfl
  | cons p ps ih =>
    rw [List.pairwise_cons] at hs
    by_cases hp : p.1 < nMappableProps
    · simp only [List.filter_cons, hp, decide_true, if_true, Nat.not_le.mpr hp, decide_false,
        Bool.false_eq_true, if_false, List.cons_append]
      rw [← ih hs.2]
    · have hall : ∀ q ∈ ps, nMappableProps ≤ q.1 :=
        fun q hq => (Nat.not_lt.mp hp).trans (hs.1 q hq).le
      have hnone : ps.filter (fun q => decide (q.1 < nMappableProps)) = [] := by
        simpa [List.filter_eq_nil_iff] using hall
      have hevery : ps.filter (fun q => decide (nMappableProps ≤ q.1)) = ps := by
        simpa [List.filter_eq_self] using hall
      simp only [List.filter_cons, hp, decide_false, Bool.false_eq_true, if_false,
        Nat.not_lt.mp hp, decide_true, if_true, hnone, hevery, List.nil_append]

lemma Record.Fits.length_mappable {R : Record} (h : R.Fits ft) :
    R.mappable.length ≤ nMappableProps := by
  have hs : (R.mappable.map Prod.fst).Pairwise (· < ·) :=
    List.pairwise_map.mpr (h.sorted.sublist List.filter_sublist)
  have hsub : R.mappable.map Prod.fst ⊆ List.range nMappableProps := by
    intro i hi
    obtain ⟨p, hp, rfl⟩ := List.mem_map.mp hi
    rw [Record.mappable, List.mem_filter] at hp
    simpa using hp.2
  have hnodup : (R.mappable.map Prod.fst).Nodup := hs.imp fun hlt => Nat.ne_of_lt hlt
  have := (List.subperm_of_subset hnodup hsub).length_le
  simpa using this

lemma restores_readWaifBody {R : Record} (hR : R.Fits ft)
    (hv : ∀ p ∈ R.props, Restores ft records final n readVar [.var p.2] (p.2.rename f))
    {fuel : Nat} (hfuel : R.props.length < fuel) (index : Nat) :
    Restores ft records final n (readWaifBody readVar fuel) (R.pieces index).tail (R.waif f) := by
  have hsplit := hR.props_eq
  have hnext : IntRange.int.Has (nextIndex R.unmappable) :=
    nextIndex_has hR.length fun p hp => hR.bounded p (List.mem_of_mem_filter hp)
  have hcur : ¬ (0 ≤ nextIndex R.unmappable ∧ nextIndex R.unmappable < nMappableProps) := by
    cases hu : R.unmappable with
    | nil => simp [nextIndex]
    | cons p ps =>
      have hp : p ∈ R.unmappable := hu ▸ List.mem_cons_self
      rw [Record.unmappable, List.mem_filter, decide_eq_true_eq] at hp
      have : (nMappableProps : Int) ≤ p.1 := by exact_mod_cast hp.2
      simp only [nextIndex]
      omega
  have hlen := congrArg List.length hsplit
  rw [List.length_append] at hlen
  have hpieces : (R.pieces index).tail = .text (intmaxText R.cls) :: .text (intmaxText R.owner) ::
      .text (intmaxText R.length) :: ((R.mappable.flatMap propPieces ++
        [.text (intmaxText (nextIndex R.unmappable))]) ++
        (restPieces R.unmappable ++ [.text ['.', '\n']])) := by
    have hflat : R.props.flatMap propPieces ++ [.text (intmaxText (-1))]
        = R.mappable.flatMap propPieces ++ .text (intmaxText (nextIndex R.unmappable)) ::
          restPieces R.unmappable := by
      rw [hsplit, List.flatMap_append, List.append_assoc, flatMap_propPieces_append]
    have htail : (R.pieces index).tail = .text (intmaxText R.cls) ::
        .text (intmaxText R.owner) :: .text (intmaxText R.length) ::
        ((R.props.flatMap propPieces ++ [.text (intmaxText (-1))]) ++ [.text ['.', '\n']]) := by
      simp [Record.pieces]
    rw [htail, hflat]
    simp
  rw [hpieces]
  have hmappable : ∀ p ∈ R.mappable, p.1 < nMappableProps ∧
      Restores ft records final n readVar [.var p.2] (p.2.rename f) := by
    intro p hp
    rw [Record.mappable, List.mem_filter, decide_eq_true_eq] at hp
    exact ⟨hp.2, hv p hp.1⟩
  have hunmappable : ∀ p ∈ R.unmappable, nMappableProps ≤ p.1 ∧ p.1 < R.length ∧
      Restores ft records final n readVar [.var p.2] (p.2.rename f) := by
    intro p hp
    rw [Record.unmappable, List.mem_filter, decide_eq_true_eq] at hp
    exact ⟨hp.2, hR.bounded p hp.1, hv p hp.1⟩
  have hsorted : R.unmappable.Pairwise fun p q => p.1 < q.1 :=
    hR.sorted.sublist List.filter_sublist
  refine Restores.text_then (fun l => takes_intmaxText hR.cls l) ?_
  refine Restores.text_then (fun l => takes_intmaxText hR.owner l) ?_
  refine Restores.text_then (fun l => takes_intmaxText hR.length l) ?_
  refine Restores.bind (restores_readPackable hnext hcur hmappable (by omega)
    (by simpa using hR.length_mappable) 0) ?_
  refine Restores.bind (restores_readUnpackable hR.length hsorted hunmappable (by omega) _) ?_
  refine (Restores.text fun l => takes_dot l).bind_pure' ?_
  simp [Record.waif, Record.slots, Record.map, Function.comp_def]

lemma takes_waifFormat {c : Char} (hc : c ≠ '\n') {index : Nat} (h : IntRange.uint.Has index)
    (l : Loader) :
    Takes (dbioScxnf waifFormat) l (waifText c index) (1, [.char c, .num index]) l := by
  refine takes_dbioScxnf (u := c :: ' ' :: decimal index) (by simp [waifFormat]) ?_ ?_ l
  · simp [Ne.symm hc, newline_notMem_decimal]
  · have hspace : (' ' :: decimal index).dropWhile isSpace = decimal index ++ [] := by
      have := dropWhile_isSpace_decimal index []
      rw [List.append_nil] at this ⊢
      rw [List.dropWhile_cons_of_pos (by decide), this]
    simp only [waifFormat, scanFormat.eq_def false (.char :: _), List.head?_cons, lift_some,
      pure_bind, List.tail_cons, scanFormat.eq_def false (.space :: _), hspace]
    rw [scanFormat_num h rfl]
    rfl

lemma length_intmaxText_pos (i : Int) : 0 < (intmaxText i).length := by simp [intmaxText]

/-- A waif that has a number keeps it. -/
lemma idxOf_eq_of_isPrefix {s s' : List Nat} (h : s <+: s') {r : Nat} (hr : r ∈ s) :
    s'.idxOf r = s.idxOf r := by
  obtain ⟨x, rfl⟩ := h
  exact List.idxOf_append_of_mem hr

lemma idxOf_eq_length {s s' : List Nat} {r : Nat} (hr : r ∉ s) (h : s ++ [r] <+: s') :
    s'.idxOf r = s.length := by
  rw [idxOf_eq_of_isPrefix h (by simp), List.idxOf_append_of_notMem hr]
  simp

/-- The text of a value is not empty. -/
lemma Emits.length_var_pos {v : Var} {ps : List Piece} {s s' : List Nat} {t : List Char}
    (h : Emits ft records (.var v :: ps) s t s') : 0 < t.length := by
  have hcode := length_intmaxText_pos v.typeCode
  cases h with
  | scalar hu h =>
    rw [List.length_append]
    cases v <;> simp only [Var.scalarText, Option.some.injEq, reduceCtorEq] at hu <;> subst hu <;>
      (try rw [List.length_append]) <;> omega
  | list h =>
    cases h with
    | text h =>
      rw [List.length_append]
      exact Nat.add_pos_left hcode _
  | ref _ h =>
    cases h with
    | text h =>
      rw [List.length_append]
      exact Nat.add_pos_left hcode _
  | new _ _ h =>
    cases h with
    | text h =>
      rw [List.length_append]
      exact Nat.add_pos_left hcode _

lemma weight_propPieces (ps : List (Nat × Var)) :
    ps.length ≤ ((ps.flatMap propPieces).map Piece.weight).sum := by
  induction ps with
  | nil => simp
  | cons p ps ih =>
    have := length_intmaxText_pos p.1
    simp only [List.flatMap_cons, propPieces, List.cons_append, List.nil_append, List.map_cons,
      List.sum_cons, Piece.weight, List.length_cons] at ih ⊢
    omega

/-- `dbio_read_var` reads back every value, and its waifs with it. -/
lemma restores_dbioReadVar (hrec : ∀ r R, records r = some R → R.Fits ft) (n : Nat) :
    ∀ m, n ≤ m → ∀ v : Var, v.Fits ft → (v.waifs = [] ∨ IntRange.uint.Has final.length) →
      Restores ft records final n (dbioReadVar ft m) [.var v] (v.rename final.idxOf) := by
  induction n using Nat.strong_induction_on with
  | _ n ih =>
    intro m hm v hv hwaifs s t s' ht he hp l hl
    have hpos := he.length_var_pos
    obtain ⟨m, rfl⟩ : ∃ k, m = k + 1 := ⟨m - 1, by omega⟩
    cases he with
    | scalar hu he =>
      cases he
      rw [Loader.grow_self, List.append_nil]
      exact takes_scalar hu hv _ m l
    | @list vs _ _ _ _ he =>
      obtain ⟨hlen, hall⟩ := hv
      rw [Var.allFit_iff] at hall
      have hcode := length_intmaxText_pos 4
      have hvs : vs.map Piece.var = vs.flatMap fun v => [Piece.var v] := List.map_eq_flatMap
      have hread : Restores ft records final n (dbioReadVar ft (m + 1))
          (.text (intmaxText 4) :: .text (intmaxText vs.length) :: vs.map .var)
          (.list (vs.map (Var.rename final.idxOf))) := by
        refine Restores.text_bind (fun l => takes_typeCode (.list vs) l) ?_
        refine Restores.text_then (fun l => takes_intmaxText hlen l) ?_
        rw [hvs]
        refine (Restores.times fun v hv => ?_).bind_pure Var.list
        refine ih _ (by omega) m (by omega) v (hall v hv) (hwaifs.imp_left fun hnil => ?_)
        rw [Var.waifs, Var.waifsOf_eq_flatMap, List.flatMap_eq_nil_iff] at hnil
        exact hnil v hv
      rw [Var.rename, Var.renames_eq_map]
      rw [List.append_nil] at he
      exact hread s t s' ht he hp l hl
    | @ref r _ _ _ _ hr he =>
      cases he with
      | text he =>
        cases he with
        | text he =>
          cases he
          have hfinal := hwaifs.resolve_left (by simp [Var.waifs])
          have hidx := idxOf_eq_of_isPrefix hp hr
          have hlt : s.idxOf r < s.length := List.idxOf_lt_length_of_mem hr
          have hrange : IntRange.uint.Has (s.idxOf r) :=
            hfinal.of_le (hlt.le.trans hp.length_le)
          rw [Loader.grow_self, List.append_nil, Var.rename, hidx]
          refine (takes_typeCode (.waif r) l).bind ?_
          refine (takes_waifFormat (by decide) hrange l).bind ?_
          refine Takes.bind_nil (a := l.savedWaifs) (fun _ => rfl) ?_
          refine (takes_dot l).bind_last (Takes.lift ?_)
          simp [hl, hlt]
    | @new r R _ _ _ _ hr hR he =>
      have hfinal := hwaifs.resolve_left (by simp [Var.waifs])
      have hfit := hrec r R hR
      have hweight := he.weight_le
      have hpre := he.isPrefix
      have hidx : final.idxOf r = s.length := idxOf_eq_length hr (hpre.trans hp)
      have hprops : R.props.length < m := by
        have h₁ := weight_propPieces R.props
        have h₂ := length_intmaxText_pos R.cls
        have h₃ := length_intmaxText_pos R.owner
        simp only [Record.pieces, List.cons_append, List.nil_append, List.append_nil,
          List.map_cons, List.sum_cons, List.map_append, List.sum_append, Piece.weight] at hweight
        omega
      rw [List.append_nil] at he
      cases he with
      | text he =>
        cases he with
        | @text _ _ _ t _ he =>
          have hshort : t.length < n := by
            have := length_intmaxText_pos 10
            simp only [List.length_append] at ht
            omega
          have hrange : IntRange.uint.Has s.length := by
            refine hfinal.of_le (le_trans ?_ (hpre.trans hp).length_le)
            simp
          -- the waif is allocated before its properties are read
          have hbody := restores_readWaifBody (n := t.length) hfit
            (fun p hmem => ih t.length hshort m (by omega) p.2 (hfit.vals p hmem) (Or.inr hfinal))
            hprops s.length
          let l₁ : Loader := { l with savedWaifs := l.savedWaifs ++ [blankWaif] }
          have halloc : Takes allocWaif l [] () l₁ := fun _ => rfl
          have hfill : Takes (fillWaif l.savedWaifs.length (R.waif final.idxOf))
              (l₁.grow records final (s ++ [r]) s') [] () (l.grow records final s s') := by
            intro rest
            obtain ⟨x, rfl⟩ := hpre
            simp [fillWaif, Loader.grow, l₁, loadedWaif, hR]
          rw [Var.rename, hidx]
          refine (takes_typeCode (.waif r) l).bind ?_
          refine (takes_waifFormat (c := 'c') (by decide) hrange l).bind ?_
          refine Takes.bind_nil (a := l.savedWaifs) (fun _ => rfl) ?_
          refine Takes.bind_nil (Takes.lift (if_pos (by rw [hl]))) (halloc.bind_nil ?_)
          refine (hbody (s ++ [r]) t s' le_rfl he hp l₁ (by simp [l₁, hl])).bind_last ?_
          refine hfill.bind_nil ?_
          rw [hl]
          exact Takes.pure _ _

end Values

end LambdaMOO
