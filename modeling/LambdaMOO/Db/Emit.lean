import LambdaMOO.Db.Dump
import Mathlib.Data.List.Nodup

/-!
# What a dump says

The text of a dump as a relation that knows nothing of memory: a waif is what is recorded of
it, and the waifs that have been written are a list whose order gives the numbers.
-/

namespace LambdaMOO

variable {P : Type}

/-- What a file records of a waif: the properties that are not clear, with their indices. -/
structure Record where
  cls : Int
  owner : Int
  length : Nat
  props : List (Nat × Var)

/-- The lines of a property. -/
def propPieces (p : Nat × Var) : List Piece := [.text (intmaxText p.1), .var p.2]

/-- The lines of a waif with the number `index`. -/
def Record.pieces (R : Record) (index : Nat) : List Piece :=
  [.text (waifText 'c' index), .text (intmaxText R.cls), .text (intmaxText R.owner),
    .text (intmaxText R.length)] ++
  R.props.flatMap propPieces ++
  [.text (intmaxText (-1)), .text ['.', '\n']]

/-- The index line behind which the loop over the mappable properties ends, or the loop over
the others goes on. -/
def nextIndex : List (Nat × Var) → Int
  | [] => -1
  | (c, _) :: _ => c

/-- The lines of the other properties behind the first index. -/
def restPieces : List (Nat × Var) → List Piece
  | [] => []
  | (_, v) :: ps => .var v :: .text (intmaxText (nextIndex ps)) :: restPieces ps

lemma flatMap_propPieces_append (ps : List (Nat × Var)) :
    ps.flatMap propPieces ++ [.text (intmaxText (-1))]
      = .text (intmaxText (nextIndex ps)) :: restPieces ps := by
  induction ps with
  | nil => rfl
  | cons p ps ih => rw [List.flatMap_cons, List.append_assoc, ih]; rfl

/-- The length of a line; a value counts nothing. -/
def Piece.weight : Piece → Nat
  | .text t => t.length
  | .var _ => 0

/-- The text of a value without parts. -/
def Var.scalarText (ft : FloatText) (v : Var) : Option (List Char) :=
  match v with
  | .clear | .none => some (intmaxText v.typeCode)
  | .str s => some (intmaxText v.typeCode ++ stringText s)
  | .err e => some (intmaxText v.typeCode ++ intmaxText e.toNum)
  | .obj n | .int n | .catchMark n | .finallyMark n =>
    some (intmaxText v.typeCode ++ intmaxText n)
  | .float d => some (intmaxText v.typeCode ++ floatText ft d)
  | .list _ | .waif _ => Option.none

/-- The text of some pieces. `records` gives what is recorded of each waif; the waifs with a
number are `s` before and `s'` behind the text. -/
inductive Emits (ft : FloatText) (records : Nat → Option Record) :
    List Piece → List Nat → List Char → List Nat → Prop
  | nil {s} : Emits ft records [] s [] s
  | text {u ps s t s'} :
      Emits ft records ps s t s' → Emits ft records (.text u :: ps) s (u ++ t) s'
  | scalar {v u ps s t s'} :
      v.scalarText ft = some u → Emits ft records ps s t s' →
      Emits ft records (.var v :: ps) s (u ++ t) s'
  | list {vs ps s t s'} :
      Emits ft records
        ([.text (intmaxText 4), .text (intmaxText vs.length)] ++ vs.map .var ++ ps) s t s' →
      Emits ft records (.var (.list vs) :: ps) s t s'
  | ref {r ps s t s'} :
      r ∈ s →
      Emits ft records
        (.text (intmaxText 10) :: .text (waifText 'r' (s.idxOf r) ++ ['.', '\n']) :: ps) s t s' →
      Emits ft records (.var (.waif r) :: ps) s t s'
  | new {r R ps s t s'} :
      r ∉ s → records r = some R →
      Emits ft records (.text (intmaxText 10) :: R.pieces s.length ++ ps) (s ++ [r]) t s' →
      Emits ft records (.var (.waif r) :: ps) s t s'

namespace Emits

variable {ft : FloatText} {records : Nat → Option Record} {ps qs : List Piece}
  {s s' s'' : List Nat} {t u : List Char}

lemma append (h : Emits ft records ps s t s') (h' : Emits ft records qs s' u s'') :
    Emits ft records (ps ++ qs) s (t ++ u) s'' := by
  induction h with
  | nil => exact h'
  | text _ ih =>
    rw [List.append_assoc]
    exact .text (ih h')
  | scalar hv _ ih =>
    rw [List.append_assoc]
    exact .scalar hv (ih h')
  | list _ ih =>
    rw [List.cons_append]
    apply Emits.list
    simpa only [List.append_assoc] using ih h'
  | ref hr _ ih => exact .ref hr (ih h')
  | new hr hR _ ih =>
    rw [List.cons_append]
    apply Emits.new hr hR
    simpa only [List.append_assoc] using ih h'

/-- The text of two parts is the text of the one and then of the other. -/
lemma split {xs : List Piece} (h : Emits ft records xs s t s') :
    ∀ ps qs, xs = ps ++ qs → ∃ t₁ t₂ s₁, t = t₁ ++ t₂ ∧ Emits ft records ps s t₁ s₁ ∧
      Emits ft records qs s₁ t₂ s' := by
  -- an empty first part is the same in every case
  have hnil : ∀ {xs s t s'}, Emits ft records xs s t s' → ∀ qs, xs = [] ++ qs →
      ∃ t₁ t₂ s₁, t = t₁ ++ t₂ ∧ Emits ft records [] s t₁ s₁ ∧ Emits ft records qs s₁ t₂ s' :=
    fun {_ s t _} h qs hxs => ⟨[], t, s, rfl, .nil, by rw [hxs] at h; exact h⟩
  induction h with
  | nil =>
    intro ps qs hxs
    obtain ⟨rfl, rfl⟩ := List.append_eq_nil_iff.mp hxs.symm
    exact hnil .nil _ rfl
  | text h ih =>
    rintro (_ | ⟨p, ps⟩) qs hxs
    · exact hnil (.text h) qs hxs
    · obtain ⟨rfl, htail⟩ := List.cons.inj hxs
      obtain ⟨t₁, t₂, s₁, rfl, h₁, h₂⟩ := ih ps qs htail
      exact ⟨_, t₂, s₁, (List.append_assoc ..).symm, .text h₁, h₂⟩
  | scalar hv h ih =>
    rintro (_ | ⟨p, ps⟩) qs hxs
    · exact hnil (.scalar hv h) qs hxs
    · obtain ⟨rfl, htail⟩ := List.cons.inj hxs
      obtain ⟨t₁, t₂, s₁, rfl, h₁, h₂⟩ := ih ps qs htail
      exact ⟨_, t₂, s₁, (List.append_assoc ..).symm, .scalar hv h₁, h₂⟩
  | list h ih =>
    rintro (_ | ⟨p, ps⟩) qs hxs
    · exact hnil (.list h) qs hxs
    · obtain ⟨rfl, rfl⟩ := List.cons.inj hxs
      obtain ⟨t₁, t₂, s₁, rfl, h₁, h₂⟩ := ih (_ ++ ps) qs (List.append_assoc ..).symm
      exact ⟨t₁, t₂, s₁, rfl, .list h₁, h₂⟩
  | ref hr h ih =>
    rintro (_ | ⟨p, ps⟩) qs hxs
    · exact hnil (.ref hr h) qs hxs
    · obtain ⟨rfl, rfl⟩ := List.cons.inj hxs
      obtain ⟨t₁, t₂, s₁, rfl, h₁, h₂⟩ := ih (_ :: _ :: ps) qs rfl
      exact ⟨t₁, t₂, s₁, rfl, .ref hr h₁, h₂⟩
  | new hr hR h ih =>
    rintro (_ | ⟨p, ps⟩) qs hxs
    · exact hnil (.new hr hR h) qs hxs
    · obtain ⟨rfl, rfl⟩ := List.cons.inj hxs
      obtain ⟨t₁, t₂, s₁, rfl, h₁, h₂⟩ := ih (_ ++ ps) qs (List.append_assoc ..).symm
      exact ⟨t₁, t₂, s₁, rfl, .new hr hR h₁, h₂⟩

lemma scalar_one {v : Var} (hv : v.scalarText ft = some u) (s : List Nat) :
    Emits ft records [.var v] s u s := by
  have h : Emits ft records [.var v] s (u ++ []) s := .scalar hv .nil
  rwa [List.append_nil] at h

lemma text_one (u : List Char) (s : List Nat) : Emits ft records [.text u] s u s := by
  have h : Emits ft records [.text u] s (u ++ []) s := .text .nil
  rwa [List.append_nil] at h

/-- Numbers are given out and not taken back. -/
lemma isPrefix (h : Emits ft records ps s t s') : s <+: s' := by
  induction h with
  | nil => exact List.prefix_rfl
  | text _ ih => exact ih
  | scalar _ _ ih => exact ih
  | list _ ih => exact ih
  | ref _ _ ih => exact ih
  | new _ _ _ ih => exact (List.prefix_append _ _).trans ih

/-- The lines among the pieces are part of the text. -/
lemma weight_le (h : Emits ft records ps s t s') : (ps.map Piece.weight).sum ≤ t.length := by
  induction h with
  | nil => simp
  | text _ ih =>
    rw [List.map_cons, List.sum_cons, List.length_append]
    exact Nat.add_le_add_left ih _
  | scalar _ _ ih =>
    rw [List.map_cons, List.sum_cons, List.length_append, Piece.weight]
    omega
  | list _ ih =>
    simp only [List.map_append, List.sum_append] at ih
    rw [List.map_cons, List.sum_cons, Piece.weight]
    omega
  | ref _ _ ih =>
    simp only [List.map_cons, List.sum_cons] at ih
    rw [List.map_cons, List.sum_cons, Piece.weight]
    omega
  | new _ _ _ ih =>
    simp only [List.map_append, List.sum_append] at ih
    rw [List.map_cons, List.sum_cons, Piece.weight]
    omega

lemma nodup (h : Emits ft records ps s t s') (hs : s.Nodup) : s'.Nodup := by
  induction h with
  | nil => exact hs
  | text _ ih => exact ih hs
  | scalar _ _ ih => exact ih hs
  | list _ ih => exact ih hs
  | ref _ _ ih => exact ih hs
  | @new r _ _ s _ _ hr _ _ ih =>
    apply ih
    rw [List.nodup_append]
    exact ⟨hs, List.nodup_singleton r, by rintro a ha b hb rfl; simp_all⟩

/-- Every waif in the pieces has a number in the end. -/
lemma covered (h : Emits ft records ps s t s') : ∀ v, .var v ∈ ps → ∀ r ∈ v.waifs, r ∈ s' := by
  induction h with
  | nil => simp
  | text _ ih =>
    intro v hv
    exact ih v (by simpa using hv)
  | @scalar v₀ _ _ _ _ _ hv₀ _ ih =>
    intro v hv r hr
    rcases List.mem_cons.mp hv with heq | hv
    · cases heq
      cases v₀ <;> simp_all [Var.waifs, Var.scalarText]
    · exact ih v hv r hr
  | @list vs _ _ _ _ _ ih =>
    intro v hv r hr
    rcases List.mem_cons.mp hv with heq | hv
    · cases heq
      rw [Var.waifs, Var.waifsOf_eq_flatMap, List.mem_flatMap] at hr
      obtain ⟨v, hv, hr⟩ := hr
      exact ih v (by simp [hv]) r hr
    · exact ih v (by simp [hv]) r hr
  | @ref r₀ _ _ _ _ hr₀ h' ih =>
    intro v hv r hr
    rcases List.mem_cons.mp hv with heq | hv
    · cases heq
      rw [Var.waifs, List.mem_singleton] at hr
      exact hr ▸ h'.isPrefix.subset hr₀
    · exact ih v (by simp [hv]) r hr
  | @new r₀ _ _ _ _ _ _ _ h' ih =>
    intro v hv r hr
    rcases List.mem_cons.mp hv with heq | hv
    · cases heq
      rw [Var.waifs, List.mem_singleton] at hr
      exact hr ▸ h'.isPrefix.subset (by simp)
    · exact ih v (by simp [hv]) r hr

/-- The waifs in the properties of a waif that got a number get one, too. -/
lemma closed (h : Emits ft records ps s t s') : ∀ r ∈ s', r ∉ s → ∀ R, records r = some R →
    ∀ p ∈ R.props, ∀ q ∈ p.2.waifs, q ∈ s' := by
  induction h with
  | nil => intro r hr hn; exact absurd hr hn
  | text _ ih => exact ih
  | scalar _ _ ih => exact ih
  | list _ ih => exact ih
  | ref _ _ ih => exact ih
  | @new r₀ R₀ _ s _ _ _ hR₀ h' ih =>
    intro r hr hn R hR p hp q hq
    by_cases heq : r = r₀
    · subst heq
      obtain rfl : R = R₀ := by simpa [hR] using hR₀
      refine h'.covered p.2 ?_ q hq
      have : Piece.var p.2 ∈ R.props.flatMap propPieces :=
        List.mem_flatMap.mpr ⟨p, hp, by simp [propPieces]⟩
      simp [Record.pieces, this]
    · exact ih r hr (by simp [hn, heq]) R hR p hp q hq

end Emits

end LambdaMOO
