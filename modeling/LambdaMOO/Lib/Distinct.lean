import Mathlib.Data.List.Basic
import Mathlib.Data.Set.Basic

/-!
# Lists without equal elements

A list stands for the set of what is equal to one of its elements, where what counts as equal is a
relation that need not hold between an element and itself.
-/

namespace Distinct

variable {α : Type*} (eq : α → α → Bool)

/-- What is equal to one of the elements. -/
def members (l : List α) : Set α := fun w => ∃ x ∈ l, eq w x = true

/-- No two elements are equal. -/
def Holds (l : List α) : Prop := l.Pairwise fun x y => eq x y = false

/-- A relation on values that can be taken for equality. -/
structure IsEquality : Prop where
  symm : ∀ x y, eq x y = eq y x
  trans : ∀ x y z, eq x y = true → eq y z = true → eq x z = true

variable {eq} {l : List α} {v w : α}

lemma mem_members_nil : w ∉ members eq [] := by
  rintro ⟨x, hx, -⟩
  exact absurd hx List.not_mem_nil

lemma mem_members_cons {x : α} : w ∈ members eq (x :: l) ↔ eq w x = true ∨ w ∈ members eq l := by
  constructor
  · rintro ⟨y, hy, heq⟩
    rcases List.mem_cons.mp hy with rfl | hy
    · exact .inl heq
    · exact .inr ⟨y, hy, heq⟩
  · rintro (heq | ⟨y, hy, heq⟩)
    · exact ⟨x, List.mem_cons_self, heq⟩
    · exact ⟨y, List.mem_cons_of_mem x hy, heq⟩

lemma mem_members_concat : w ∈ members eq (l ++ [v]) ↔ w ∈ members eq l ∨ eq w v = true := by
  induction l with
  | nil => simp only [List.nil_append, mem_members_cons, mem_members_nil, or_false, false_or]
  | cons x l ih => rw [List.cons_append, mem_members_cons, mem_members_cons, ih, or_assoc]

namespace IsEquality

variable (h : IsEquality eq)

include h

/-- Equal values are in the same sets. -/
lemma mem_members_congr (heq : eq w v = true) : w ∈ members eq l ↔ v ∈ members eq l := by
  constructor
  · rintro ⟨x, hx, hw⟩
    exact ⟨x, hx, h.trans v w x (by rwa [h.symm]) hw⟩
  · rintro ⟨x, hx, hv⟩
    exact ⟨x, hx, h.trans w v x heq hv⟩

/-- A value that is put behind the others is put into the set. -/
lemma holds_concat (hl : Holds eq l) (hv : v ∉ members eq l) : Holds eq (l ++ [v]) := by
  refine List.pairwise_append.mpr ⟨hl, List.pairwise_singleton _ _, fun x hx y hy => ?_⟩
  obtain rfl := List.mem_singleton.mp hy
  rw [← Bool.not_eq_true]
  exact fun heq => hv ⟨x, hx, by rwa [h.symm]⟩

/-- When the first element equal to a value is taken out, the value is out of the set. -/
lemma mem_members_eraseP (hl : Holds eq l) :
    w ∈ members eq (l.eraseP (eq v)) ↔ w ∈ members eq l ∧ eq w v = false := by
  induction l with
  | nil => simp only [List.eraseP_nil, mem_members_nil, false_and]
  | cons x l ih =>
    obtain ⟨hx, hl⟩ := List.pairwise_cons.mp hl
    by_cases heq : eq v x = true
    · rw [List.eraseP_cons_of_pos heq, mem_members_cons]
      constructor
      · rintro ⟨y, hy, hw⟩
        refine ⟨.inr ⟨y, hy, hw⟩, ?_⟩
        rw [← Bool.not_eq_true]
        intro hwv
        have hxy : eq x y = true :=
          h.trans x w y (by rw [h.symm]; exact h.trans w v x hwv heq) hw
        exact absurd hxy (by simp [hx y hy])
      · rintro ⟨hw | hw, hwv⟩
        · have hwv' : eq w v = true := h.trans w x v hw (by rwa [h.symm])
          exact absurd hwv' (by simp [hwv])
        · exact hw
    · rw [List.eraseP_cons_of_neg heq, mem_members_cons, mem_members_cons, ih hl]
      constructor
      · rintro (hw | ⟨hw, hwv⟩)
        · refine ⟨.inl hw, ?_⟩
          rw [← Bool.not_eq_true]
          exact fun hwv => heq (h.trans v w x (by rwa [h.symm]) hw)
        · exact ⟨.inr hw, hwv⟩
      · rintro ⟨hw | hw, hwv⟩
        · exact .inl hw
        · exact .inr ⟨hw, hwv⟩

end IsEquality

lemma Holds.eraseP (hl : Holds eq l) : Holds eq (l.eraseP (eq v)) :=
  List.Pairwise.sublist (List.eraseP_sublist) hl

end Distinct
