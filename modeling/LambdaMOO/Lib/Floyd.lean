import Mathlib.Data.Finset.Card
import Mathlib.Logic.Function.Iterate

/-!
# Two hands on an orbit

Of two hands that follow a function on a finite set, one twice as fast as the other, the fast
one comes to stand where the slow one is.
-/

namespace Function

variable {α : Type} {g : α → α} {x : α}

/-- Behind a repetition the orbit is periodic. -/
lemma iterate_add_mul_of_eq {a p : Nat} (h : g^[a + p] x = g^[a] x) {k : Nat} (hk : a ≤ k)
    (m : Nat) : g^[k + m * p] x = g^[k] x := by
  have hperiod : ∀ k, a ≤ k → g^[k + p] x = g^[k] x := by
    intro k hk
    obtain ⟨j, rfl⟩ := Nat.exists_eq_add_of_le hk
    have hshift : a + j + p = j + (a + p) := by omega
    rw [hshift, iterate_add_apply, h, ← iterate_add_apply, Nat.add_comm]
  induction m with
  | zero => rw [Nat.zero_mul, Nat.add_zero]
  | succ m ih => rw [Nat.succ_mul, ← Nat.add_assoc, hperiod _ (by omega), ih]

/-- Among more steps than there are elements two lead to the same one. -/
lemma exists_iterate_eq {s : Finset α} (hs : ∀ y ∈ s, g y ∈ s) (hx : x ∈ s) :
    ∃ a p, 0 < p ∧ a + p ≤ s.card ∧ g^[a + p] x = g^[a] x := by
  have hmem : ∀ k, g^[k] x ∈ s := by
    intro k
    induction k with
    | zero => exact hx
    | succ k ih =>
      rw [iterate_succ_apply']
      exact hs _ ih
  obtain ⟨a, ha, b, hb, hne, heq⟩ := Finset.exists_ne_map_eq_of_card_lt_of_maps_to
    (s := Finset.range (s.card + 1)) (t := s) (f := fun k => g^[k] x)
    (by rw [Finset.card_range]; exact Nat.lt_succ_self _) (fun k _ => hmem k)
  rw [Finset.mem_range] at ha hb
  rcases Nat.lt_or_gt_of_ne hne with hlt | hlt
  · refine ⟨a, b - a, by omega, by omega, ?_⟩
    rw [Nat.add_sub_cancel' hlt.le]
    exact heq.symm
  · refine ⟨b, a - b, by omega, by omega, ?_⟩
    rw [Nat.add_sub_cancel' hlt.le]
    exact heq

/-- The hands meet within as many steps as there are elements. -/
theorem exists_iterate_two_mul_eq {s : Finset α} (hs : ∀ y ∈ s, g y ∈ s) (hx : x ∈ s) :
    ∃ i, 0 < i ∧ i ≤ s.card ∧ g^[2 * i] x = g^[i] x := by
  obtain ⟨a, p, hp, hle, heq⟩ := exists_iterate_eq hs hx
  -- the first multiple of the period that is neither zero nor before the repetition
  have hceil : a ≤ (a + p - 1) / p * p ∧ (a + p - 1) / p * p ≤ a + p - 1 := by
    have hdiv := Nat.div_add_mod' (a + p - 1) p
    have hmod := Nat.mod_lt (a + p - 1) hp
    omega
  obtain ⟨m, hm, hge, hcard⟩ : ∃ m, 0 < m ∧ a ≤ m * p ∧ m * p ≤ s.card := by
    rcases Nat.eq_zero_or_pos a with rfl | ha
    · exact ⟨1, Nat.one_pos, Nat.zero_le _, by omega⟩
    · refine ⟨(a + p - 1) / p, ?_, hceil.1, by omega⟩
      exact Nat.div_pos (by omega) hp
  refine ⟨m * p, Nat.mul_pos hm hp, hcard, ?_⟩
  rw [Nat.two_mul]
  exact iterate_add_mul_of_eq heq hge m

end Function
