import Mathlib.Algebra.BigOperators.Fin
import Mathlib.Algebra.BigOperators.Intervals
import Mathlib.Data.Fintype.BigOperators
import Mathlib.Data.Int.CardIntervalMod
import Mathlib.Logic.Equiv.Fin.Basic

/-!
# Sampling with a carried remainder

Draws below `R` are combined until they decide a number below `n`. A value that is rejected is
uniform on the numbers below the remainder, and is carried over with that range.
-/

namespace Sampler

/-- The number and the draws that are left over, if the draws are enough. `x` is carried over,
uniform on the numbers below `e`. -/
def sample (R n : Nat) : List Nat → Nat → Nat → Option (Nat × List Nat)
  | [], _, _ => none
  | d :: ds, x, e =>
    let y := x * R + d
    if e * R < n then sample R n ds y (e * R)
    else if y < e * R % n then sample R n ds y (e * R % n)
    else some (y % n, ds)

variable {R n : Nat}

lemma sample_lt (hn : 0 < n) {draws : List Nat} {x e r : Nat} {rest : List Nat}
    (h : sample R n draws x e = some (r, rest)) : r < n := by
  induction draws generalizing x e with
  | nil => cases h
  | cons d ds ih =>
    simp only [sample] at h
    split_ifs at h
    · exact ih h
    · exact ih h
    · cases h
      exact Nat.mod_lt _ hn

/-- The greatest draw makes what is carried over grow, up to a number that is not rejected. -/
lemma sample_replicate (hR : 2 ≤ R) {k x e : Nat} (hx : x < e) (he : e ≤ n) (hk : n ≤ x + k) :
    (sample R n (List.replicate k (R - 1)) x e).isSome := by
  induction k generalizing x e with
  | zero => omega
  | succ k ih =>
    have hgrow : x + 1 ≤ x * R + (R - 1) := by
      have hmul := Nat.mul_le_mul_left x (Nat.one_le_of_lt hR)
      omega
    have hdigit : x * R + (R - 1) < e * R := by
      have hmul := Nat.mul_le_mul_right R hx
      rw [Nat.succ_mul] at hmul
      omega
    simp only [List.replicate_succ, sample]
    split_ifs with hmore hcarry
    · exact ih hdigit hmore.le (by omega)
    · exact ih hcarry (Nat.mod_lt _ (by omega)).le (by omega)
    · rfl

/-- Whatever the first draws are, there are further ones that decide a number. -/
lemma sample_append (hR : 2 ≤ R) {draws : List Nat} (hd : ∀ d ∈ draws, d < R) {x e : Nat}
    (hx : x < e) (he : e ≤ n) :
    (sample R n (draws ++ List.replicate n (R - 1)) x e).isSome := by
  induction draws generalizing x e with
  | nil => exact sample_replicate hR hx he (Nat.le_add_left n x)
  | cons d ds ih =>
    have hlt : d < R := hd d List.mem_cons_self
    have hdigit : x * R + d < e * R := by
      have hmul := Nat.mul_le_mul_right R hx
      rw [Nat.succ_mul] at hmul
      omega
    have hrest := fun d h => hd d (List.mem_cons_of_mem _ h)
    simp only [List.cons_append, sample]
    split_ifs with hmore hcarry
    · exact ih hrest hdigit hmore.le
    · exact ih hrest hcarry (Nat.mod_lt _ (by omega)).le
    · rfl

/-- The number of sequences of `k` draws that give the number `r`, all of them being used. -/
def stops (R n k x e r : Nat) : Nat :=
  (Finset.univ.filter fun d : Fin k → Fin R =>
    sample R n (List.ofFn fun i => (d i).val) x e = some (r, [])).card

/-- What the value `y` contributes after the first of `k + 1` draws. -/
def stopsAt (R n k e r y : Nat) : Nat :=
  if e * R < n then stops R n k y (e * R) r
  else if y < e * R % n then stops R n k y (e * R % n) r
  else if k = 0 ∧ y % n = r then 1 else 0

@[simp] lemma stops_zero (x e r : Nat) : stops R n 0 x e r = 0 := by
  simp [stops, sample]

/-- The first draw, and the sequences behind it. -/
lemma stops_succ (k x e r : Nat) :
    stops R n (k + 1) x e r = ∑ d : Fin R, stopsAt R n k e r (x * R + d) := by
  have hsplit : stops R n (k + 1) x e r = ∑ d : Fin R,
      (Finset.univ.filter fun ds : Fin k → Fin R =>
        sample R n (d.val :: List.ofFn fun i => (ds i).val) x e = some (r, [])).card := by
    unfold stops
    simp only [Finset.card_filter]
    rw [← (Fin.consEquiv fun _ => Fin R).sum_comp, Fintype.sum_prod_type]
    simp only [Fin.consEquiv_apply, List.ofFn_succ, Fin.cons_zero, Fin.cons_succ]
  rw [hsplit]
  apply Finset.sum_congr rfl
  intro d _
  simp only [sample, stopsAt]
  split_ifs with hmore hcarry hlast
  · rfl
  · rfl
  · obtain ⟨rfl, hr⟩ := hlast
    simp [hr]
  · rw [Finset.card_eq_zero, Finset.filter_eq_empty_iff]
    intro ds _ heq
    rw [Option.some.injEq, Prod.mk.injEq] at heq
    refine hlast ⟨?_, heq.1⟩
    simpa using congrArg List.length heq.2

/-- Summed over the values that are carried over. -/
def total (R n k e r : Nat) : Nat := ∑ x ∈ Finset.range e, stops R n k x e r

/-- A digit in base `R` behind the numbers below `e` makes the numbers below `e * R`. -/
lemma sum_digits (f : Nat → Nat) (e : Nat) :
    ∑ x ∈ Finset.range e, ∑ d : Fin R, f (x * R + d) = ∑ y ∈ Finset.range (e * R), f y := by
  induction e with
  | zero => simp
  | succ e ih =>
    rw [Finset.sum_range_succ, ih, Nat.succ_mul, Finset.sum_range_add,
      Fin.sum_univ_eq_sum_range fun d => f (e * R + d)]

lemma total_succ (k e r : Nat) :
    total R n (k + 1) e r = ∑ y ∈ Finset.range (e * R), stopsAt R n k e r y := by
  unfold total
  simp only [stops_succ]
  exact sum_digits _ e

/-- Above the remainder each residue is hit equally often. -/
lemma card_residue {K r : Nat} (hr : r < n) :
    ((Finset.Ico (K % n) K).filter fun y => y % n = r).card = K / n := by
  have hcount : ∀ b, ((Finset.range b).filter fun y => y % n = r).card
      = b / n + if r < b % n then 1 else 0 := by
    intro b
    have hcard := Nat.count_modEq_card b (Nat.zero_lt_of_lt hr) r
    rw [Nat.mod_eq_of_lt hr, Nat.count_eq_card_filter_range] at hcard
    rw [← hcard]
    congr 1
    apply Finset.filter_congr
    intro y _
    rw [Nat.ModEq, Nat.mod_eq_of_lt hr]
  have hall := hcount K
  have hbelow := hcount (K % n)
  rw [Nat.mod_mod, Nat.div_eq_of_lt (Nat.mod_lt K (Nat.zero_lt_of_lt hr)), Nat.zero_add] at hbelow
  simp only [Finset.card_filter] at hall hbelow ⊢
  have hsplit := Finset.sum_range_add_sum_Ico (fun y => if y % n = r then 1 else 0)
    (Nat.mod_le K n)
  omega

/-- The number of sequences does not depend on the number they give. -/
lemma total_eq {r r' : Nat} (hr : r < n) (hr' : r' < n) (k e : Nat) :
    total R n k e r = total R n k e r' := by
  induction k generalizing e with
  | zero => simp [total]
  | succ k ih =>
    rw [total_succ, total_succ]
    unfold stopsAt
    by_cases hmore : e * R < n
    · simp only [if_pos hmore]
      exact ih (e * R)
    · simp only [if_neg hmore]
      have hle : e * R % n ≤ e * R := Nat.mod_le _ _
      rw [← Finset.sum_range_add_sum_Ico _ hle, ← Finset.sum_range_add_sum_Ico _ hle]
      congr 1
      · have hcarry : ∀ q, ∑ y ∈ Finset.range (e * R % n),
            (if y < e * R % n then stops R n k y (e * R % n) q
              else if k = 0 ∧ y % n = q then 1 else 0) = total R n k (e * R % n) q := by
          intro q
          apply Finset.sum_congr rfl
          intro y hy
          exact if_pos (Finset.mem_range.mp hy)
        rw [hcarry, hcarry, ih]
      · have hstop : ∀ q < n, ∑ y ∈ Finset.Ico (e * R % n) (e * R),
            (if y < e * R % n then stops R n k y (e * R % n) q
              else if k = 0 ∧ y % n = q then 1 else 0) = if k = 0 then e * R / n else 0 := by
          intro q hq
          rw [← card_residue hq, Finset.card_filter]
          split_ifs with hk
          · apply Finset.sum_congr rfl
            intro y hy
            rw [if_neg (Nat.not_lt_of_le (Finset.mem_Ico.mp hy).1)]
            simp [hk]
          · apply Finset.sum_eq_zero
            intro y hy
            rw [if_neg (Nat.not_lt_of_le (Finset.mem_Ico.mp hy).1), if_neg fun h => hk h.1]
        rw [hstop r hr, hstop r' hr']

/-- Any number of draws gives each number equally often. -/
lemma stops_start {r r' : Nat} (hr : r < n) (hr' : r' < n) (k : Nat) :
    stops R n k 0 1 r = stops R n k 0 1 r' := by
  have htotal := total_eq (R := R) hr hr' k 1
  simpa [total] using htotal

end Sampler
