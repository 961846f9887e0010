import LambdaMOO.Lib.Incremental

/-!
# Functions of blocks

A state is changed by one block of `n` items after the other. What does not fill a block is left
for later, so the items may come in pieces of any length.
-/

namespace Blocks

open Incremental

variable {σ α : Type*} {n : ℕ}

/-- The consumer of blocks. It puts nothing out. -/
def consumer (hn : 0 < n) (f : σ → List α → σ) : Consumer σ α Unit where
  step s x := if n ≤ x.length then some (f s (x.take n), [], x.drop n) else none
  shorter := by
    intro s x s' o r h
    split_ifs at h with hle
    obtain ⟨-, -, rfl⟩ := by simpa using h
    rw [List.length_drop]
    omega
  stable := by
    intro s x s' o r h y
    split_ifs at h with hle
    obtain ⟨rfl, rfl, rfl⟩ := by simpa using h
    rw [if_pos (by rw [List.length_append]; omega), List.take_append_of_le_length hle,
      List.drop_append_of_le_length hle]

/-- The state after all full blocks, and what is left over. -/
def absorb (hn : 0 < n) (f : σ → List α → σ) (s : σ) (x : List α) : σ × List α :=
  let (t, _, p) := (consumer hn f).run s x
  (t, p)

variable {hn : 0 < n} {f : σ → List α → σ} {s : σ} {x : List α}

lemma absorb_of_lt (h : x.length < n) : absorb hn f s x = (s, x) := by
  rw [absorb, Consumer.run_of_none (c := consumer hn f) (if_neg (Nat.not_le.mpr h))]

lemma absorb_of_le (h : n ≤ x.length) :
    absorb hn f s x = absorb hn f (f s (x.take n)) (x.drop n) := by
  rw [absorb, Consumer.run_of_some (c := consumer hn f) (if_pos h)]
  rfl

/-- What is left over goes in front of what comes next. -/
lemma absorb_append (s : σ) (x y : List α) :
    absorb hn f s (x ++ y)
      = absorb hn f (absorb hn f s x).1 ((absorb hn f s x).2 ++ y) := by
  rw [absorb, Consumer.run_append]
  rfl

lemma length_absorb (s : σ) (x : List α) : (absorb hn f s x).2.length = x.length % n := by
  induction hx : x.length using Nat.strongRecOn generalizing s x with
  | ind k ih =>
    by_cases h : x.length < n
    · rw [absorb_of_lt h, hx, Nat.mod_eq_of_lt (hx ▸ h)]
    · have hle := Nat.not_lt.mp h
      have hdrop : (x.drop n).length = k - n := by rw [List.length_drop, hx]
      rw [absorb_of_le hle, ih (k - n) (by omega) _ _ hdrop, ← Nat.mod_eq_sub_mod (by omega)]

end Blocks
