import Mathlib.Data.List.Basic
import Mathlib.Data.Nat.Notation

/-!
# Incremental consumers

A consumer takes items off the front of its input as long as enough of it is there and
leaves the rest for later. When what it does with enough input does not depend on what
comes after it, the input may be cut in any way.
-/

namespace Incremental

/-- A consumer with states `σ`, input `α` and output `β`. A step that is possible takes
something off the input, and stays the same when there is more input. -/
structure Consumer (σ α β : Type*) where
  step : σ → List α → Option (σ × List β × List α)
  shorter : ∀ {s x s' o r}, step s x = some (s', o, r) → r.length < x.length
  stable : ∀ {s x s' o r}, step s x = some (s', o, r) → ∀ y, step s (x ++ y) = some (s', o, r ++ y)

namespace Consumer

variable {σ α β : Type*} (c : Consumer σ α β)

/-- At most `n` steps: the state, the output and the input that is left. -/
def drain : ℕ → σ → List α → σ × List β × List α
  | 0, s, x => (s, [], x)
  | n + 1, s, x =>
    match c.step s x with
    | none => (s, [], x)
    | some (s', o, r) =>
      let (t, os, p) := drain n s' r
      (t, o ++ os, p)

/-- As many steps as are possible. -/
def run (s : σ) (x : List α) : σ × List β × List α := c.drain x.length s x

/-- One piece of the input after the other; `p` is what was left over before. -/
def feed (s : σ) (p : List α) : List (List α) → σ × List β × List α
  | [] => (s, [], p)
  | x :: xs =>
    let (s', o, q) := c.run s (p ++ x)
    let (t, os, q) := feed s' q xs
    (t, o ++ os, q)

variable {c} {s s' t : σ} {x y r p q : List α} {o os : List β} {n : ℕ}

lemma drain_of_none (h : c.step s x = none) (n : ℕ) : c.drain n s x = (s, [], x) := by
  cases n with
  | zero => rfl
  | succ n => rw [drain, h]

lemma drain_of_some (h : c.step s x = some (s', o, r)) (n : ℕ) :
    c.drain (n + 1) s x
      = ((c.drain n s' r).1, o ++ (c.drain n s' r).2.1, (c.drain n s' r).2.2) := by
  rw [drain, h]

/-- More steps than items are never made. -/
lemma drain_of_le (h : x.length ≤ n) : c.drain n s x = c.run s x := by
  induction n using Nat.strongRecOn generalizing s x with
  | ind n ih =>
    cases hstep : c.step s x with
    | none => rw [run, drain_of_none hstep, drain_of_none hstep]
    | some u =>
      obtain ⟨s', o, r⟩ := u
      have hr := c.shorter hstep
      obtain ⟨m, rfl⟩ : ∃ m, n = m + 1 := ⟨n - 1, by omega⟩
      obtain ⟨k, hk⟩ : ∃ k, x.length = k + 1 := ⟨x.length - 1, by omega⟩
      rw [run, hk, drain_of_some hstep, drain_of_some hstep]
      have hm : c.drain m s' r = c.run s' r := ih m (Nat.lt_succ_self m) (by omega)
      have hk' : c.drain k s' r = c.run s' r := ih k (by omega) (by omega)
      rw [hm, hk']

lemma run_of_none (h : c.step s x = none) : c.run s x = (s, [], x) := drain_of_none h _

lemma run_of_some (h : c.step s x = some (s', o, r)) :
    c.run s x = ((c.run s' r).1, o ++ (c.run s' r).2.1, (c.run s' r).2.2) := by
  have hr := c.shorter h
  obtain ⟨k, hk⟩ : ∃ k, x.length = k + 1 := ⟨x.length - 1, by omega⟩
  have hrun : c.drain k s' r = c.run s' r := drain_of_le (by omega)
  rw [run, hk, drain_of_some h, hrun]

/-- What is left over goes in front of what comes next. -/
theorem run_append (s : σ) (x y : List α) :
    c.run s (x ++ y)
      = ((c.run (c.run s x).1 ((c.run s x).2.2 ++ y)).1,
        (c.run s x).2.1 ++ (c.run (c.run s x).1 ((c.run s x).2.2 ++ y)).2.1,
        (c.run (c.run s x).1 ((c.run s x).2.2 ++ y)).2.2) := by
  induction hn : x.length using Nat.strongRecOn generalizing s x with
  | ind n ih =>
    cases hstep : c.step s x with
    | none => rw [run_of_none hstep, List.nil_append]
    | some u =>
      obtain ⟨s', o, r⟩ := u
      have hr := c.shorter hstep
      rw [run_of_some (c.stable hstep y), run_of_some hstep, ih r.length (by omega) s' r rfl,
        List.append_assoc]

/-- What is left over was at the end of the input. -/
lemma run_suffix (hf : ∀ {s x s' o r}, c.step s x = some (s', o, r) → r <:+ x) (s : σ)
    (x : List α) : (c.run s x).2.2 <:+ x := by
  induction hn : x.length using Nat.strongRecOn generalizing s x with
  | ind n ih =>
    cases hstep : c.step s x with
    | none => simp [run_of_none hstep]
    | some u =>
      obtain ⟨s', o, r⟩ := u
      have hr := c.shorter hstep
      rw [run_of_some hstep]
      exact (ih r.length (by omega) s' r rfl).trans (hf hstep)

/-- No step is possible on what is left over. -/
lemma step_leftover (s : σ) (x : List α) : c.step (c.run s x).1 (c.run s x).2.2 = none := by
  induction hn : x.length using Nat.strongRecOn generalizing s x with
  | ind n ih =>
    cases hstep : c.step s x with
    | none =>
      rw [run_of_none hstep]
      exact hstep
    | some u =>
      obtain ⟨s', o, r⟩ := u
      have hr := c.shorter hstep
      rw [run_of_some hstep]
      exact ih r.length (by omega) s' r rfl

/-- The pieces do the same as the whole. -/
theorem feed_eq (s : σ) (p : List α) (xs : List (List α)) (h : c.step s p = none) :
    c.feed s p xs = c.run s (p ++ xs.flatten) := by
  induction xs generalizing s p with
  | nil => rw [feed, List.flatten_nil, List.append_nil, run_of_none h]
  | cons x xs ih =>
    rw [List.flatten_cons, ← List.append_assoc, run_append, feed]
    dsimp only
    rw [ih _ _ (step_leftover s (p ++ x))]

end Consumer

end Incremental
