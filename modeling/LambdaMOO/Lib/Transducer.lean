import Mathlib.Data.List.Basic
import Mathlib.Algebra.GroupWithZero.Nat

/-!
# Transducers

A transducer reads a list from the front and writes some output for each element, and some at
the end, unless it refuses what it has read. A transducer that is run on the output of a second
one can do what a third one does on the input of the second.
-/

/-- Output at a step and at the end. Nothing is a refusal. -/
structure Transducer (σ α β : Type*) where
  step : σ → α → List β × σ
  finish : σ → Option (List β)

namespace Transducer

variable {σ τ υ α β γ δ : Type*}

section

variable (T : Transducer σ α β)

/-- The output for a part of a list, and the state behind it. -/
def feed : σ → List α → List β × σ
  | q, [] => ([], q)
  | q, a :: s => ((T.step q a).1 ++ (feed (T.step q a).2 s).1, (feed (T.step q a).2 s).2)

def run : σ → List α → Option (List β)
  | q, [] => T.finish q
  | q, a :: s => (run (T.step q a).2 s).map ((T.step q a).1 ++ ·)

/-- Each element is read in a state in which `P` holds of it. -/
def Along (P : σ → α → Prop) : σ → List α → Prop
  | _, [] => True
  | q, a :: s => P q a ∧ Along P (T.step q a).2 s

instance instDecidableAlong {P : σ → α → Prop} [∀ q a, Decidable (P q a)] :
    ∀ (q : σ) (s : List α), Decidable (T.Along P q s)
  | _, [] => inferInstanceAs (Decidable True)
  | q, a :: s =>
    have : Decidable (T.Along P (T.step q a).2 s) := instDecidableAlong (T.step q a).2 s
    inferInstanceAs (Decidable (P q a ∧ T.Along P (T.step q a).2 s))

@[simp] lemma run_nil (q : σ) : T.run q [] = T.finish q := rfl

lemma run_cons (q : σ) (a : α) (s : List α) :
    T.run q (a :: s) = (T.run (T.step q a).2 s).map ((T.step q a).1 ++ ·) := rfl

@[simp] lemma feed_nil (q : σ) : T.feed q [] = ([], q) := rfl

@[simp] lemma feed_singleton (q : σ) (a : α) : T.feed q [a] = T.step q a := by
  rw [feed, feed, List.append_nil]

lemma feed_append (q : σ) (s t : List α) :
    T.feed q (s ++ t) = ((T.feed q s).1 ++ (T.feed (T.feed q s).2 t).1,
      (T.feed (T.feed q s).2 t).2) := by
  induction s generalizing q with
  | nil => rfl
  | cons a s ih =>
    rw [List.cons_append, feed, ih, feed, List.append_assoc]

lemma run_append (q : σ) (s t : List α) :
    T.run q (s ++ t) = (T.run (T.feed q s).2 t).map ((T.feed q s).1 ++ ·) := by
  induction s generalizing q with
  | nil =>
    rw [List.nil_append, feed_nil]
    exact (congrFun Option.map_id _).symm
  | cons a s ih =>
    rw [List.cons_append, run_cons, ih, Option.map_map, feed]
    congr 1
    funext out
    exact (List.append_assoc _ _ _).symm

lemma along_true (q : σ) (s : List α) : T.Along (fun _ _ => True) q s := by
  induction s generalizing q with
  | nil => trivial
  | cons a s ih => exact ⟨trivial, ih _⟩

/-- The weight of the output is at most the length of the input, if each step is paid for. -/
lemma weight_le (weight : β → Nat) (paid : σ → Nat)
    (hstep : ∀ q a, ((T.step q a).1.map weight).sum + paid (T.step q a).2 ≤ paid q + 1)
    (hfinish : ∀ q out, T.finish q = some out → (out.map weight).sum ≤ paid q) {q : σ}
    {s : List α} {out : List β} (h : T.run q s = some out) :
    (out.map weight).sum ≤ paid q + s.length := by
  induction s generalizing q out with
  | nil => exact hfinish q out h
  | cons a s ih =>
    obtain ⟨rest, hrest, rfl⟩ := Option.map_eq_some_iff.mp h
    have hle := ih hrest
    have hpaid := hstep q a
    rw [List.map_append, List.sum_append, List.length_cons]
    omega

end

section

variable {T : Transducer σ α γ} {M : Transducer τ α β} {f : τ → σ}

/-- Two transducers whose states go together accept the same lists. -/
lemma run_isSome (hstep : ∀ q a, (T.step (f q) a).2 = f (M.step q a).2)
    (hfinish : ∀ q, (T.finish (f q)).isSome = (M.finish q).isSome) (q : τ) (s : List α) :
    (T.run (f q) s).isSome = (M.run q s).isSome := by
  induction s generalizing q with
  | nil => exact hfinish q
  | cons a s ih => rw [run_cons, run_cons, Option.isSome_map, Option.isSome_map, hstep, ih]

variable {L : Transducer υ γ δ} {g : τ → υ} {image : β → List δ} {tail : List δ}
  {P : τ → α → Prop}

/-- `L` reads from the output of `T` the images of what `M` reads, if it does so for the output
of each step. -/
theorem run_bind (hstep : ∀ q a, (T.step (f q) a).2 = f (M.step q a).2)
    (hfeed : ∀ q a, P q a → L.feed (g q) (T.step (f q) a).1
      = ((M.step q a).1.flatMap image, g (M.step q a).2))
    (hfinish : ∀ q, (T.finish (f q)).bind (L.run (g q))
      = (M.finish q).map (·.flatMap image ++ tail)) {q : τ} {s : List α} (h : M.Along P q s) :
    (T.run (f q) s).bind (L.run (g q)) = (M.run q s).map (·.flatMap image ++ tail) := by
  induction s generalizing q with
  | nil => exact hfinish q
  | cons a s ih =>
    have hrest := ih h.2
    rw [run_cons, run_cons, hstep]
    cases htext : T.run (f (M.step q a).2) s with
    | none =>
      rw [htext, Option.bind_none] at hrest
      rw [Option.map_none, Option.bind_none, Option.map_map]
      exact (Option.map_eq_none_iff.mpr (Option.map_eq_none_iff.mp hrest.symm)).symm
    | some text =>
      rw [htext, Option.bind_some] at hrest
      rw [Option.map_some, Option.bind_some, run_append, hfeed q a h.1, hrest, Option.map_map,
        Option.map_map]
      congr 1
      funext out
      simp only [Function.comp_apply, List.flatMap_append, List.append_assoc]

end

end Transducer
