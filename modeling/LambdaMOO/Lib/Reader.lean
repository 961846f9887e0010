import Mathlib.Data.List.Basic
import Mathlib.Tactic.Common

/-!
# Readers of a text

A reader takes a text and a state, fails or gives a value, and leaves a rest and a new
state. It takes a text `t` as a value when it gives that value in front of every rest and
leaves the rest as it is.
-/

/-- A fallible reader over the state `σ`. -/
abbrev Reader (σ α : Type) := StateT (List Char × σ) Option α

namespace Reader

variable {σ α β : Type}

/-- From the state `s`, the reader takes exactly `t`, gives `a` and ends in `s'`. -/
def Takes (r : Reader σ α) (s : σ) (t : List Char) (a : α) (s' : σ) : Prop :=
  ∀ rest, r (t ++ rest, s) = some (a, (rest, s'))

/-- A line and the newline that ends it. A text that ends without one is no line. -/
def line : Reader σ (List Char) := fun (input, s) =>
  match input.dropWhile (· ≠ '\n') with
  | [] => none
  | _ :: rest => some (input.takeWhile (· ≠ '\n'), (rest, s))

/-- Fails on `none`. -/
def lift (o : Option α) : Reader σ α := fun s => o.map fun a => (a, s)

/-- `n` times the reader `r`. -/
def times (r : Reader σ α) : Nat → Reader σ (List α)
  | 0 => pure []
  | n + 1 => do
    let a ← r
    let as ← times r n
    pure (a :: as)

variable {r : Reader σ α} {f : α → Reader σ β} {s s' s'' : σ} {t t' : List Char} {a : α} {b : β}

lemma Takes.pure (a : α) (s : σ) : Takes (Pure.pure a) s [] a s := fun _ => rfl

lemma Takes.bind (h : Takes r s t a s') (h' : Takes (f a) s' t' b s'') :
    Takes (r >>= f) s (t ++ t') b s'' := by
  intro rest
  show (r (t ++ t' ++ rest, s)).bind _ = _
  rw [List.append_assoc, h (t' ++ rest)]
  exact h' rest

/-- The last step of a reader leaves no text behind. -/
lemma Takes.bind_last (h : Takes r s t a s') (h' : Takes (f a) s' [] b s'') :
    Takes (r >>= f) s t b s'' := by
  rw [← List.append_nil t]
  exact h.bind h'

lemma Takes.bind_nil (h : Takes r s [] a s') (h' : Takes (f a) s' t b s'') :
    Takes (r >>= f) s t b s'' := h.bind h'

lemma Takes.map {g : α → β} (h : Takes r s t a s') : Takes (g <$> r) s t (g a) s' := by
  intro rest
  show (r (t ++ rest, s)).bind _ = _
  rw [h rest]
  rfl

lemma Takes.lift {o : Option α} (h : o = some a) : Takes (lift o) s [] a s := by
  intro rest
  rw [h]
  rfl

@[simp] lemma lift_some (a : α) : (Reader.lift (some a) : Reader σ α) = Pure.pure a := rfl

lemma Takes.line (h : '\n' ∉ t) : Takes line s (t ++ ['\n']) t s := by
  intro rest
  have hne : ∀ c ∈ t, decide (c ≠ '\n') = true := by
    intro c hc
    apply decide_eq_true
    rintro rfl
    exact h hc
  have hd : (t ++ ['\n'] ++ rest).dropWhile (· ≠ '\n') = '\n' :: rest := by
    rw [List.append_assoc, List.dropWhile_append_of_pos hne]
    rfl
  have ht : (t ++ ['\n'] ++ rest).takeWhile (· ≠ '\n') = t := by
    rw [List.append_assoc, List.takeWhile_append_of_pos hne]
    simp
  simp only [Reader.line, hd, ht]

/-- One reading after the other. -/
lemma Takes.times {texts : List (List Char)} {as : List α}
    (h : List.Forall₂ (fun t a => Takes r s t a s) texts as) :
    Takes (times r as.length) s texts.flatten as s := by
  induction h with
  | nil => exact Takes.pure [] s
  | cons hr _ ih => exact hr.bind (ih.bind_last (Takes.pure _ s))

/-- What a reader makes of a text is unique. -/
lemma Takes.unique {a' : α} {s₂ : σ} (h : Takes r s t a s') (h' : Takes r s t a' s₂) :
    a = a' ∧ s' = s₂ := by
  have := (h []).symm.trans (h' [])
  simpa using this

end Reader
