import Mathlib.Data.List.Basic
import Mathlib.Order.Basic

/-!
# Scanners with a buffer of items pushed back

A scanner gets items one at a time and may push some back, which it then gets again, the last
one first. The buffer has room for `n` items, and pushing back one more fails. The end of the
input is an item too, `none`, so it may be pushed back.
-/

/-- What was pushed back, the last item first, and the input behind it. -/
structure Source (n : ℕ) (α : Type) where
  pushed : List (Option α)
  input : List α
  length_le : pushed.length ≤ n

abbrev Scanner (n : ℕ) (α β : Type) := StateT (Source n α) Option β

namespace Source

variable {n : ℕ} {α : Type} {cs cs' : List α} {s : Source n α}

/-- Nothing is pushed back yet. -/
def start (input : List α) : Source n α := ⟨[], input, Nat.zero_le n⟩

/-- The items from the next one on are `cs`; behind them there are only ends. -/
def Holds (s : Source n α) (cs : List α) : Prop :=
  ∀ i : ℕ, (s.pushed ++ s.input.map some)[i]?.join = cs[i]?

lemma holds_start (input : List α) : (start input : Source n α).Holds input := by
  intro i
  simp only [start, List.nil_append, List.getElem?_map]
  cases input[i]? <;> rfl

/-- What a source holds is determined. -/
lemma Holds.unique (h : s.Holds cs) (h' : s.Holds cs') : cs = cs' := by
  apply List.ext_getElem?
  intro i
  rw [← h i, h' i]

lemma Holds.length_le (h : s.Holds cs) : cs.length ≤ s.pushed.length + s.input.length := by
  by_contra hlt
  have hnone := h (s.pushed.length + s.input.length)
  rw [List.getElem?_eq_none (by simp), List.getElem?_eq_getElem (by omega)] at hnone
  simp at hnone

end Source

namespace Scanner

open Source

variable {n : ℕ} {α β γ : Type}

/-- The next item. At the end of the input that is `none`, again and again. -/
def getItem : Scanner n α (Option α) := fun s =>
  match s with
  | ⟨c :: p, x, h⟩ => some (c, ⟨p, x, Nat.le_of_succ_le h⟩)
  | ⟨[], c :: x, h⟩ => some (some c, ⟨[], x, h⟩)
  | ⟨[], [], h⟩ => some (none, ⟨[], [], h⟩)

/-- Pushes an item back. -/
def unget (c : Option α) : Scanner n α Unit := fun s =>
  if h : s.pushed.length < n then some ((), ⟨c :: s.pushed, s.input, h⟩) else none

/-- A loop that ends at the latest when all items are used up: it has fuel for one round more
than there are items. -/
def fueled (f : ℕ → Scanner n α β) : Scanner n α β := fun s =>
  f (s.pushed.length + s.input.length + 1) s

/-- In front of `cs`, with at most `b` items pushed back, the scanner gives `a`. What is left
is `cs'`, with at most `b'` items pushed back. -/
def Reads (m : Scanner n α β) (b : ℕ) (cs : List α) (a : β) (b' : ℕ) (cs' : List α) : Prop :=
  ∀ s : Source n α, s.Holds cs → s.pushed.length ≤ b →
    ∃ s', m s = some (a, s') ∧ s'.Holds cs' ∧ s'.pushed.length ≤ b'

namespace Reads

variable {m : Scanner n α β} {f : β → Scanner n α γ} {b b₀ b₁ b' : ℕ} {cs cs₁ cs' : List α}
  {c : Option α} {a : β} {d : γ}

lemma pure (a : β) : Reads (Pure.pure a : Scanner n α β) b cs a b cs :=
  fun s hs hb => ⟨s, rfl, hs, hb⟩

lemma bind (h : Reads m b cs a b₁ cs₁) (h' : Reads (f a) b₁ cs₁ d b' cs') :
    Reads (m >>= f) b cs d b' cs' := by
  intro s hs hb
  obtain ⟨s₁, hm, hs₁, hb₁⟩ := h s hs hb
  obtain ⟨s', hf, hs', hb'⟩ := h' s₁ hs₁ hb₁
  refine ⟨s', ?_, hs', hb'⟩
  show (m s).bind _ = _
  rw [hm]
  exact hf

lemma mono (h : Reads m b cs a b' cs') (hb₀ : b₀ ≤ b) (hb₁ : b' ≤ b₁) :
    Reads m b₀ cs a b₁ cs' := by
  intro s hs hb
  obtain ⟨s', hm, hs', hb'⟩ := h s hs (Nat.le_trans hb hb₀)
  exact ⟨s', hm, hs', Nat.le_trans hb' hb₁⟩

/-- Getting an item leaves room for one more in the buffer, unless that was empty. -/
lemma getItem : Reads (Scanner.getItem : Scanner n α _) b cs cs.head? (b - 1) cs.tail := by
  rintro ⟨pushed, input, hle⟩ hs hb
  have htail : ∀ i, cs.tail[i]? = cs[i + 1]? := fun i => by simp
  have hhead : cs.head? = cs[0]? := List.head?_eq_getElem?
  match pushed, input with
  | c :: p, x =>
    refine ⟨⟨p, x, Nat.le_of_succ_le hle⟩, ?_, fun i => ?_, ?_⟩
    · rw [hhead, ← hs 0]
      simp [Scanner.getItem]
    · rw [htail, ← hs (i + 1)]
      simp
    · simp only [List.length_cons] at hb
      show p.length ≤ b - 1
      omega
  | [], c :: x =>
    refine ⟨⟨[], x, hle⟩, ?_, fun i => ?_, Nat.zero_le _⟩
    · rw [hhead, ← hs 0]
      simp [Scanner.getItem]
    · rw [htail, ← hs (i + 1)]
      simp
  | [], [] =>
    refine ⟨⟨[], [], hle⟩, ?_, fun i => ?_, Nat.zero_le _⟩
    · rw [hhead, ← hs 0]
      simp [Scanner.getItem]
    · rw [htail, ← hs (i + 1)]
      simp

/-- What was gotten may be pushed back. -/
lemma unget (h : b < n) :
    Reads (Scanner.unget cs.head? : Scanner n α _) b cs.tail () (b + 1) cs := by
  intro s hs hb
  have hlt : s.pushed.length < n := by omega
  refine ⟨⟨cs.head? :: s.pushed, s.input, hlt⟩, dif_pos hlt, fun i => ?_, ?_⟩
  · cases i with
    | zero => simp [List.head?_eq_getElem?]
    | succ i =>
      have htail := hs i
      simpa using htail
  · simpa using hb

lemma unget_some {c : α} (h : b < n) :
    Reads (Scanner.unget (some c) : Scanner n α _) b cs () (b + 1) (c :: cs) :=
  @unget n α b (c :: cs) h

/-- A loop needs no more rounds than there are items. -/
lemma fueled {f : ℕ → Scanner n α β} (h : ∀ k, cs.length < k → Reads (f k) b cs a b' cs') :
    Reads (Scanner.fueled f) b cs a b' cs' := by
  intro s hs hb
  have hle := hs.length_le
  exact h _ (by omega) s hs hb

end Reads

end Scanner
