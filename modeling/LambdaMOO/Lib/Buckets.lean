import Mathlib.Data.List.GetD
import Mathlib.Data.List.Perm.Basic
import Mathlib.Data.Nat.Notation

/-!
# Tables of buckets

A table has a bucket for each remainder of a hash. What is put into the table goes to the front of
its bucket, and a larger table may take everything over.
-/

namespace Buckets

variable {α : Type*}

/-- The bucket of a hash. -/
def bucket (t : List (List α)) (k : ℕ) : List α := t.getD (k % t.length) []

variable (hash : α → ℕ)

/-- Put `x` to the front of its bucket. -/
def add (x : α) (t : List (List α)) : List (List α) := t.modify (hash x % t.length) (x :: ·)

/-- Put everything into a table of `n` buckets, one bucket after the other. -/
def rehash (n : ℕ) (t : List (List α)) : List (List α) :=
  t.flatten.foldl (fun t x => add hash x t) (List.replicate n [])

/-- Everything is in the bucket of its hash. -/
structure Placed (t : List (List α)) : Prop where
  pos : 0 < t.length
  place : ∀ k x, x ∈ t.getD k [] → hash x % t.length = k

variable {hash} {t : List (List α)} {x : α} {k : ℕ}

@[simp] lemma length_add : (add hash x t).length = t.length := List.length_modify _ _ _

lemma perm_modify (h : k < t.length) : (t.modify k (x :: ·)).flatten.Perm (x :: t.flatten) := by
  induction t generalizing k with
  | nil => exact absurd h (Nat.not_lt_zero k)
  | cons b t ih =>
    cases k with
    | zero => exact List.Perm.refl _
    | succ k =>
      rw [List.modify_succ_cons, List.flatten_cons, List.flatten_cons]
      exact ((ih (Nat.lt_of_succ_lt_succ h)).append_left b).trans List.perm_middle

lemma perm_add (hash : α → ℕ) (x : α) (h : 0 < t.length) :
    (add hash x t).flatten.Perm (x :: t.flatten) :=
  perm_modify (Nat.mod_lt _ h)

lemma placed_replicate {n : ℕ} (h : 0 < n) : Placed hash (List.replicate n []) where
  pos := by rwa [List.length_replicate]
  place k x hx := by
    rw [List.getD_eq_getElem?_getD, List.getElem?_replicate] at hx
    split_ifs at hx
    · exact absurd hx List.not_mem_nil
    · exact absurd hx List.not_mem_nil

namespace Placed

lemma add (h : Placed hash t) (x : α) : Placed hash (add hash x t) where
  pos := by rw [length_add]; exact h.pos
  place k y hy := by
    rw [length_add]
    rw [Buckets.add, List.getD_eq_getElem?_getD, List.getElem?_modify] at hy
    by_cases hk : hash x % t.length = k
    · subst hk
      rw [List.getElem?_eq_getElem (Nat.mod_lt _ h.pos)] at hy
      simp only [Option.map_eq_map, Option.map_some, if_pos, Option.getD_some] at hy
      rcases List.mem_cons.mp hy with rfl | hy
      · rfl
      · apply h.place
        rwa [List.getD_eq_getElem _ _ (Nat.mod_lt _ h.pos)]
    · apply h.place
      simpa [hk, List.getD_eq_getElem?_getD] using hy

lemma mem_flatten (h : Placed hash t) : x ∈ t.flatten ↔ x ∈ bucket t (hash x) := by
  constructor
  · intro hx
    obtain ⟨b, hb, hx⟩ := List.mem_flatten.mp hx
    obtain ⟨k, hk, rfl⟩ := List.mem_iff_getElem.mp hb
    have hx' : x ∈ t.getD k [] := by rwa [List.getD_eq_getElem _ _ hk]
    rw [bucket, h.place k x hx']
    exact hx'
  · intro hx
    rw [bucket, List.getD_eq_getElem _ _ (Nat.mod_lt _ h.pos)] at hx
    exact List.mem_flatten.mpr ⟨_, List.getElem_mem _, hx⟩

lemma foldl_add (h : Placed hash t) (l : List α) :
    Placed hash (l.foldl (fun t x => Buckets.add hash x t) t) ∧
      (l.foldl (fun t x => Buckets.add hash x t) t).flatten.Perm (l ++ t.flatten) := by
  induction l generalizing t with
  | nil => exact ⟨h, List.Perm.refl _⟩
  | cons x l ih =>
    obtain ⟨hplaced, hperm⟩ := ih (h.add x)
    exact ⟨hplaced, hperm.trans (((perm_add hash x h.pos).append_left l).trans List.perm_middle)⟩

end Placed

/-- The new table holds what the old one did. -/
lemma rehash_spec {n : ℕ} (h : 0 < n) (t : List (List α)) :
    Placed hash (rehash hash n t) ∧ (rehash hash n t).flatten.Perm t.flatten := by
  have hempty : Placed hash (List.replicate n []) := placed_replicate h
  obtain ⟨hplaced, hperm⟩ := hempty.foldl_add t.flatten
  rw [List.flatten_replicate_nil, List.append_nil] at hperm
  exact ⟨hplaced, hperm⟩

end Buckets
