import Mathlib.Data.List.Basic

/-!
# Monitors

A monitor reads a trace from left to right and refuses an entry that its state does not allow.
-/

structure Monitor (σ α : Type*) where
  next : σ → α → Option σ

namespace Monitor

variable {σ α : Type*} (m : Monitor σ α) {s t u : σ} {a : α} {as bs : List α}

/-- The state after a trace that is allowed. -/
def run : σ → List α → Option σ
  | s, [] => some s
  | s, a :: as => (m.next s a).bind fun t => run t as

@[simp] lemma run_nil (s : σ) : m.run s [] = some s := rfl

@[simp] lemma run_cons (s : σ) (a : α) (as : List α) :
    m.run s (a :: as) = (m.next s a).bind fun t => m.run t as := rfl

lemma run_append (s : σ) (as bs : List α) :
    m.run s (as ++ bs) = (m.run s as).bind fun t => m.run t bs := by
  induction as generalizing s with
  | nil => rfl
  | cons a as ih =>
    rw [List.cons_append, run_cons, run_cons, Option.bind_assoc]
    congr 1
    funext t
    exact ih t

variable {m}

lemma run_trans (h : m.run s as = some t) (h' : m.run t bs = some u) :
    m.run s (as ++ bs) = some u := by
  rw [run_append, h]
  exact h'

/-- The monitor does not mind the entry. -/
def Ignores (m : Monitor σ α) (a : α) : Prop := ∀ s, m.next s a = some s

lemma run_of_ignores (h : ∀ a ∈ as, m.Ignores a) (s : σ) : m.run s as = some s := by
  induction as with
  | nil => rfl
  | cons a as ih =>
    rw [run_cons, h a List.mem_cons_self, Option.bind_some]
    exact ih fun b hb => h b (List.mem_cons_of_mem a hb)

/-- What the monitor does not mind may stand anywhere. -/
lemma run_filter (p : α → Bool) (h : ∀ a ∈ as, p a = false → m.Ignores a) (s : σ) :
    m.run s (as.filter p) = m.run s as := by
  induction as generalizing s with
  | nil => rfl
  | cons a as ih =>
    have ih := ih fun b hb => h b (List.mem_cons_of_mem a hb)
    cases hp : p a with
    | true =>
      rw [List.filter_cons_of_pos hp, run_cons, run_cons]
      congr 1
      funext t
      exact ih t
    | false =>
      rw [List.filter_cons_of_neg (by simp [hp]), run_cons, h a List.mem_cons_self hp,
        Option.bind_some]
      exact ih s

end Monitor
