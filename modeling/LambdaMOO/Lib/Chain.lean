import Mathlib.Data.List.Basic
import Mathlib.Data.List.Nodup
import Mathlib.Logic.Function.Basic

/-!
# Chains of pointers

A store of pointers is a function from slots to optional addresses. The cell at an address
`p` has a slot `mk p` for the pointer to its successor. Splicing through a pointer to a slot
changes the chain at one place and leaves the rest alone.
-/

namespace PointerChain

variable {S P : Type} (mk : P → S)

/-- The slot behind the cells `ps`. -/
def lastSlot (s : S) : List P → S
  | [] => s
  | p :: ps => lastSlot (mk p) ps

/-- Following the pointers from the slot `s` leads through the cells `ps`. -/
def Path (get : S → Option P) (s : S) : List P → Prop
  | [] => True
  | p :: ps => get s = some p ∧ Path get (mk p) ps

/-- A path that ends in a null pointer. -/
def Chain (get : S → Option P) (s : S) (ps : List P) : Prop :=
  Path mk get s ps ∧ get (lastSlot mk s ps) = none

/-- All slots of a chain. -/
def slots (s : S) (ps : List P) : List S := s :: ps.map mk

variable {mk} {get get' : S → Option P} {s : S} {p : P} {ps xs ys : List P}

lemma lastSlot_append : lastSlot mk s (xs ++ ys) = lastSlot mk (lastSlot mk s xs) ys := by
  induction xs generalizing s with
  | nil => rfl
  | cons x xs ih => exact ih

lemma lastSlot_concat : lastSlot mk s (xs ++ [p]) = mk p := lastSlot_append

lemma path_append :
    Path mk get s (xs ++ ys) ↔ Path mk get s xs ∧ Path mk get (lastSlot mk s xs) ys := by
  induction xs generalizing s with
  | nil => simp [Path, lastSlot]
  | cons x xs ih =>
    simp only [List.cons_append, Path, lastSlot]
    rw [ih, and_assoc]

lemma chain_nil : Chain mk get s [] ↔ get s = none := by simp [Chain, Path, lastSlot]

lemma chain_cons : Chain mk get s (p :: ps) ↔ get s = some p ∧ Chain mk get (mk p) ps := by
  simp only [Chain, Path, lastSlot, and_assoc]

lemma chain_append :
    Chain mk get s (xs ++ ys) ↔ Path mk get s xs ∧ Chain mk get (lastSlot mk s xs) ys := by
  simp only [Chain, path_append, lastSlot_append, and_assoc]

lemma Chain.get_eq_head? (h : Chain mk get s ps) : get s = ps.head? := by
  cases ps with
  | nil => exact chain_nil.mp h
  | cons p ps => exact (chain_cons.mp h).1

lemma lastSlot_mem_slots : lastSlot mk s ps ∈ slots mk s ps := by
  induction ps generalizing s with
  | nil => simp [slots, lastSlot]
  | cons p ps ih =>
    have := ih (s := mk p)
    simp only [slots, lastSlot, List.map_cons, List.mem_cons] at *
    exact Or.inr this

lemma slots_append : slots mk s (xs ++ ys) = slots mk s xs ++ ys.map mk := by
  simp [slots]

/-- A path does not read the slot behind its cells. -/
lemma Path.congr (hn : (slots mk s ps).Nodup)
    (h : ∀ t ∈ slots mk s ps, t ≠ lastSlot mk s ps → get' t = get t) (hp : Path mk get s ps) :
    Path mk get' s ps := by
  induction ps generalizing s with
  | nil => exact trivial
  | cons p ps ih =>
    obtain ⟨hs, hp⟩ := hp
    have hn' : (slots mk (mk p) ps).Nodup := (List.nodup_cons.mp hn).2
    refine ⟨?_, ih hn' (fun t ht hne => h t (List.mem_cons_of_mem _ ht) hne) hp⟩
    rw [h s List.mem_cons_self, hs]
    rintro heq
    apply (List.nodup_cons.mp hn).1
    rw [heq]
    exact lastSlot_mem_slots

/-- A chain depends on its own slots only. -/
lemma Chain.congr (h : ∀ t ∈ slots mk s ps, get' t = get t) (hc : Chain mk get s ps) :
    Chain mk get' s ps := by
  induction ps generalizing s with
  | nil =>
    rw [chain_nil] at *
    rw [h s List.mem_cons_self, hc]
  | cons p ps ih =>
    rw [chain_cons] at *
    refine ⟨by rw [h s List.mem_cons_self, hc.1], ih (fun t ht => ?_) hc.2⟩
    exact h t (List.mem_cons_of_mem _ ht)

lemma nodup_slots (hinj : Function.Injective mk) (hs : ∀ p ∈ ps, mk p ≠ s) (hn : ps.Nodup) :
    (slots mk s ps).Nodup := by
  refine List.nodup_cons.mpr ⟨?_, hn.map hinj⟩
  rw [List.mem_map]
  rintro ⟨p, hp, rfl⟩
  exact hs p hp rfl

/-- What a splice keeps: the path in front of the slot that is written and the chain behind
the cell that is linked there. -/
lemma Chain.splice (hn : (slots mk s (xs ++ ys)).Nodup) (hp : Path mk get s xs)
    (hne : ∀ t ∈ slots mk s xs, t ≠ lastSlot mk s xs → get' t = get t)
    (hc : Chain mk get' (lastSlot mk s xs) ys) : Chain mk get' s (xs ++ ys) := by
  rw [chain_append]
  refine ⟨Path.congr ?_ hne hp, hc⟩
  rw [slots_append] at hn
  exact hn.of_append_left

/-- The same cells behind another slot. -/
lemma Chain.move {s' : S} (h : ∀ p ∈ ps, get' (mk p) = get (mk p)) (hs : get' s' = get s)
    (hc : Chain mk get s ps) : Chain mk get' s' ps := by
  cases ps with
  | nil =>
    rw [chain_nil] at *
    rw [hs, hc]
  | cons p ps =>
    rw [chain_cons] at *
    refine ⟨hs.trans hc.1, Chain.congr (fun t ht => ?_) hc.2⟩
    rw [slots, List.mem_cons, List.mem_map] at ht
    rcases ht with rfl | ⟨p', hp', rfl⟩
    · exact h p List.mem_cons_self
    · exact h p' (List.mem_cons_of_mem _ hp')

/-- The cell behind the slot is taken out when the slot gets the pointer of the cell. -/
lemma Chain.unlink [DecidableEq S] (hn : (slots mk s (xs ++ p :: ys)).Nodup)
    (hc : Chain mk get s (xs ++ p :: ys)) :
    Chain mk (Function.update get (lastSlot mk s xs) (get (mk p))) s (xs ++ ys) := by
  rw [chain_append, chain_cons] at hc
  obtain ⟨hxs, -, hys⟩ := hc
  have hsub : (slots mk s (xs ++ ys)).Sublist (slots mk s (xs ++ p :: ys)) := by
    apply List.Sublist.cons_cons
    exact ((List.sublist_cons_self p ys).append_left xs).map mk
  rw [slots_append, List.nodup_append] at hn
  refine Chain.splice (slots_append ▸ hsub.nodup (slots_append ▸ List.nodup_append.mpr hn)) hxs
    (fun t _ ht => Function.update_of_ne ht _ _) (Chain.move ?_ ?_ hys)
  · intro q hq
    refine Function.update_of_ne ?_ _ _
    exact (hn.2.2 _ lastSlot_mem_slots _
      (List.mem_map_of_mem (List.mem_cons_of_mem p hq))).symm
  · exact Function.update_self _ _ _

/-- A new cell is linked at the end. -/
lemma Chain.concat [DecidableEq S] (hn : (slots mk s ps).Nodup) (hp : mk p ∉ slots mk s ps)
    (hc : Chain mk get s ps) :
    Chain mk (Function.update (Function.update get (lastSlot mk s ps) (some p)) (mk p) none) s
      (ps ++ [p]) := by
  have hne : ∀ t ∈ slots mk s ps, t ≠ mk p := fun t ht heq => hp (heq ▸ ht)
  rw [chain_append, chain_cons, chain_nil]
  refine ⟨Path.congr hn (fun t ht hlast => ?_) hc.1, ?_, Function.update_self _ _ _⟩
  · rw [Function.update_of_ne (hne t ht), Function.update_of_ne hlast]
  · rw [Function.update_of_ne (hne _ lastSlot_mem_slots), Function.update_self]

/-- Another cell takes the place of one. -/
lemma Chain.replace {q : P} (hn : (slots mk s (xs ++ p :: ys)).Nodup)
    (hc : Chain mk get s (xs ++ p :: ys)) (hlast : get' (lastSlot mk s xs) = some q)
    (hq : get' (mk q) = get (mk p))
    (hrest : ∀ t ∈ slots mk s (xs ++ ys), t ≠ lastSlot mk s xs → get' t = get t) :
    Chain mk get' s (xs ++ q :: ys) := by
  rw [chain_append, chain_cons] at hc ⊢
  obtain ⟨hxs, -, hys⟩ := hc
  rw [slots_append, List.nodup_append] at hn
  refine ⟨Path.congr hn.1 (fun t ht hne => ?_) hxs, hlast, Chain.move (fun r hr => ?_) hq hys⟩
  · apply hrest t _ hne
    rw [slots_append]
    exact List.mem_append_left _ ht
  · apply hrest
    · rw [slots_append]
      exact List.mem_append_right _ (List.mem_map_of_mem hr)
    · exact (hn.2.2 _ lastSlot_mem_slots _
        (List.mem_map_of_mem (List.mem_cons_of_mem p hr))).symm

lemma lastSlot_eq (s : S) (ps : List P) : lastSlot mk s ps = (ps.getLast?.map mk).getD s := by
  induction ps generalizing s with
  | nil => rfl
  | cons p ps ih =>
    rw [lastSlot, ih, List.getLast?_cons]
    cases ps.getLast? <;> rfl

end PointerChain

/-! ### Runs

The ends of the maximal runs of cells with equal marks. -/

namespace Runs

variable {P : Type} (mark : P → Bool)

/-- The last cell of each maximal run. -/
def ends : List P → List P
  | [] => []
  | [x] => [x]
  | x :: y :: l => if mark x = mark y then ends (y :: l) else x :: ends (y :: l)

variable {mark} {x y a : P} {l r : List P}

lemma ends_cons_of_eq (h : mark x = mark y) : ends mark (x :: y :: l) = ends mark (y :: l) := by
  rw [ends, if_pos h]

lemma ends_cons_of_ne (h : mark x ≠ mark y) :
    ends mark (x :: y :: l) = x :: ends mark (y :: l) := by
  rw [ends, if_neg h]

lemma ends_ne_nil : ends mark (x :: l) ≠ [] := by
  induction l generalizing x with
  | nil => simp [ends]
  | cons y l ih =>
    rw [ends]
    split
    · exact ih
    · exact List.cons_ne_nil _ _

lemma ends_sublist : (ends mark l).Sublist l := by
  induction l with
  | nil => exact List.Sublist.slnil
  | cons x l ih =>
    cases l with
    | nil => exact List.Sublist.refl _
    | cons y l =>
      rw [ends]
      split
      · exact ih.cons x
      · exact ih.cons_cons x

lemma getLast?_ends : (ends mark l).getLast? = l.getLast? := by
  induction l with
  | nil => rfl
  | cons x l ih =>
    cases l with
    | nil => rfl
    | cons y l =>
      rw [List.getLast?_cons_cons, ← ih, ends]
      split
      · rfl
      · have hne : ends mark (y :: l) ≠ [] := ends_ne_nil
        obtain ⟨z, r, hr⟩ := List.exists_cons_of_ne_nil hne
        rw [hr, List.getLast?_cons_cons]

lemma ends_congr {mark' : P → Bool} (h : ∀ z ∈ l, mark z = mark' z) :
    ends mark l = ends mark' l := by
  induction l with
  | nil => rfl
  | cons x l ih =>
    cases l with
    | nil => rfl
    | cons y l =>
      have hih := ih fun z hz => h z (List.mem_cons_of_mem _ hz)
      rw [ends, ends, h x (by simp), h y (by simp), hih]

/-- The end of a run that is followed by a cell of the other mark. -/
lemma ends_append (hr : ∀ z ∈ r, mark z = mark x) (hy : mark x ≠ mark y) :
    ends mark (r ++ x :: y :: l) = x :: ends mark (y :: l) := by
  induction r with
  | nil => exact ends_cons_of_ne hy
  | cons z r ih =>
    have hih := ih fun w hw => hr w (List.mem_cons_of_mem _ hw)
    have hz : mark z = mark x := hr z List.mem_cons_self
    cases r with
    | nil => exact (ends_cons_of_eq hz).trans hih
    | cons w r =>
      have hw : mark w = mark x := hr w (by simp)
      exact (ends_cons_of_eq (hz.trans hw.symm)).trans hih

/-- A single run. -/
lemma ends_of_forall (hr : ∀ z ∈ r, mark z = mark x) : ends mark (r ++ [x]) = [x] := by
  induction r with
  | nil => rfl
  | cons z r ih =>
    have hih := ih fun w hw => hr w (List.mem_cons_of_mem _ hw)
    have hz : mark z = mark x := hr z List.mem_cons_self
    cases r with
    | nil => exact (ends_cons_of_eq hz).trans hih
    | cons w r =>
      have hw : mark w = mark x := hr w (by simp)
      exact (ends_cons_of_eq (hz.trans hw.symm)).trans hih

/-- A run in front of cells that continue it. -/
lemma ends_append_of_eq (hr : ∀ z ∈ r, mark z = mark y) :
    ends mark (r ++ y :: l) = ends mark (y :: l) := by
  induction r with
  | nil => rfl
  | cons z r ih =>
    have hih := ih fun w hw => hr w (List.mem_cons_of_mem _ hw)
    have hz : mark z = mark y := hr z List.mem_cons_self
    cases r with
    | nil => exact ends_cons_of_eq hz
    | cons w r =>
      have hw : mark w = mark y := hr w (by simp)
      exact (ends_cons_of_eq (hz.trans hw.symm)).trans hih

/-- The ends after one more cell at the rear: the last run grows or a new one begins. -/
lemma ends_concat (mark : P → Bool) (l : List P) (z a : P) :
    ends mark (l ++ [z, a]) =
      if mark z = mark a then (ends mark (l ++ [z])).dropLast ++ [a]
      else ends mark (l ++ [z]) ++ [a] := by
  induction l with
  | nil =>
    by_cases h : mark z = mark a
    · simp [ends, h]
    · simp [ends, h]
  | cons x l ih =>
    cases l with
    | nil =>
      by_cases hx : mark x = mark z
      · have h₁ : ends mark [x, z, a] = ends mark [z, a] := ends_cons_of_eq hx
        have h₂ : ends mark [x, z] = ends mark [z] := ends_cons_of_eq hx
        exact h₁.trans (ih.trans (by rw [List.cons_append, List.nil_append, h₂]))
      · have h₁ : ends mark [x, z, a] = x :: ends mark [z, a] := ends_cons_of_ne hx
        have h₂ : ends mark [x, z] = x :: ends mark [z] := ends_cons_of_ne hx
        rw [List.cons_append, List.nil_append, h₁, List.cons_append, List.nil_append, h₂]
        by_cases h : mark z = mark a
        · simp [ends, h]
        · simp [ends, h]
    | cons y l =>
      by_cases hx : mark x = mark y
      · have h₁ : ends mark (x :: y :: l ++ [z, a]) = ends mark (y :: l ++ [z, a]) :=
          ends_cons_of_eq hx
        have h₂ : ends mark (x :: y :: l ++ [z]) = ends mark (y :: l ++ [z]) :=
          ends_cons_of_eq hx
        rw [h₁, h₂, ih]
      · have h₁ : ends mark (x :: y :: l ++ [z, a]) = x :: ends mark (y :: l ++ [z, a]) :=
          ends_cons_of_ne hx
        have h₂ : ends mark (x :: y :: l ++ [z]) = x :: ends mark (y :: l ++ [z]) :=
          ends_cons_of_ne hx
        rw [h₁, h₂, ih]
        have hne : ends mark (y :: l ++ [z]) ≠ [] := ends_ne_nil
        split
        · rw [List.dropLast_cons_of_ne_nil hne]
          rfl
        · rfl

/-- Cells of the other mark than `b` are a single run. -/
lemma ends_of_ne {b : Bool} (h : ∀ z ∈ r, mark z ≠ b) : ends mark r = r.getLast?.toList := by
  rcases List.eq_nil_or_concat' r with rfl | ⟨r, x, rfl⟩
  · rfl
  · have hx : mark x ≠ b := h x (by simp)
    rw [List.getLast?_concat, ends_of_forall fun z hz => ?_]
    · rfl
    · have hz : mark z ≠ b := h z (by simp [hz])
      exact (Bool.eq_not_of_ne hz).trans (Bool.eq_not_of_ne hx).symm

/-- A run in front of a cell of the other mark. -/
lemma ends_append_of_ne (h : ∀ z ∈ r, mark z ≠ mark y) :
    ends mark (r ++ y :: l) = ends mark r ++ ends mark (y :: l) := by
  rcases List.eq_nil_or_concat' r with rfl | ⟨r, x, rfl⟩
  · rfl
  · have hx : mark x ≠ mark y := h x (by simp)
    have hr (z : P) (hz : z ∈ r) : mark z = mark x := by
      have hz : mark z ≠ mark y := h z (by simp [hz])
      exact (Bool.eq_not_of_ne hz).trans (Bool.eq_not_of_ne hx).symm
    rw [ends_of_forall hr, List.append_assoc]
    exact ends_append hr hx

end Runs
