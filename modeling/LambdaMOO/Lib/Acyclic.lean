import Mathlib.Data.Finset.Card
import Mathlib.Logic.Relation

/-!
# Acyclic relations

A relation without cycles stays so when edges are added at a node that none of the new
targets reaches. On finitely many nodes it has a rank, which bounds every recursion along it.
-/

namespace Relation

variable {α : Type} {r r' : α → α → Prop}

/-- No node reaches itself. -/
def Acyclic (r : α → α → Prop) : Prop := ∀ a, ¬ TransGen r a a

lemma Acyclic.mono (h : Acyclic r) (hle : ∀ a b, r' a b → r a b) : Acyclic r' :=
  fun a ha => h a (TransGen.mono hle a a ha)

/-- A path that uses new edges passes `k` first and leaves it for good to one of their
targets. -/
lemma TransGen.of_insert {k : α} {s : α → Prop} (hr : ∀ a b, r' a b → r a b ∨ a = k ∧ s b)
    {a b : α} (h : TransGen r' a b) :
    TransGen r a b ∨ ReflTransGen r a k ∧ ∃ c, s c ∧ ReflTransGen r c b := by
  induction h with
  | single hab =>
    rcases hr _ _ hab with hold | ⟨rfl, hs⟩
    · exact Or.inl (.single hold)
    · exact Or.inr ⟨.refl, _, hs, .refl⟩
  | tail _ hbc ih =>
    rcases hr _ _ hbc with hold | ⟨rfl, hs⟩
    · rcases ih with hab | ⟨hak, c, hc, hcb⟩
      · exact Or.inl (hab.tail hold)
      · exact Or.inr ⟨hak, c, hc, hcb.tail hold⟩
    · rcases ih with hab | ⟨hak, _⟩
      · exact Or.inr ⟨hab.to_reflTransGen, _, hs, .refl⟩
      · exact Or.inr ⟨hak, _, hs, .refl⟩

/-- New edges from `k` to nodes that do not reach `k`. -/
lemma Acyclic.insert (h : Acyclic r) {k : α} {s : α → Prop}
    (hr : ∀ a b, r' a b → r a b ∨ a = k ∧ s b) (hs : ∀ c, s c → ¬ ReflTransGen r c k) :
    Acyclic r' := by
  intro a ha
  rcases ha.of_insert hr with hold | ⟨hak, c, hc, hca⟩
  · exact h a hold
  · exact hs c hc (hca.trans hak)

open Classical in
/-- The rank of a node is the number of nodes it reaches. -/
theorem Acyclic.exists_rank (h : Acyclic r) (s : Finset α) (hs : ∀ a b, r a b → b ∈ s) :
    ∃ rank : α → Nat, (∀ a b, r a b → rank b < rank a) ∧ ∀ a ∈ s, rank a < s.card := by
  refine ⟨fun a => (s.filter fun b => TransGen r a b).card, ?_, ?_⟩
  · intro a b hab
    apply Finset.card_lt_card
    rw [Finset.ssubset_iff_of_subset]
    · -- `b` is reached from `a`, and not from itself
      refine ⟨b, Finset.mem_filter.mpr ⟨hs a b hab, .single hab⟩, ?_⟩
      intro hb
      exact h b (Finset.mem_filter.mp hb).2
    · intro c hc
      rw [Finset.mem_filter] at hc ⊢
      exact ⟨hc.1, hc.2.head hab⟩
  · intro a ha
    apply Finset.card_lt_card
    rw [Finset.ssubset_iff_of_subset (Finset.filter_subset _ _)]
    refine ⟨a, ha, ?_⟩
    intro hmem
    exact h a (Finset.mem_filter.mp hmem).2

end Relation
