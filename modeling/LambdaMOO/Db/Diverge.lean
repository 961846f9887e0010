import LambdaMOO.Db.Emit
import LambdaMOO.Db.Text

/-!
# Two dumps with different records

Two dumps of the same pieces that take the same text from the same start have recorded the
same of every waif they write: at the first difference they would print different indices.
-/

namespace LambdaMOO

variable {ft : FloatText}

/-! ## Lines -/

lemma decimal_injective : Function.Injective decimal := by
  have hnat : ∀ n m : Nat, Nat.toDigits 10 n = Nat.toDigits 10 m → n = m := by
    intro n m h
    have := congrArg (fun l => Nat.ofDigitChars 10 l 0) h
    simpa [Nat.ofDigitChars_toDigits] using this
  have hdigit : ∀ n : Nat, (Nat.toDigits 10 n).head? ≠ some '-' := by
    intro n h
    have hmem : '-' ∈ Nat.toDigits 10 n := List.mem_of_head? h
    simpa [Char.isDigit] using isDigit_of_mem_toDigits hmem
  intro i j h
  cases i with
  | ofNat n =>
    cases j with
    | ofNat m => rw [hnat n m h]
    | negSucc m => exact absurd (congrArg List.head? h) (hdigit n)
  | negSucc n =>
    cases j with
    | ofNat m => exact absurd (congrArg List.head? h.symm) (hdigit m)
    | negSucc m =>
      have := hnat _ _ (List.cons.inj h).2
      simp_all

/-- A number in front of a text ends where its line ends. -/
lemma intmaxText_append_inj {i j : Int} {u v : List Char}
    (h : intmaxText i ++ u = intmaxText j ++ v) : i = j ∧ u = v := by
  unfold intmaxText at h
  rw [List.append_assoc, List.append_assoc] at h
  have hline : ∀ (k : Int) (w : List Char),
      (decimal k ++ (['\n'] ++ w)).takeWhile (· ≠ '\n') = decimal k := by
    intro k w
    rw [List.takeWhile_append_of_pos]
    · simp
    · intro c hc
      apply decide_eq_true
      rintro rfl
      exact newline_notMem_decimal k hc
  have hij : decimal i = decimal j := by rw [← hline i u, h, hline j v]
  rw [hij, List.append_cancel_left_eq] at h
  exact ⟨decimal_injective hij, (List.cons.inj h).2⟩

/-! ## Records -/

/-- The first difference between the two lists of properties is not a value. -/
def Aligned (l₁ l₂ : List (Nat × Var)) : Prop :=
  ∀ pre c v₁ v₂ q₁ q₂, l₁ = pre ++ (c, v₁) :: q₁ → l₂ = pre ++ (c, v₂) :: q₂ → v₁ = v₂

lemma Aligned.tail {p : Nat × Var} {l₁ l₂ : List (Nat × Var)} (h : Aligned (p :: l₁) (p :: l₂)) :
    Aligned l₁ l₂ := by
  intro pre c v₁ v₂ q₁ q₂ h₁ h₂
  exact h (p :: pre) c v₁ v₂ q₁ q₂ (by simp [h₁]) (by simp [h₂])

/-- Aligned lists agree, or differ in an index behind a common part. -/
lemma Aligned.eq_or {l₁ l₂ : List (Nat × Var)} (h : Aligned l₁ l₂) :
    l₁ = l₂ ∨ ∃ pre q₁ q₂, l₁ = pre ++ q₁ ∧ l₂ = pre ++ q₂ ∧ nextIndex q₁ ≠ nextIndex q₂ := by
  induction l₁ generalizing l₂ with
  | nil =>
    cases l₂ with
    | nil => exact Or.inl rfl
    | cons p l₂ => exact Or.inr ⟨[], [], p :: l₂, rfl, rfl, by simp only [nextIndex]; omega⟩
  | cons p l₁ ih =>
    cases l₂ with
    | nil => exact Or.inr ⟨[], p :: l₁, [], rfl, rfl, by simp only [nextIndex]; omega⟩
    | cons q l₂ =>
      by_cases hidx : p.1 = q.1
      · obtain rfl : p = q := Prod.ext hidx
          (h [] p.1 p.2 q.2 l₁ l₂ rfl (by rw [hidx]; rfl))
        rcases ih h.tail with rfl | ⟨pre, q₁, q₂, rfl, rfl, hne⟩
        · exact Or.inl rfl
        · exact Or.inr ⟨p :: pre, q₁, q₂, rfl, rfl, hne⟩
      · refine Or.inr ⟨[], p :: l₁, q :: l₂, rfl, rfl, ?_⟩
        simp only [nextIndex]
        exact_mod_cast hidx

/-- Two records of one waif: the properties may differ, but not first in a value. -/
structure Record.Similar (R₁ R₂ : Record) : Prop where
  cls : R₁.cls = R₂.cls
  owner : R₁.owner = R₂.owner
  length : R₁.length = R₂.length
  props : Aligned R₁.props R₂.props

/-- The lines of a waif up to an index. -/
lemma Record.pieces_append (R : Record) (index : Nat) {pre q : List (Nat × Var)}
    (h : R.props = pre ++ q) (ps : List Piece) :
    ∃ rest, R.pieces index ++ ps
      = ([.text (waifText 'c' index), .text (intmaxText R.cls), .text (intmaxText R.owner),
          .text (intmaxText R.length)] ++ pre.flatMap propPieces)
        ++ .text (intmaxText (nextIndex q)) :: rest := by
  have hq := flatMap_propPieces_append q
  refine ⟨restPieces q ++ (.text ['.', '\n'] :: ps), ?_⟩
  have hsplit : q.flatMap propPieces ++ (.text (intmaxText (-1)) :: .text ['.', '\n'] :: ps)
      = .text (intmaxText (nextIndex q)) :: (restPieces q ++ (.text ['.', '\n'] :: ps)) := by
    rw [← List.cons_append, ← hq]
    simp
  rw [← hsplit]
  simp [Record.pieces, h]

namespace Emits

variable {records records' : Nat → Option Record} {ps : List Piece} {s s₁ s₂ : List Nat}
  {t₁ t₂ u₁ u₂ : List Char}

/-- The text of some pieces and the numbers given out are unique. -/
lemma unique (h₁ : Emits ft records ps s t₁ s₁) (h₂ : Emits ft records ps s t₂ s₂) :
    t₁ = t₂ ∧ s₁ = s₂ := by
  induction h₁ generalizing t₂ with
  | nil =>
    cases h₂
    exact ⟨rfl, rfl⟩
  | text _ ih =>
    cases h₂ with
    | text h₂ =>
      obtain ⟨rfl, rfl⟩ := ih h₂
      exact ⟨rfl, rfl⟩
  | scalar hv _ ih =>
    cases h₂ with
    | scalar hv' h₂ =>
      obtain ⟨rfl, rfl⟩ := ih h₂
      rw [hv, Option.some.injEq] at hv'
      exact ⟨by rw [hv'], rfl⟩
    | list _ => simp [Var.scalarText] at hv
    | ref _ _ => simp [Var.scalarText] at hv
    | new _ _ _ => simp [Var.scalarText] at hv
  | list _ ih =>
    cases h₂ with
    | scalar hv' _ => simp [Var.scalarText] at hv'
    | list h₂ => exact ih h₂
  | ref hr _ ih =>
    cases h₂ with
    | scalar hv' _ => simp [Var.scalarText] at hv'
    | ref _ h₂ => exact ih h₂
    | new hr' _ _ => exact absurd hr hr'
  | new hr hR _ ih =>
    cases h₂ with
    | scalar hv' _ => simp [Var.scalarText] at hv'
    | ref hr' _ => exact absurd hr' hr
    | new _ hR' h₂ =>
      rw [hR, Option.some.injEq] at hR'
      exact ih (hR' ▸ h₂)

/-- What agrees of two dumps that start with the same text. -/
def Agree (records records' : Nat → Option Record) (s s₁ s₂ : List Nat)
    (t₁ t₂ u₁ u₂ : List Char) : Prop :=
  t₁ = t₂ ∧ u₁ = u₂ ∧ s₁ = s₂ ∧ ∀ r ∈ s₁, r ∉ s → records r = records' r

/-- Two dumps of the same pieces with the same text record the same. -/
lemma agree (hsim : ∀ r R₁ R₂, records r = some R₁ → records' r = some R₂ → R₁.Similar R₂)
    (n : Nat) : ∀ {ps s t₁ s₁ t₂ s₂ u₁ u₂}, t₁.length < n → Emits ft records ps s t₁ s₁ →
      Emits ft records' ps s t₂ s₂ → t₁ ++ u₁ = t₂ ++ u₂ →
      Agree records records' s s₁ s₂ t₁ t₂ u₁ u₂ := by
  induction n with
  | zero => intro _ _ _ _ _ _ _ _ h; omega
  | succ n ihn =>
    intro ps s t₁ s₁ t₂ s₂ u₁ u₂ hlen h₁ h₂ heq
    induction h₁ generalizing t₂ u₁ u₂ with
    | nil =>
      cases h₂
      exact ⟨rfl, by simpa using heq, rfl, by simp +contextual⟩
    | text h₁ ih =>
      cases h₂ with
      | text h₂ =>
        rw [List.length_append] at hlen
        rw [List.append_assoc, List.append_assoc, List.append_cancel_left_eq] at heq
        obtain ⟨rfl, hu, hs, hrec⟩ := ih (by omega) h₂ heq
        exact ⟨rfl, hu, hs, hrec⟩
    | scalar hv h₁ ih =>
      cases h₂ with
      | scalar hv' h₂ =>
        rw [hv, Option.some.injEq] at hv'
        subst hv'
        rw [List.length_append] at hlen
        rw [List.append_assoc, List.append_assoc, List.append_cancel_left_eq] at heq
        obtain ⟨rfl, hu, hs, hrec⟩ := ih (by omega) h₂ heq
        exact ⟨rfl, hu, hs, hrec⟩
      | list _ => simp [Var.scalarText] at hv
      | ref _ _ => simp [Var.scalarText] at hv
      | new _ _ _ => simp [Var.scalarText] at hv
    | list h₁ ih =>
      cases h₂ with
      | scalar hv' _ => simp [Var.scalarText] at hv'
      | list h₂ => exact ih hlen h₂ heq
    | ref hr h₁ ih =>
      cases h₂ with
      | scalar hv' _ => simp [Var.scalarText] at hv'
      | ref _ h₂ => exact ih hlen h₂ heq
      | new hr' _ _ => exact absurd hr hr'
    | @new r R₁ ps s _ s₁ hr hR₁ h₁ _ =>
      cases h₂ with
      | scalar hv' _ => simp [Var.scalarText] at hv'
      | ref hr' _ => exact absurd hr' hr
      | @new _ R₂ _ _ _ _ _ hR₂ h₂ =>
        obtain ⟨hcls, howner, hlength, hprops⟩ := hsim r R₁ R₂ hR₁ hR₂
        -- the line with the type leaves less text, so that the induction goes on
        cases h₁ with
        | @text _ _ _ t₁ _ h₁ =>
          cases h₂ with
          | @text _ _ _ t₂ _ h₂ =>
            have hshort : t₁.length < n := by
              rw [List.length_append] at hlen
              have : 0 < (intmaxText 10).length := by simp [intmaxText]
              omega
            rw [List.append_assoc, List.append_assoc, List.append_cancel_left_eq] at heq
            have hR : R₁ = R₂ := by
              rcases hprops.eq_or with hsame | ⟨pre, q₁, q₂, hq₁, hq₂, hne⟩
              · cases R₁
                cases R₂
                simp_all
              · exfalso
                obtain ⟨rest₁, hpieces₁⟩ := R₁.pieces_append s.length hq₁ ps
                obtain ⟨rest₂, hpieces₂⟩ := R₂.pieces_append s.length hq₂ ps
                obtain ⟨a₁, b₁, σ₁, rfl, ha₁, hb₁⟩ := h₁.split _ _ hpieces₁
                obtain ⟨a₂, b₂, σ₂, rfl, ha₂, hb₂⟩ := h₂.split _ _ hpieces₂
                rw [← hcls, ← howner, ← hlength] at ha₂
                rw [List.append_assoc, List.append_assoc] at heq
                rw [List.length_append] at hshort
                obtain ⟨_, hrest, _, _⟩ := ihn (by omega) ha₁ ha₂ heq
                cases hb₁ with
                | text hb₁ =>
                  cases hb₂ with
                  | text hb₂ =>
                    rw [List.append_assoc, List.append_assoc] at hrest
                    exact hne (intmaxText_append_inj hrest).1
            subst hR
            obtain ⟨rfl, hu, hs, hrec⟩ := ihn hshort h₁ h₂ heq
            refine ⟨rfl, hu, hs, fun r' hr' hn => ?_⟩
            by_cases hrr : r' = r
            · rw [hrr, hR₁, hR₂]
            · exact hrec r' hr' (by simp [hn, hrr])

end Emits

end LambdaMOO
