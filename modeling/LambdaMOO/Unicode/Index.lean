import LambdaMOO.Utf

/-!
# Character and byte indices

`utf_byte_index` and `utf_byte_range` turn indices of characters into indices of bytes, both
from 1. Indices are unbounded here; past the end both count each step as one byte.
-/

namespace LambdaMOO

/-- The loop of `utf_byte_index`, cut off after `n` turns. `off` is `s - s0`. -/
def byteIndexLoop : Nat → List UInt8 → Int → Int → Option Int
  | 0, _, _, _ => none
  | n + 1, s, off, ci =>
    let ci := ci - 1
    let (v, k) := getUtf s
    if v ≠ 0 ∧ 1 < ci then byteIndexLoop n (s.drop k) (off + k) ci
    else some (off + k + ci)

/-- `utf_byte_index`. No turn but the last stays at the end of the string. -/
def utfByteIndex (s : List UInt8) (ci : Int) : Option Int :=
  if ci ≤ 1 then some ci else byteIndexLoop (s.length + 1) s 0 ci

/-- `cis[i]`. -/
def rangeGet (cis : Int × Int) : Bool → Int
  | false => cis.1
  | true => cis.2

/-- `cis[i] = ci`. -/
def rangeSet (cis : Int × Int) (ci : Int) : Bool → Int × Int
  | false => (ci, cis.2)
  | true => (cis.1, ci)

/-- The first loop of `utf_byte_range`. The pointer walks through the positions `todo`. -/
def skipNonpos (cis : Int × Int) : List Bool → List Bool
  | [] => []
  | i :: todo => if rangeGet cis i ≤ 0 then skipNonpos cis todo else i :: todo

/-- The inner loop: what is due at the character `cn`. -/
def settleDue (off cn : Int) : Int × Int → List Bool → (Int × Int) × List Bool
  | cis, [] => (cis, [])
  | cis, i :: todo =>
    if rangeGet cis i = cn then settleDue off cn (rangeSet cis (off + 1) i) todo
    else (cis, i :: todo)

/-- The last loop: what lies behind the end of the string. -/
def settleRest (off cn : Int) : Int × Int → List Bool → Int × Int
  | cis, [] => cis
  | cis, i :: todo => settleRest off cn (rangeSet cis (rangeGet cis i + (off - cn + 1)) i) todo

/-- The loop over the characters, cut off after `n` turns. -/
def byteRangeLoop : Nat → List UInt8 → Int → Int → Int × Int → List Bool → Option (Int × Int)
  | 0, _, _, _, _, _ => none
  | n + 1, s, off, cn, cis, todo =>
    match settleDue off cn cis todo with
    | (cis, []) => some cis
    | (cis, i :: todo) =>
      let cn := cn + 1
      let (v, k) := getUtf s
      if v ≠ 0 then byteRangeLoop n (s.drop k) (off + k) cn cis (i :: todo)
      else some (settleRest (off + k) cn cis (i :: todo))

/-- `utf_byte_range`. -/
def utfByteRange (s : List UInt8) (cis : Int × Int) : Option (Int × Int) :=
  let order := if cis.1 > cis.2 then [true, false] else [false, true]
  match skipNonpos cis order with
  | [] => some cis
  | i :: todo => byteRangeLoop (s.length + 1) s 0 1 cis (i :: todo)

/-! ## One scan from a given character -/

/-- The index of the byte where the character starts that is `d` characters further on. -/
def indexFrom : Nat → List UInt8 → Int → Int
  | 0, _, off => off + 1
  | d + 1, s, off =>
    if (getUtf s).1 = 0 then off + (getUtf s).2 + (d + 1)
    else indexFrom d (s.drop (getUtf s).2) (off + (getUtf s).2)

lemma length_drop_getUtf {s : List UInt8} (h : (getUtf s).1 ≠ 0) :
    (s.drop (getUtf s).2).length < s.length := by
  cases s with
  | nil => exact absurd rfl h
  | cons c p =>
    have hmoves := getUtf_moves (c :: p)
    rw [List.length_drop, List.length_cons]
    omega

lemma byteIndexLoop_eq {n : Nat} {s : List UInt8} (hn : s.length < n) (off : Int) (d : Nat) :
    byteIndexLoop n s off (d + 2) = some (indexFrom (d + 1) s off) := by
  induction n generalizing s off d with
  | zero => exact absurd hn (Nat.not_lt_zero _)
  | succ n ih =>
    have hci : (d + 2 : Int) - 1 = d + 1 := by omega
    rw [byteIndexLoop, indexFrom, hci]
    dsimp only
    by_cases hv : (getUtf s).1 = 0
    · rw [if_neg fun h => h.1 hv, if_pos hv]
    · have hlt := length_drop_getUtf hv
      rw [if_neg hv]
      cases d with
      | zero =>
        rw [if_neg (by simp)]
        rfl
      | succ d =>
        have hpos : (1 : Int) < ((d + 1 : Nat) : Int) + 1 := by omega
        have hcast : ((d + 1 : Nat) : Int) + 1 = (d : Int) + 2 := by omega
        rw [if_pos ⟨hv, hpos⟩, hcast, ih (by omega)]

/-- The byte index that a character index stands for. -/
def byteIndex (s : List UInt8) (ci : Int) : Int :=
  if ci ≤ 0 then ci else indexFrom (ci - 1).toNat s 0

lemma utfByteIndex_eq (s : List UInt8) (ci : Int) : utfByteIndex s ci = some (byteIndex s ci) := by
  unfold utfByteIndex byteIndex
  split_ifs with h₁ h₀
  · rfl
  · obtain rfl : ci = 1 := by omega
    rfl
  · omega
  · obtain ⟨d, rfl⟩ : ∃ d : Nat, ci = d + 2 := ⟨(ci - 2).toNat, by omega⟩
    have hd : ((d + 2 : Int) - 1).toNat = d + 1 := by omega
    rw [byteIndexLoop_eq (Nat.lt_succ_self _), hd]

/-! ## Both positions in one scan -/

@[simp] lemma rangeGet_rangeSet_self (cis : Int × Int) (ci : Int) (i : Bool) :
    rangeGet (rangeSet cis ci i) i = ci := by
  cases i <;> rfl

lemma rangeGet_rangeSet_ne (cis : Int × Int) (ci : Int) {i j : Bool} (h : j ≠ i) :
    rangeGet (rangeSet cis ci i) j = rangeGet cis j := by
  cases i <;> cases j <;> first | rfl | exact absurd rfl h

/-- The positions still to be visited are distinct, in ascending order of their values, and
none is before the character `cn`. -/
structure Due (cn : Int) (cis : Int × Int) (todo : List Bool) : Prop where
  nodup : todo.Nodup
  sorted : todo.Pairwise fun i j => rangeGet cis i ≤ rangeGet cis j
  bound : ∀ i ∈ todo, cn ≤ rangeGet cis i

/-- The positions that have been visited keep what they have, the others get the index that
the scan finds from here. -/
def settled (s : List UInt8) (off cn : Int) (cis : Int × Int) (todo : List Bool) (i : Bool) : Int :=
  if i ∈ todo then indexFrom (rangeGet cis i - cn).toNat s off else rangeGet cis i

lemma Due.set {cn : Int} {cis : Int × Int} {i : Bool} {todo : List Bool}
    (h : Due cn cis (i :: todo)) (ci : Int) : Due cn (rangeSet cis ci i) todo := by
  obtain ⟨hi, hnodup⟩ := List.nodup_cons.mp h.nodup
  have hkeep : ∀ j ∈ todo, rangeGet (rangeSet cis ci i) j = rangeGet cis j := by
    intro j hj
    apply rangeGet_rangeSet_ne
    rintro rfl
    exact hi hj
  refine ⟨hnodup, ?_, ?_⟩
  · refine (List.pairwise_cons.mp h.sorted).2.imp_of_mem ?_
    intro j k hj hk hjk
    rwa [hkeep j hj, hkeep k hk]
  · intro j hj
    rw [hkeep j hj]
    exact h.bound j (List.mem_cons_of_mem _ hj)

/-- Setting a position to what the scan finds for it changes nothing in the end. -/
lemma settled_set {s : List UInt8} {off cn : Int} {cis : Int × Int} {i : Bool} {todo : List Bool}
    (hi : i ∉ todo) {ci : Int} (hci : ci = indexFrom (rangeGet cis i - cn).toNat s off) :
    settled s off cn (rangeSet cis ci i) todo = settled s off cn cis (i :: todo) := by
  funext j
  unfold settled
  by_cases hj : j = i
  · subst hj
    rw [if_neg hi, if_pos List.mem_cons_self, rangeGet_rangeSet_self, hci]
  · have hmem : j ∈ i :: todo ↔ j ∈ todo := by simp [hj]
    rw [if_congr hmem rfl rfl, rangeGet_rangeSet_ne _ _ hj]

lemma settleDue_spec (s : List UInt8) (off : Int) {cn : Int} {cis : Int × Int}
    {todo : List Bool} (h : Due cn cis todo) :
    Due (cn + 1) (settleDue off cn cis todo).1 (settleDue off cn cis todo).2 ∧
      settled s off cn (settleDue off cn cis todo).1 (settleDue off cn cis todo).2
        = settled s off cn cis todo := by
  induction todo generalizing cis with
  | nil => exact ⟨⟨List.nodup_nil, List.Pairwise.nil, by simp [settleDue]⟩, rfl⟩
  | cons i todo ih =>
    unfold settleDue
    split_ifs with heq
    · obtain ⟨hdue, hset⟩ := ih (h.set (off + 1))
      refine ⟨hdue, hset.trans (settled_set (List.nodup_cons.mp h.nodup).1 ?_)⟩
      rw [heq, Int.sub_self]
      rfl
    · refine ⟨⟨h.nodup, h.sorted, ?_⟩, rfl⟩
      have hlt : cn + 1 ≤ rangeGet cis i := by
        have := h.bound i List.mem_cons_self
        omega
      intro j hj
      rcases List.mem_cons.mp hj with rfl | hj
      · exact hlt
      · exact le_trans hlt ((List.pairwise_cons.mp h.sorted).1 j hj)

lemma settleRest_spec {off cn : Int} {cis : Int × Int} {todo : List Bool} (h : todo.Nodup)
    (j : Bool) : rangeGet (settleRest off cn cis todo) j
      = if j ∈ todo then rangeGet cis j + (off - cn + 1) else rangeGet cis j := by
  induction todo generalizing cis with
  | nil => rfl
  | cons i todo ih =>
    obtain ⟨hi, hnodup⟩ := List.nodup_cons.mp h
    rw [settleRest, ih hnodup]
    by_cases hj : j = i
    · subst hj
      rw [if_neg hi, if_pos List.mem_cons_self, rangeGet_rangeSet_self]
    · have hmem : j ∈ i :: todo ↔ j ∈ todo := by simp [hj]
      rw [if_congr hmem rfl rfl, rangeGet_rangeSet_ne _ _ hj]

/-- The loop settles every position that is still to be visited. -/
lemma byteRangeLoop_spec {n : Nat} {s : List UInt8} (hn : s.length < n) (off : Int) {cn : Int}
    {cis : Int × Int} {todo : List Bool} (h : Due cn cis todo) :
    ∃ cis', byteRangeLoop n s off cn cis todo = some cis' ∧
      rangeGet cis' = settled s off cn cis todo := by
  induction n generalizing s off cn cis todo with
  | zero => exact absurd hn (Nat.not_lt_zero _)
  | succ n ih =>
    obtain ⟨hdue, hset⟩ := settleDue_spec s off h
    unfold byteRangeLoop
    rcases hp : settleDue off cn cis todo with ⟨cis₁, _ | ⟨i, todo₁⟩⟩
    · rw [hp] at hset
      refine ⟨cis₁, rfl, ?_⟩
      rw [← hset]
      funext j
      exact (if_neg List.not_mem_nil).symm
    · rw [hp] at hdue hset
      dsimp only at hdue hset ⊢
      rw [← hset]
      -- for the positions still to be visited the scan goes on
      have hstep : ∀ j ∈ i :: todo₁, ∃ d : Nat, rangeGet cis₁ j = cn + (d + 1) := by
        intro j hj
        have := hdue.bound j hj
        exact ⟨(rangeGet cis₁ j - cn - 1).toNat, by omega⟩
      split_ifs with hv
      · obtain ⟨cis', heq, hget⟩ := ih (Nat.lt_of_lt_of_le (length_drop_getUtf hv)
          (Nat.le_of_lt_succ hn)) _ hdue
        refine ⟨cis', heq, hget.trans ?_⟩
        funext j
        unfold settled
        by_cases hj : j ∈ i :: todo₁
        · obtain ⟨d, hd⟩ := hstep j hj
          have h₁ : (rangeGet cis₁ j - (cn + 1)).toNat = d := by omega
          have h₂ : (rangeGet cis₁ j - cn).toNat = d + 1 := by omega
          rw [if_pos hj, if_pos hj, h₁, h₂, indexFrom, if_neg hv]
        · rw [if_neg hj, if_neg hj]
      · refine ⟨_, rfl, ?_⟩
        funext j
        rw [settleRest_spec hdue.nodup]
        unfold settled
        by_cases hj : j ∈ i :: todo₁
        · obtain ⟨d, hd⟩ := hstep j hj
          have h₂ : (rangeGet cis₁ j - cn).toNat = d + 1 := by omega
          rw [if_pos hj, if_pos hj, h₂, indexFrom, if_pos (not_not.mp hv), hd]
          omega
        · rw [if_neg hj, if_neg hj]

/-- The positions that are skipped are the byte indices of themselves. -/
lemma skipNonpos_spec {cis : Int × Int} {todo : List Bool} (hnodup : todo.Nodup)
    (hsorted : todo.Pairwise fun i j => rangeGet cis i ≤ rangeGet cis j) :
    Due 1 cis (skipNonpos cis todo) ∧
      ∀ i ∈ todo, i ∉ skipNonpos cis todo → rangeGet cis i ≤ 0 := by
  induction todo with
  | nil => exact ⟨⟨List.nodup_nil, List.Pairwise.nil, by simp [skipNonpos]⟩, by simp⟩
  | cons i todo ih =>
    unfold skipNonpos
    split_ifs with hle
    · obtain ⟨hdue, hskip⟩ := ih (List.nodup_cons.mp hnodup).2 (List.pairwise_cons.mp hsorted).2
      refine ⟨hdue, ?_⟩
      intro j hj hnot
      rcases List.mem_cons.mp hj with rfl | hj
      · exact hle
      · exact hskip j hj hnot
    · refine ⟨⟨hnodup, hsorted, ?_⟩, fun j hj hnot => absurd hj hnot⟩
      intro j hj
      rcases List.mem_cons.mp hj with rfl | hj
      · omega
      · have := (List.pairwise_cons.mp hsorted).1 j hj
        omega

/-- One scan for both positions gives what a scan for each gives. -/
theorem utfByteRange_eq (s : List UInt8) (cis : Int × Int) :
    ∃ b₀ b₁, utfByteIndex s cis.1 = some b₀ ∧ utfByteIndex s cis.2 = some b₁ ∧
      utfByteRange s cis = some (b₀, b₁) := by
  refine ⟨byteIndex s cis.1, byteIndex s cis.2, utfByteIndex_eq s _, utfByteIndex_eq s _, ?_⟩
  suffices hrange : ∃ cis', utfByteRange s cis = some cis' ∧
      ∀ i, rangeGet cis' i = byteIndex s (rangeGet cis i) by
    obtain ⟨cis', heq, hget⟩ := hrange
    rw [heq, Option.some.injEq]
    exact Prod.ext (hget false) (hget true)
  obtain ⟨order, horder, hnodup, hall, hsorted⟩ : ∃ order : List Bool,
      (if cis.1 > cis.2 then [true, false] else [false, true]) = order ∧ order.Nodup ∧
      (∀ i, i ∈ order) ∧ order.Pairwise fun i j => rangeGet cis i ≤ rangeGet cis j := by
    by_cases hgt : cis.1 > cis.2
    · refine ⟨[true, false], if_pos hgt, by decide, by decide, ?_⟩
      simpa [rangeGet] using Int.le_of_lt hgt
    · refine ⟨[false, true], if_neg hgt, by decide, by decide, ?_⟩
      simpa [rangeGet] using hgt
  obtain ⟨hdue, hskip⟩ := skipNonpos_spec hnodup hsorted
  obtain ⟨cis', heq, hget⟩ := byteRangeLoop_spec (Nat.lt_succ_self s.length) 0 hdue
  have hfinal : ∀ i, settled s 0 1 cis (skipNonpos cis order) i = byteIndex s (rangeGet cis i) := by
    intro i
    unfold settled byteIndex
    by_cases hi : i ∈ skipNonpos cis order
    · have hpos := hdue.bound i hi
      rw [if_pos hi, if_neg (by omega)]
    · rw [if_neg hi, if_pos (hskip i (hall i) hi)]
  unfold utfByteRange
  rw [horder]
  dsimp only
  cases htodo : skipNonpos cis order with
  | nil =>
    refine ⟨cis, rfl, fun i => ?_⟩
    rw [← hfinal i, settled, htodo, if_neg List.not_mem_nil]
  | cons i todo =>
    rw [htodo] at heq hget hfinal
    exact ⟨cis', heq, fun j => (congrFun hget j).trans (hfinal j)⟩

end LambdaMOO
