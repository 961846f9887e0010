import LambdaMOO.Strings.Compare
import LambdaMOO.Unicode.Index
import LambdaMOO.Unicode.Encode

/-!
# Search for a string

`strindex` and `strrindex` look for bytes and answer with the index of a character.
-/

namespace LambdaMOO

/-- The two loops of `utf_char_index` over the bytes in front of `s`, the nearest first. `inner`
tells that the inner loop is not over. Running out in it would read in front of the string. -/
def charIndexLoop : Bool → List UInt8 → Int → Option Int
  | inner, [], ci => if inner then none else some ci
  | _, c :: before, ci =>
    if isUtf8ContByte c then charIndexLoop true before ci else charIndexLoop false before (ci + 1)

/-- `utf_char_index`. The byte 0 behind the string may be in front of the index. For an index in
front of the string the loop does not run. -/
def utfCharIndex (s0 : List UInt8) (bi : Int) : Option Int :=
  if (s0.head?.map isUtf8ContByte).getD false then none
  else if bi ≤ s0.length + 2 then
    charIndexLoop false ((s0 ++ [0]).take (bi - 1).toNat).reverse 1
  else none

/-- `!(case_counts ? strncmp(s, what, lwhat) : mystrncasecmp(s, what, lwhat))`. -/
def startsWith (caseCounts : Bool) (s what : List UInt8) : Bool :=
  if caseCounts then strncmpEq s what what.length else mystrncasecmpEq s what what.length

/-- The loop of `strindex`, cut off after `n` turns. -/
def strindexLoop (what : List UInt8) (caseCounts : Bool) : Nat → List UInt8 → Int → Option Int
  | 0, _, _ => none
  | n + 1, s, ind =>
    if what.length ≤ s.length then
      if startsWith caseCounts s what then some (ind + 1)
      else strindexLoop what caseCounts n (s.drop (getUtf s).2) (ind + 1)
    else some 0

/-- `strindex`. Each turn moves on. -/
def strindex (source what : List UInt8) (caseCounts : Bool) : Option Int :=
  strindexLoop what caseCounts (source.length + 1) source 0

/-- The body of the loop of `strrindex` for `s = source + off`: the result, if it returns. -/
def strrindexAt (source what : List UInt8) (caseCounts : Bool) (off : Nat) : Option (Option Int) :=
  if (source[off]?.map isUtf8ContByte).getD false then none
  else if startsWith caseCounts (source.drop off) what then
    some (utfCharIndex source (off + 1))
  else none

/-- The loop of `strrindex`, down from `s = source + off`. -/
def strrindexLoop (source what : List UInt8) (caseCounts : Bool) : Nat → Option Int
  | 0 => (strrindexAt source what caseCounts 0).getD (some 0)
  | off + 1 =>
    (strrindexAt source what caseCounts (off + 1)).getD (strrindexLoop source what caseCounts off)

/-- `strrindex`. -/
def strrindex (source what : List UInt8) (caseCounts : Bool) : Option Int :=
  if what.length ≤ source.length then
    strrindexLoop source what caseCounts (source.length - what.length)
  else some 0

/-- The bytes of the `n` characters from the index `ci` on. -/
def substrUtf (s : List UInt8) (ci : Int) (n : Nat) : Option (List UInt8) := do
  let first ← utfByteIndex s ci
  let after ← utfByteIndex s (ci + n)
  return (s.drop (first - 1).toNat).take (after - first).toNat

/-! ## What the search is for -/

/-- A valid string, with its characters. None of them is the byte 0. -/
inductive IsUtf : List Nat → List UInt8 → Prop where
  | nil : IsUtf [] []
  | cons {v : Nat} {vs : List Nat} {p s : List UInt8} (hv : v ≠ 0) (hp : putUtf v = some p)
      (hs : IsUtf vs s) : IsUtf (v :: vs) (p ++ s)

/-- A byte as the comparison sees it. -/
def foldCase (caseCounts : Bool) (c : UInt8) : UInt8 := if caseCounts then c else cmap c

/-- The string matches at the offset `k` of the subject. -/
def MatchesAt (caseCounts : Bool) (s what : List UInt8) (k : Nat) : Prop :=
  k ≤ s.length ∧ what.map (foldCase caseCounts) <+: (s.drop k).map (foldCase caseCounts)

/-- The character with the index `i` starts at the offset `k`, or the string ends there. -/
def StartsAt (s : List UInt8) (i : Int) (k : Nat) : Prop :=
  ∃ vs ws p q, IsUtf vs p ∧ IsUtf ws q ∧ s = p ++ q ∧ i = vs.length + 1 ∧ k = p.length

/-- What `strindex` and `strrindex` answer is the index of the leftmost match and that of the
rightmost, and 0 if there is none. `n` is the number of characters that are looked for. -/
structure FindsMatches (s what : List UInt8) (n : Nat) (caseCounts : Bool) : Prop where
  first : (strindex s what caseCounts = some 0 ∧ ∀ k, ¬ MatchesAt caseCounts s what k) ∨
    ∃ i k, strindex s what caseCounts = some i ∧ StartsAt s i k ∧ MatchesAt caseCounts s what k ∧
      ∀ j < k, ¬ MatchesAt caseCounts s what j
  last : (strrindex s what caseCounts = some 0 ∧ ∀ k, ¬ MatchesAt caseCounts s what k) ∨
    ∃ i k, strrindex s what caseCounts = some i ∧ StartsAt s i k ∧
      MatchesAt caseCounts s what k ∧ ∀ j > k, ¬ MatchesAt caseCounts s what j
  inverse : ∀ i k, StartsAt s i k →
    utfByteIndex s i = some ((k : Int) + 1) ∧ utfCharIndex s (k + 1) = some i
  substr : ∀ i, i ≠ 0 → strindex s what caseCounts = some i ∨ strrindex s what caseCounts = some i →
    ∃ t, substrUtf s i n = some t ∧ t.map (foldCase caseCounts) = what.map (foldCase caseCounts)

/-! ## Bytes of a character -/

lemma isUtf8ContByte_cmap (c : UInt8) : isUtf8ContByte (cmap c) = isUtf8ContByte c :=
  cmap_congr isUtf8ContByte (by decide) c

lemma clearanceUtf_cmap (c : UInt8) : clearanceUtf (cmap c) = clearanceUtf c :=
  cmap_congr clearanceUtf (by decide) c

section

variable {x : Nat}

lemma cont_isCont (hx : x < 0x40) : isUtf8ContByte (0x80 ||| x).toUInt8 = true := by
  revert x
  decide

lemma one_not_isCont (hx : x < 0x80) : isUtf8ContByte x.toUInt8 = false := by
  revert x
  decide

lemma lead_two_not_isCont (hx : x < 0x20) : isUtf8ContByte (0xc0 ||| x).toUInt8 = false := by
  revert x
  decide

lemma lead_three_not_isCont (hx : x < 0x10) : isUtf8ContByte (0xe0 ||| x).toUInt8 = false := by
  revert x
  decide

lemma lead_four_not_isCont (hx : x < 0x08) : isUtf8ContByte (0xf0 ||| x).toUInt8 = false := by
  revert x
  decide

end

/-- All bytes of a character but the first are continuation bytes. -/
lemma putUtf_conts {v : Nat} {p : List UInt8} (h : putUtf v = some p) :
    ∃ c conts, p = c :: conts ∧ isUtf8ContByte c = false ∧ ∀ d ∈ conts, isUtf8ContByte d := by
  have hlast := cont_isCont (and_0x3f_lt v)
  rcases putUtf_cases h with ⟨hle, rfl⟩ | ⟨-, hle, rfl⟩ | ⟨-, hle, -, rfl⟩ | ⟨-, hle, rfl⟩
  · exact ⟨_, _, rfl, one_not_isCont (Nat.lt_succ_of_le hle), List.forall_mem_nil _⟩
  · exact ⟨_, _, rfl, lead_two_not_isCont (shiftRight_lt (by omega)),
      List.forall_mem_singleton.mpr hlast⟩
  · have hmid := cont_isCont (and_0x3f_lt (v >>> 6))
    exact ⟨_, _, rfl, lead_three_not_isCont (shiftRight_lt (by omega)),
      List.forall_mem_cons.mpr ⟨hmid, List.forall_mem_singleton.mpr hlast⟩⟩
  · have hmid := cont_isCont (and_0x3f_lt (v >>> 6))
    have hmid' := cont_isCont (and_0x3f_lt (v >>> 12))
    exact ⟨_, _, rfl, lead_four_not_isCont (shiftRight_lt (by omega)),
      List.forall_mem_cons.mpr ⟨hmid', List.forall_mem_cons.mpr
        ⟨hmid, List.forall_mem_singleton.mpr hlast⟩⟩⟩

/-! ## Boundaries -/

section

variable {vs ws : List Nat} {s p q what : List UInt8} {i : Int} {k : Nat}

lemma IsUtf.append (hp : IsUtf vs p) (hq : IsUtf ws q) : IsUtf (vs ++ ws) (p ++ q) := by
  induction hp with
  | nil => exact hq
  | cons hv hput _ ih =>
    rw [List.cons_append, List.append_assoc]
    exact .cons hv hput ih

lemma IsUtf.startsAt_zero (h : IsUtf vs s) : StartsAt s 1 0 :=
  ⟨[], vs, [], s, .nil, h, rfl, rfl, rfl⟩

/-- One character further on. -/
lemma StartsAt.cons {v : Nat} (hv : v ≠ 0) (hput : putUtf v = some p) (h : StartsAt s i k) :
    StartsAt (p ++ s) (i + 1) (p.length + k) := by
  obtain ⟨vs, ws, p', q, hp', hq, rfl, rfl, rfl⟩ := h
  refine ⟨v :: vs, ws, p ++ p', q, .cons hv hput hp', hq, (List.append_assoc p p' q).symm, ?_,
    List.length_append.symm⟩
  rw [List.length_cons]
  omega

lemma IsUtf.head?_not_isCont (h : IsUtf vs s) : (s.head?.map isUtf8ContByte).getD false = false := by
  cases h with
  | nil => rfl
  | cons hv hput hs =>
    obtain ⟨c, conts, rfl, hc, -⟩ := putUtf_conts hput
    exact hc

/-- Behind the first byte of a character come continuation bytes. -/
lemma isCont_of_lt {v : Nat} (hput : putUtf v = some p) (hpos : 0 < k) (hk : k < p.length) :
    ((p ++ q)[k]?.map isUtf8ContByte).getD false = true := by
  obtain ⟨c, conts, rfl, -, hconts⟩ := putUtf_conts hput
  obtain ⟨j, rfl⟩ := Nat.exists_eq_succ_of_ne_zero hpos.ne'
  have hj : j < conts.length := Nat.lt_of_succ_lt_succ hk
  have hget : (c :: conts ++ q)[j + 1]? = some conts[j] := by
    rw [List.cons_append, List.getElem?_cons_succ, List.getElem?_append_left hj,
      List.getElem?_eq_getElem hj]
  rw [hget]
  exact hconts _ (List.getElem_mem hj)

/-- A byte that is no continuation byte starts a character. -/
lemma IsUtf.startsAt_of_not_isCont (h : IsUtf vs s) (hk : k ≤ s.length)
    (hcont : (s[k]?.map isUtf8ContByte).getD false = false) : ∃ i, StartsAt s i k := by
  induction h generalizing k with
  | nil =>
    obtain rfl := Nat.le_zero.mp hk
    exact ⟨1, IsUtf.nil.startsAt_zero⟩
  | @cons v vs p s hv hput hs ih =>
    rcases Nat.eq_zero_or_pos k with rfl | hpos
    · exact ⟨1, (IsUtf.cons hv hput hs).startsAt_zero⟩
    by_cases hlt : k < p.length
    · rw [isCont_of_lt hput hpos hlt] at hcont
      cases hcont
    · obtain ⟨j, rfl⟩ := Nat.exists_eq_add_of_le (Nat.le_of_not_lt hlt)
      rw [List.getElem?_append_right (Nat.le_add_right _ j), Nat.add_sub_cancel_left] at hcont
      rw [List.length_append] at hk
      obtain ⟨i, hi⟩ := ih (Nat.le_of_add_le_add_left hk) hcont
      exact ⟨i + 1, hi.cons hv hput⟩

/-! ## Indices -/

lemma charIndexLoop_conts {c : UInt8} (hc : isUtf8ContByte c = false) (r : List UInt8)
    (conts : List UInt8) (hconts : ∀ d ∈ conts, isUtf8ContByte d) (inner : Bool) (ci : Int) :
    charIndexLoop inner (conts ++ c :: r) ci = charIndexLoop false r (ci + 1) := by
  induction conts generalizing inner with
  | nil => simp [charIndexLoop, hc]
  | cons d conts ih =>
    have hd := hconts d List.mem_cons_self
    rw [List.cons_append, charIndexLoop, if_pos hd]
    exact ih (fun e he => hconts e (List.mem_cons_of_mem d he)) true

lemma IsUtf.charIndexLoop_eq (h : IsUtf vs p) (r : List UInt8) (ci : Int) :
    charIndexLoop false (p.reverse ++ r) ci = charIndexLoop false r (ci + vs.length) := by
  induction h generalizing r ci with
  | nil => simp
  | @cons v vs p s hv hput hs ih =>
    obtain ⟨c, conts, rfl, hc, hconts⟩ := putUtf_conts hput
    rw [List.reverse_append, List.append_assoc, ih, List.reverse_cons, List.append_assoc,
      List.singleton_append, charIndexLoop_conts hc r _ (fun d hd => hconts d (by simpa using hd))]
    congr 1
    rw [List.length_cons]
    omega

lemma StartsAt.charIndex (h : StartsAt s i k) : utfCharIndex s (k + 1) = some i := by
  obtain ⟨vs, ws, p, q, hp, hq, rfl, rfl, rfl⟩ := h
  have hk : ((p.length : Int) + 1 - 1).toNat = p.length := by omega
  have hle : (p.length : Int) ≤ (p ++ q).length := by
    rw [List.length_append]
    omega
  have hloop := hp.charIndexLoop_eq [] 1
  rw [List.append_nil, charIndexLoop] at hloop
  rw [utfCharIndex, (hp.append hq).head?_not_isCont, if_neg Bool.false_ne_true,
    if_pos (by omega), hk, List.append_assoc, List.take_left, hloop]
  rw [if_neg Bool.false_ne_true, Int.add_comm]

lemma IsUtf.indexFrom_eq (h : IsUtf vs p) (q : List UInt8) (off : Int) :
    indexFrom vs.length (p ++ q) off = off + p.length + 1 := by
  induction h generalizing off with
  | nil => simp [indexFrom]
  | @cons v vs p s hv hput hs ih =>
    rw [List.append_assoc, List.length_cons, indexFrom, getUtf_putUtf hput, if_neg hv]
    dsimp only
    rw [List.drop_left, ih, List.length_append]
    omega

lemma StartsAt.byteIndex (h : StartsAt s i k) : utfByteIndex s i = some ((k : Int) + 1) := by
  obtain ⟨vs, ws, p, q, hp, hq, rfl, rfl, rfl⟩ := h
  have hi : ((vs.length : Int) + 1 - 1).toNat = vs.length := by omega
  rw [utfByteIndex_eq, LambdaMOO.byteIndex, if_neg (by omega), hi, hp.indexFrom_eq]
  congr 1
  omega

end

/-! ## Matches -/

lemma strncmpEq_iff (s what : List UInt8) : strncmpEq s what what.length ↔ what <+: s := by
  induction what generalizing s with
  | nil => simp [strncmpEq]
  | cons d what ih =>
    cases s with
    | nil => simp [strncmpEq]
    | cons c s =>
      rw [List.length_cons, strncmpEq, Bool.and_eq_true, beq_iff_eq, ih, List.cons_prefix_cons,
        eq_comm]

section

variable {caseCounts : Bool} {vs ws : List Nat} {s p q what : List UInt8} {i : Int} {k : Nat}

lemma startsWith_iff : startsWith caseCounts s what ↔
    what.map (foldCase caseCounts) <+: s.map (foldCase caseCounts) := by
  cases caseCounts with
  | false => exact mystrncasecmpEq_iff s what
  | true =>
    have hfold : foldCase true = id := rfl
    rw [hfold, List.map_id, List.map_id]
    exact strncmpEq_iff s what

lemma startsWith_nil : startsWith caseCounts s [] := startsWith_iff.mpr List.nil_prefix

lemma matchesAt_zero : MatchesAt caseCounts s what 0 ↔ startsWith caseCounts s what := by
  simp [MatchesAt, startsWith_iff]

lemma matchesAt_append : MatchesAt caseCounts (p ++ s) what (p.length + k) ↔
    MatchesAt caseCounts s what k := by
  rw [MatchesAt, MatchesAt, List.drop_length_add_append, List.length_append,
    Nat.add_le_add_iff_left]

lemma MatchesAt.le (h : MatchesAt caseCounts s what k) : k + what.length ≤ s.length := by
  have hlen := h.2.length_le
  rw [List.length_map, List.length_map, List.length_drop] at hlen
  have hle := h.1
  omega

lemma isUtf8ContByte_foldCase (c : UInt8) :
    isUtf8ContByte (foldCase caseCounts c) = isUtf8ContByte c := by
  cases caseCounts with
  | false => exact isUtf8ContByte_cmap c
  | true => rfl

lemma clearanceUtf_foldCase (c : UInt8) : clearanceUtf (foldCase caseCounts c) = clearanceUtf c := by
  cases caseCounts with
  | false => exact clearanceUtf_cmap c
  | true => rfl

/-- A match starts where a character starts. -/
lemma IsUtf.not_isCont_of_matchesAt (hw : IsUtf ws what) (hne : what ≠ [])
    (h : MatchesAt caseCounts s what k) : (s[k]?.map isUtf8ContByte).getD false = false := by
  cases hw with
  | nil => exact absurd rfl hne
  | cons hv hput hs =>
    obtain ⟨c, conts, rfl, hc, -⟩ := putUtf_conts hput
    obtain ⟨t, ht⟩ := h.2
    cases hdrop : s.drop k with
    | nil =>
      rw [hdrop] at ht
      simp at ht
    | cons d r =>
      have hget : s[k]? = some d := by
        rw [← List.head?_drop, hdrop, List.head?_cons]
      rw [hdrop, List.cons_append, List.map_cons, List.map_cons, List.cons_append] at ht
      have hfold := congrArg isUtf8ContByte (List.cons.inj ht).1
      rw [isUtf8ContByte_foldCase, isUtf8ContByte_foldCase, hc] at hfold
      rw [hget]
      exact hfold.symm

/-- What is found at the next character is found, one character and its bytes further on. -/
lemma matchesAt_cons {v : Nat} (hput : putUtf v = some p) (hw : IsUtf ws what)
    (hstart : ¬ startsWith caseCounts (p ++ s) what) :
    MatchesAt caseCounts (p ++ s) what k ↔
      ∃ j, k = p.length + j ∧ MatchesAt caseCounts s what j := by
  constructor
  · intro h
    have hne : what ≠ [] := by
      rintro rfl
      exact hstart startsWith_nil
    have hcont := hw.not_isCont_of_matchesAt hne h
    rcases Nat.eq_zero_or_pos k with rfl | hpos
    · exact absurd (matchesAt_zero.mp h) hstart
    by_cases hlt : k < p.length
    · rw [isCont_of_lt hput hpos hlt] at hcont
      cases hcont
    · obtain ⟨j, rfl⟩ := Nat.exists_eq_add_of_le (Nat.le_of_not_lt hlt)
      exact ⟨j, rfl, matchesAt_append.mp h⟩
  · rintro ⟨j, rfl, h⟩
    exact matchesAt_append.mpr h

variable (caseCounts) in
/-- The scan from the left. -/
lemma strindexLoop_spec (hw : IsUtf ws what) (hs : IsUtf vs s) {n : Nat} (hn : s.length < n)
    (ind : Int) :
    (strindexLoop what caseCounts n s ind = some 0 ∧ ∀ k, ¬ MatchesAt caseCounts s what k) ∨
    ∃ i k, strindexLoop what caseCounts n s ind = some (ind + i) ∧ StartsAt s i k ∧
      MatchesAt caseCounts s what k ∧ ∀ j < k, ¬ MatchesAt caseCounts s what j := by
  induction hs generalizing n ind with
  | nil =>
    obtain ⟨n, rfl⟩ := Nat.exists_eq_succ_of_ne_zero (Nat.ne_zero_of_lt hn)
    rw [strindexLoop]
    split_ifs with hlen hstart
    · exact Or.inr ⟨1, 0, rfl, IsUtf.nil.startsAt_zero, matchesAt_zero.mpr hstart,
        fun j hj => absurd hj (Nat.not_lt_zero j)⟩
    · obtain rfl := List.length_eq_zero_iff.mp (Nat.le_zero.mp hlen)
      exact absurd startsWith_nil hstart
    · refine Or.inl ⟨rfl, fun k h => hlen ?_⟩
      exact Nat.le_of_add_left_le h.le
  | @cons v vs p s hv hput hs ih =>
    obtain ⟨n, rfl⟩ := Nat.exists_eq_succ_of_ne_zero (Nat.ne_zero_of_lt hn)
    rw [strindexLoop]
    split_ifs with hlen hstart
    · exact Or.inr ⟨1, 0, rfl, (IsUtf.cons hv hput hs).startsAt_zero, matchesAt_zero.mpr hstart,
        fun j hj => absurd hj (Nat.not_lt_zero j)⟩
    · have hpos : 0 < p.length := by
        obtain ⟨c, conts, rfl, -, -⟩ := putUtf_conts hput
        exact Nat.succ_pos _
      rw [List.length_append] at hn
      rw [getUtf_putUtf hput]
      dsimp only
      rw [List.drop_left]
      rcases ih (n := n) (by omega) (ind + 1) with ⟨hloop, hnone⟩ | ⟨i, k, hloop, hi, hk, hleft⟩
      · refine Or.inl ⟨hloop, fun k h => ?_⟩
        obtain ⟨j, -, hj⟩ := (matchesAt_cons hput hw hstart).mp h
        exact hnone j hj
      · refine Or.inr ⟨i + 1, p.length + k, ?_, hi.cons hv hput, matchesAt_append.mpr hk, ?_⟩
        · rw [hloop, Int.add_assoc, Int.add_comm 1]
        · intro j hj h
          obtain ⟨j, rfl, hat⟩ := (matchesAt_cons hput hw hstart).mp h
          exact hleft j (by omega) hat
    · refine Or.inl ⟨rfl, fun k h => hlen ?_⟩
      exact Nat.le_of_add_left_le h.le

variable (caseCounts) in
/-- The body of the scan from the right. An empty string is found at the end, where it starts. -/
lemma strrindexAt_spec (hw : IsUtf ws what) (hs : IsUtf vs s) (hk : k ≤ s.length)
    (hne : what = [] → k = s.length) :
    (strrindexAt s what caseCounts k = none ∧ ¬ MatchesAt caseCounts s what k) ∨
    ∃ i, strrindexAt s what caseCounts k = some (some i) ∧ StartsAt s i k ∧
      MatchesAt caseCounts s what k := by
  unfold strrindexAt
  split_ifs with hcont hstart
  · refine Or.inl ⟨rfl, fun h => ?_⟩
    by_cases hnil : what = []
    · rw [hne hnil, List.getElem?_eq_none le_rfl] at hcont
      cases hcont
    · rw [hw.not_isCont_of_matchesAt hnil h] at hcont
      cases hcont
  · obtain ⟨i, hi⟩ := hs.startsAt_of_not_isCont hk (Bool.eq_false_of_not_eq_true hcont)
    exact Or.inr ⟨i, congrArg some hi.charIndex, hi, hk, startsWith_iff.mp hstart⟩
  · exact Or.inl ⟨rfl, fun h => hstart (startsWith_iff.mpr h.2)⟩

variable (caseCounts) in
/-- The scan from the right. -/
lemma strrindexLoop_spec (hw : IsUtf ws what) (hs : IsUtf vs s) (hk : k ≤ s.length)
    (hne : what = [] → k = s.length) :
    (strrindexLoop s what caseCounts k = some 0 ∧ ∀ j ≤ k, ¬ MatchesAt caseCounts s what j) ∨
    ∃ i j, strrindexLoop s what caseCounts k = some i ∧ StartsAt s i j ∧
      MatchesAt caseCounts s what j ∧ ∀ l ≤ k, j < l → ¬ MatchesAt caseCounts s what l := by
  induction k with
  | zero =>
    rw [strrindexLoop]
    rcases strrindexAt_spec caseCounts hw hs hk hne with
      ⟨hat, hno⟩ | ⟨i, hat, hi, hmatch⟩
    · rw [hat]
      exact Or.inl ⟨rfl, fun j hj => Nat.le_zero.mp hj ▸ hno⟩
    · rw [hat]
      exact Or.inr ⟨i, 0, rfl, hi, hmatch, fun l hl hlt => absurd hlt (Nat.not_lt_of_le hl)⟩
  | succ k ih =>
    rw [strrindexLoop]
    rcases strrindexAt_spec caseCounts hw hs hk hne with
      ⟨hat, hno⟩ | ⟨i, hat, hi, hmatch⟩
    · have hnil : what ≠ [] := by
        rintro rfl
        exact hno ⟨hk, List.nil_prefix⟩
      rw [hat, Option.getD_none]
      rcases ih (Nat.le_of_succ_le hk) (fun h => absurd h hnil) with
        ⟨hloop, hnone⟩ | ⟨i, j, hloop, hi, hmatch, hright⟩
      · refine Or.inl ⟨hloop, fun j hj => ?_⟩
        rcases Nat.le_succ_iff.mp hj with hj | rfl
        · exact hnone j hj
        · exact hno
      · refine Or.inr ⟨i, j, hloop, hi, hmatch, fun l hl hlt => ?_⟩
        rcases Nat.le_succ_iff.mp hl with hl | rfl
        · exact hright l hl hlt
        · exact hno
    · rw [hat]
      exact Or.inr ⟨i, k + 1, rfl, hi, hmatch, fun l hl hlt => absurd hlt (Nat.not_lt_of_le hl)⟩

/-! ## The substring -/

/-- Characters that match have equal lengths. -/
lemma length_eq_of_foldCase {v w : Nat} (hp : putUtf v = some p) (hq : putUtf w = some q)
    {t r : List UInt8}
    (h : (p ++ t).map (foldCase caseCounts) <+: (q ++ r).map (foldCase caseCounts)) :
    p.length = q.length := by
  obtain ⟨c, p', rfl, hc⟩ := putUtf_clearance hp
  obtain ⟨d, q', rfl, hd⟩ := putUtf_clearance hq
  rw [List.cons_append, List.cons_append, List.map_cons, List.map_cons, List.cons_prefix_cons] at h
  have hfold := congrArg clearanceUtf h.1
  rw [clearanceUtf_foldCase, clearanceUtf_foldCase] at hfold
  rw [hc, hd, hfold]

/-- What matches at the start of a string takes as many characters of it as it has. -/
lemma IsUtf.split_of_prefix (hw : IsUtf ws what) (hs : IsUtf vs s)
    (h : what.map (foldCase caseCounts) <+: s.map (foldCase caseCounts)) :
    ∃ us ts p q, IsUtf us p ∧ IsUtf ts q ∧ s = p ++ q ∧ us.length = ws.length ∧
      p.map (foldCase caseCounts) = what.map (foldCase caseCounts) := by
  induction hw generalizing vs s with
  | nil => exact ⟨[], vs, [], s, .nil, hs, rfl, rfl, rfl⟩
  | @cons w ws pw what hv hput hwhat ih =>
    cases hs with
    | nil =>
      obtain ⟨c, conts, rfl, -, -⟩ := putUtf_conts hput
      simp at h
    | @cons v vs pv s hv' hput' hs =>
      have hlen := length_eq_of_foldCase hput hput' h
      obtain ⟨r, hr⟩ := h
      rw [List.map_append, List.map_append, List.append_assoc] at hr
      obtain ⟨hfirst, hrest⟩ := List.append_inj hr (by rw [List.length_map, List.length_map, hlen])
      obtain ⟨us, ts, p, q, hp, hq, rfl, hus, hfold⟩ := ih hs ⟨r, hrest⟩
      refine ⟨v :: us, ts, pv ++ p, q, .cons hv' hput' hp, hq, (List.append_assoc pv p q).symm, ?_, ?_⟩
      · rw [List.length_cons, List.length_cons, hus]
      · rw [List.map_append, List.map_append, hfirst, hfold]

lemma StartsAt.substrUtf (hw : IsUtf ws what) (h : StartsAt s i k)
    (hmatch : MatchesAt caseCounts s what k) :
    ∃ t, substrUtf s i ws.length = some t ∧
      t.map (foldCase caseCounts) = what.map (foldCase caseCounts) := by
  have hfirst := h.byteIndex
  obtain ⟨vs, ts, p, q, hp, hq, rfl, rfl, rfl⟩ := h
  have hprefix := hmatch.2
  rw [List.drop_left] at hprefix
  obtain ⟨us, ts, q₁, q₂, hq₁, hq₂, rfl, hus, hfold⟩ := hw.split_of_prefix hq hprefix
  have hafter : StartsAt (p ++ (q₁ ++ q₂)) ((vs.length : Int) + 1 + ws.length)
      (p.length + q₁.length) := by
    refine ⟨vs ++ us, ts, p ++ q₁, q₂, hp.append hq₁, hq₂, (List.append_assoc p q₁ q₂).symm, ?_,
      List.length_append.symm⟩
    rw [List.length_append, hus]
    omega
  refine ⟨q₁, ?_, hfold⟩
  have hdrop : ((p.length : Int) + 1 - 1).toNat = p.length := by omega
  have htake : (((p.length + q₁.length : Nat) : Int) + 1 - (p.length + 1)).toNat = q₁.length := by
    omega
  rw [LambdaMOO.substrUtf, hfirst, hafter.byteIndex]
  simp only [Option.bind_eq_bind, Option.bind_some]
  rw [hdrop, htake, List.drop_left, List.take_left]
  rfl

end

/-- In valid strings `strindex` and `strrindex` find the leftmost and the rightmost match, the
indices of characters and bytes are inverse on the starts of characters, and the substring at
the index that is found matches. -/
theorem findsMatches_of_isUtf {vs ws : List Nat} {s what : List UInt8} (hs : IsUtf vs s)
    (hw : IsUtf ws what) (caseCounts : Bool) : FindsMatches s what ws.length caseCounts := by
  have hfirst := strindexLoop_spec caseCounts hw hs (Nat.lt_succ_self s.length) 0
  simp only [Int.zero_add] at hfirst
  have hlast : (strrindex s what caseCounts = some 0 ∧ ∀ k, ¬ MatchesAt caseCounts s what k) ∨
      ∃ i k, strrindex s what caseCounts = some i ∧ StartsAt s i k ∧
        MatchesAt caseCounts s what k ∧ ∀ j > k, ¬ MatchesAt caseCounts s what j := by
    unfold strrindex
    split_ifs with hlen
    · rcases strrindexLoop_spec caseCounts (k := s.length - what.length) hw hs
        (Nat.sub_le _ _) (fun h => by rw [h]; rfl) with
        ⟨hloop, hnone⟩ | ⟨i, k, hloop, hi, hmatch, hright⟩
      · exact Or.inl ⟨hloop, fun k h => hnone k (Nat.le_sub_of_add_le h.le) h⟩
      · exact Or.inr ⟨i, k, hloop, hi, hmatch, fun j hj h =>
          hright j (Nat.le_sub_of_add_le h.le) hj h⟩
    · exact Or.inl ⟨rfl, fun k h => hlen (Nat.le_of_add_left_le h.le)⟩
  refine ⟨hfirst, hlast, fun i k h => ⟨h.byteIndex, h.charIndex⟩, ?_⟩
  rintro i hi (hfound | hfound)
  · rcases hfirst with ⟨hzero, -⟩ | ⟨j, k, hj, hat, hmatch, -⟩
    · exact absurd (Option.some.inj (hfound.symm.trans hzero)) hi
    · obtain rfl := Option.some.inj (hfound.symm.trans hj)
      exact hat.substrUtf hw hmatch
  · rcases hlast with ⟨hzero, -⟩ | ⟨j, k, hj, hat, hmatch, -⟩
    · exact absurd (Option.some.inj (hfound.symm.trans hzero)) hi
    · obtain rfl := Option.some.inj (hfound.symm.trans hj)
      exact hat.substrUtf hw hmatch

/-- The string `É` is looked for in `éÉ`. -/
theorem findsMatches_of_isUtf_accents :
    FindsMatches [0xc3, 0xa9, 0xc3, 0x89] [0xc3, 0x89] 1 false :=
  findsMatches_of_isUtf
    (.cons (v := 0xe9) (p := [0xc3, 0xa9]) (by decide) (by decide)
      (.cons (v := 0xc9) (p := [0xc3, 0x89]) (by decide) (by decide) .nil))
    (.cons (v := 0xc9) (p := [0xc3, 0x89]) (by decide) (by decide) .nil) false

end LambdaMOO
