import LambdaMOO.Utf
import Mathlib.Data.Nat.Bitwise

/-!
# Writing and reading characters

`put_utf`, `get_utf`, `clearance_utf` and `char_size` each know the lengths of the forms of
a character. They agree except that `char_size` compares with 0x77f where the others have
0x7ff.
-/

namespace LambdaMOO

/-- `char_size`. -/
def charSize (c : Nat) : Nat :=
  1 + (decide (c > 0x7f)).toNat + (decide (c > 0x77f)).toNat + (decide (c > 0xffff)).toNat

/-- `put_utf` for one character after the other. -/
def putUtfs (vs : List Nat) : Option (List UInt8) := (vs.mapM putUtf).map List.flatten

/-- At most `n` calls of `get_utf`, up to the end of the string: the characters, and how far
each call moves. -/
def scanUtf : Nat → List UInt8 → List (Nat × Nat)
  | 0, _ => []
  | _ + 1, [] => []
  | n + 1, c :: p => getUtf (c :: p) :: scanUtf n ((c :: p).drop (getUtf (c :: p)).2)

/-- The calls of `get_utf` that read a whole string. Each call moves, so there are no more
than there are bytes. -/
def utfChars (s : List UInt8) : List (Nat × Nat) := scanUtf s.length s

/-- The bytes `s` that were written for `vs` are read as `vs`, up to their end, and each
character has the length that is predicted for it. -/
structure Transcribes (vs : List Nat) (s : List UInt8) : Prop where
  chars : (utfChars s).map Prod.fst = vs
  ends : ((utfChars s).map Prod.snd).sum = s.length
  clearance : ∀ v ∈ vs, ∃ c p, putUtf v = some (c :: p) ∧ (c :: p).length = clearanceUtf c
  size : ∀ v ∈ vs, ∃ p, putUtf v = some p ∧ p.length = charSize v

/-! ## The scan of a string -/

lemma drop_getUtf_length_lt (c : UInt8) (p : List UInt8) :
    ((c :: p).drop (getUtf (c :: p)).2).length < (c :: p).length := by
  have hmoves := getUtf_moves (c :: p)
  rw [List.length_drop, List.length_cons]
  omega

lemma scanUtf_eq {n m : Nat} {s : List UInt8} (hn : s.length ≤ n) (hm : s.length ≤ m) :
    scanUtf n s = scanUtf m s := by
  induction n generalizing m s with
  | zero =>
    obtain rfl := List.length_eq_zero_iff.mp (Nat.le_zero.mp hn)
    cases m <;> rfl
  | succ n ih =>
    cases s with
    | nil => cases m <;> rfl
    | cons c p =>
      have hlt := drop_getUtf_length_lt c p
      cases m with
      | zero => exact absurd hm (Nat.not_succ_le_zero _)
      | succ m => rw [scanUtf, scanUtf, ih (m := m) (by omega) (by omega)]

@[simp] lemma utfChars_nil : utfChars [] = [] := rfl

lemma utfChars_cons (c : UInt8) (p : List UInt8) :
    utfChars (c :: p) = getUtf (c :: p) :: utfChars ((c :: p).drop (getUtf (c :: p)).2) := by
  have hlt := drop_getUtf_length_lt c p
  rw [utfChars, List.length_cons, scanUtf]
  rw [scanUtf_eq (Nat.le_of_lt_succ hlt) le_rfl, utfChars]

/-! ## One character -/

section Bytes

variable {x : Nat}

lemma one_byte (hx : x < 0x80) : x.toUInt8 ≤ 0x7f ∧ x.toUInt8.toNat = x := by
  revert x
  decide

/-- The six bits of a continuation byte. -/
lemma cont_byte (hx : x < 0x40) :
    ¬ (0x80 ||| x).toUInt8 - 0x80 > 0x3f ∧ ((0x80 ||| x).toUInt8 - 0x80).toNat = x := by
  revert x
  decide

lemma lead_two (hx : x < 0x20) :
    clearanceUtf (0xc0 ||| x).toUInt8 = 2 ∧ ¬ (0xc0 ||| x).toUInt8 ≤ 0x7f ∧
      ¬ (0xc0 ||| x).toUInt8 ≤ 0xbf ∧ (0xc0 ||| x).toUInt8 ≤ 0xdf ∧
      ((0xc0 ||| x).toUInt8 &&& 0x1f).toNat = x := by
  revert x
  decide

lemma lead_three (hx : x < 0x10) :
    clearanceUtf (0xe0 ||| x).toUInt8 = 3 ∧ ¬ (0xe0 ||| x).toUInt8 ≤ 0x7f ∧
      ¬ (0xe0 ||| x).toUInt8 ≤ 0xbf ∧ ¬ (0xe0 ||| x).toUInt8 ≤ 0xdf ∧
      (0xe0 ||| x).toUInt8 ≤ 0xef ∧ ((0xe0 ||| x).toUInt8 &&& 0x0f).toNat = x := by
  revert x
  decide

lemma lead_four (hx : x < 0x08) :
    clearanceUtf (0xf0 ||| x).toUInt8 = 4 ∧ ¬ (0xf0 ||| x).toUInt8 ≤ 0x7f ∧
      ¬ (0xf0 ||| x).toUInt8 ≤ 0xbf ∧ ¬ (0xf0 ||| x).toUInt8 ≤ 0xdf ∧
      ¬ (0xf0 ||| x).toUInt8 ≤ 0xef ∧ (0xf0 ||| x).toUInt8 ≤ 0xf7 ∧
      ((0xf0 ||| x).toUInt8 &&& 0x07).toNat = x := by
  revert x
  decide

/-- Reading a continuation byte that was written appends its six bits. -/
lemma getConts_cont (hx : x < 0x40) (n v : Nat) (p : List UInt8) :
    getConts (n + 1) v ((0x80 ||| x).toUInt8 :: p)
      = ((getConts n (v * 64 + x) p).1, (getConts n (v * 64 + x) p).2 + 1) := by
  obtain ⟨hcont, hbits⟩ := cont_byte hx
  rw [getConts, if_neg hcont, hbits, Nat.shiftLeft_eq]

end Bytes

lemma and_0x3f_lt (v : Nat) : v &&& 0x3f < 0x40 := Nat.lt_succ_of_le Nat.and_le_right

/-- A continuation byte holds the bits that the shift before it has cut off. -/
lemma shiftRight_cont (v k : Nat) :
    v >>> (k + 6) * 64 + ((v >>> k) &&& 0x3f) = v >>> k := by
  have hmod : (v >>> k) &&& 0x3f = v >>> k % 64 := Nat.and_two_pow_sub_one_eq_mod _ 6
  rw [hmod, Nat.shiftRight_add, Nat.shiftRight_eq_div_pow (v >>> k) 6]
  exact Nat.div_add_mod' _ 64

lemma shiftRight_lt {v k b : Nat} (h : v < b * 2 ^ k) : v >>> k < b := by
  rw [Nat.shiftRight_eq_div_pow]
  exact Nat.div_lt_of_lt_mul (by rwa [Nat.mul_comm])

/-- The four forms of a character, with the bits that each byte carries. -/
lemma putUtf_cases {v : Nat} {s : List UInt8} (h : putUtf v = some s) :
    (v ≤ 0x7f ∧ s = [v.toUInt8]) ∨
    (0x7f < v ∧ v ≤ 0x7ff ∧ s = [(0xc0 ||| v >>> 6).toUInt8, (0x80 ||| v &&& 0x3f).toUInt8]) ∨
    (0x7ff < v ∧ v ≤ 0xffff ∧ ¬ (0xd800 ≤ v ∧ v ≤ 0xdfff) ∧
      s = [(0xe0 ||| v >>> 12).toUInt8, (0x80 ||| (v >>> 6) &&& 0x3f).toUInt8,
        (0x80 ||| v &&& 0x3f).toUInt8]) ∨
    (0xffff < v ∧ v ≤ 0x10ffff ∧
      s = [(0xf0 ||| v >>> 18).toUInt8, (0x80 ||| (v >>> 12) &&& 0x3f).toUInt8,
        (0x80 ||| (v >>> 6) &&& 0x3f).toUInt8, (0x80 ||| v &&& 0x3f).toUInt8]) := by
  unfold putUtf at h
  split_ifs at h with h₁ h₂ h₃ hsurrogate h₄
  · exact .inl ⟨h₁, (Option.some.inj h).symm⟩
  · exact .inr (.inl ⟨Nat.lt_of_not_le h₁, h₂, (Option.some.inj h).symm⟩)
  · exact .inr (.inr (.inl ⟨Nat.lt_of_not_le h₂, h₃, hsurrogate, (Option.some.inj h).symm⟩))
  · exact .inr (.inr (.inr ⟨Nat.lt_of_not_le h₃, h₄, (Option.some.inj h).symm⟩))

/-- What `put_utf` writes is read back, whatever stands behind it. -/
lemma getUtf_putUtf {v : Nat} {s : List UInt8} (h : putUtf v = some s) (q : List UInt8) :
    getUtf (s ++ q) = (v, s.length) := by
  rcases putUtf_cases h with ⟨hle, rfl⟩ | ⟨hlo, hle, rfl⟩ | ⟨hlo, hle, hsurrogate, rfl⟩ |
    ⟨hlo, hle, rfl⟩
  · obtain ⟨hone, hbyte⟩ := one_byte (Nat.lt_succ_of_le hle)
    rw [List.singleton_append, getUtf, if_pos hone, hbyte]
    rfl
  · obtain ⟨-, h₁, h₂, h₃, hlead⟩ := lead_two (x := v >>> 6) (shiftRight_lt (by omega))
    have hlast : v >>> 6 * 64 + (v &&& 0x3f) = v := shiftRight_cont v 0
    simp only [List.cons_append, List.nil_append, getUtf]
    rw [if_neg h₁, if_neg h₂, if_pos h₃, hlead, getConts_cont (and_0x3f_lt v), hlast, getConts]
    dsimp only
    rw [if_neg (Nat.not_le_of_lt hlo)]
    rfl
  · obtain ⟨-, h₁, h₂, h₃, h₄, hlead⟩ := lead_three (x := v >>> 12) (shiftRight_lt (by omega))
    have hlast : v >>> 6 * 64 + (v &&& 0x3f) = v := shiftRight_cont v 0
    simp only [List.cons_append, List.nil_append, getUtf]
    rw [if_neg h₁, if_neg h₂, if_neg h₃, if_pos h₄, hlead, getConts_cont (and_0x3f_lt _),
      shiftRight_cont v 6, getConts_cont (and_0x3f_lt v), hlast, getConts]
    dsimp only
    rw [if_neg (not_or.mpr ⟨Nat.not_le_of_lt hlo, hsurrogate⟩)]
    rfl
  · obtain ⟨-, h₁, h₂, h₃, h₄, h₅, hlead⟩ := lead_four (x := v >>> 18)
      (shiftRight_lt (by omega))
    have hlast : v >>> 6 * 64 + (v &&& 0x3f) = v := shiftRight_cont v 0
    simp only [List.cons_append, List.nil_append, getUtf]
    rw [if_neg h₁, if_neg h₂, if_neg h₃, if_neg h₄, if_pos h₅, hlead,
      getConts_cont (and_0x3f_lt _), shiftRight_cont v 12, getConts_cont (and_0x3f_lt _),
      shiftRight_cont v 6, getConts_cont (and_0x3f_lt v), hlast, getConts]
    dsimp only
    rw [if_neg (not_or.mpr ⟨Nat.not_le_of_lt hlo, Nat.not_lt_of_le hle⟩)]
    rfl

/-- The first byte tells the length. -/
lemma putUtf_clearance {v : Nat} {s : List UInt8} (h : putUtf v = some s) :
    ∃ c p, s = c :: p ∧ s.length = clearanceUtf c := by
  rcases putUtf_cases h with ⟨hle, rfl⟩ | ⟨-, hle, rfl⟩ | ⟨-, hle, -, rfl⟩ | ⟨-, hle, rfl⟩
  · refine ⟨_, _, rfl, ?_⟩
    rw [clearanceUtf, if_pos (one_byte (Nat.lt_succ_of_le hle)).1]
    rfl
  · exact ⟨_, _, rfl, (lead_two (shiftRight_lt (by omega))).1.symm⟩
  · exact ⟨_, _, rfl, (lead_three (shiftRight_lt (by omega))).1.symm⟩
  · exact ⟨_, _, rfl, (lead_four (shiftRight_lt (by omega))).1.symm⟩

/-- The misprint in `char_size` shows for the code points between its bound and the right
one. -/
lemma putUtf_size {v : Nat} {s : List UInt8} (h : putUtf v = some s) :
    s.length = charSize v ↔ ¬ (0x780 ≤ v ∧ v ≤ 0x7ff) := by
  have hsize : charSize v = if v ≤ 0x7f then 1 else if v ≤ 0x77f then 2
      else if v ≤ 0xffff then 3 else 4 := by
    unfold charSize
    split_ifs with h₁ h₂ h₃
    · rw [decide_eq_false (by omega), decide_eq_false (by omega), decide_eq_false (by omega)]
      rfl
    · rw [decide_eq_true (by omega), decide_eq_false (by omega), decide_eq_false (by omega)]
      rfl
    · rw [decide_eq_true (by omega), decide_eq_true (by omega), decide_eq_false (by omega)]
      rfl
    · rw [decide_eq_true (by omega), decide_eq_true (by omega), decide_eq_true (by omega)]
      rfl
  rw [hsize]
  rcases putUtf_cases h with ⟨hle, rfl⟩ | ⟨hlo, hle, rfl⟩ | ⟨hlo, hle, -, rfl⟩ | ⟨hlo, hle, rfl⟩
  · rw [if_pos hle, List.length_singleton]
    omega
  · simp only [List.length_cons, List.length_nil]
    split_ifs <;> omega
  · simp only [List.length_cons, List.length_nil]
    split_ifs <;> omega
  · simp only [List.length_cons, List.length_nil]
    split_ifs <;> omega

/-! ## A sequence of characters -/

lemma putUtfs_cons {v : Nat} {vs : List Nat} {s : List UInt8}
    (h : putUtfs (v :: vs) = some s) :
    ∃ p q, putUtf v = some p ∧ putUtfs vs = some q ∧ s = p ++ q := by
  obtain ⟨ps, hps, rfl⟩ := Option.map_eq_some_iff.mp h
  rw [List.mapM_cons] at hps
  obtain ⟨p, hp, hps⟩ := Option.bind_eq_some_iff.mp hps
  obtain ⟨ps', hps', heq⟩ := Option.bind_eq_some_iff.mp hps
  obtain rfl := Option.some.inj heq
  exact ⟨p, ps'.flatten, hp, by rw [putUtfs, hps']; rfl, List.flatten_cons⟩

/-- Each call of `get_utf` reads one of the characters that were written. -/
lemma utfChars_putUtfs {vs : List Nat} {s : List UInt8} (h : putUtfs vs = some s) :
    utfChars s = vs.map (fun v => (v, ((putUtf v).getD []).length)) ∧
      ((utfChars s).map Prod.snd).sum = s.length ∧ ∀ v ∈ vs, ∃ p, putUtf v = some p := by
  induction vs generalizing s with
  | nil =>
    obtain rfl : [] = s := Option.some.inj h
    exact ⟨rfl, rfl, fun v hv => absurd hv List.not_mem_nil⟩
  | cons v vs ih =>
    obtain ⟨p, q, hp, hq, rfl⟩ := putUtfs_cons h
    obtain ⟨hchars, hends, hput⟩ := ih hq
    obtain ⟨c, p', rfl, -⟩ := putUtf_clearance hp
    have hread : utfChars (c :: p' ++ q) = (v, (c :: p').length) :: utfChars q := by
      have hget := getUtf_putUtf hp q
      rw [List.cons_append] at hget ⊢
      rw [utfChars_cons, hget]
      dsimp only
      rw [← List.cons_append, List.drop_left]
    refine ⟨?_, ?_, ?_⟩
    · rw [hread, hchars, List.map_cons, hp]
      rfl
    · rw [hread, List.map_cons, List.sum_cons, hends, List.length_append]
    · rintro w (_ | ⟨_, hw⟩)
      · exact ⟨_, hp⟩
      · exact hput w hw

/-- Reading agrees with writing, and both with the predicted lengths, except for the length
that `char_size` predicts for the code points from 0x780 to 0x7ff. -/
theorem transcribes_iff {vs : List Nat} {s : List UInt8} (h : putUtfs vs = some s) :
    Transcribes vs s ↔ ∀ v ∈ vs, ¬ (0x780 ≤ v ∧ v ≤ 0x7ff) := by
  obtain ⟨hchars, hends, hput⟩ := utfChars_putUtfs h
  constructor
  · intro ht v hv
    obtain ⟨p, hp, hlength⟩ := ht.size v hv
    exact (putUtf_size hp).mp hlength
  · intro hvs
    refine ⟨?_, hends, ?_, ?_⟩
    · rw [hchars, List.map_map]
      exact List.map_id vs
    · intro v hv
      obtain ⟨p, hp⟩ := hput v hv
      obtain ⟨c, p', rfl, hlength⟩ := putUtf_clearance hp
      exact ⟨c, p', hp, hlength⟩
    · intro v hv
      obtain ⟨p, hp⟩ := hput v hv
      exact ⟨p, hp, (putUtf_size hp).mpr (hvs v hv)⟩

/-- The letters of two, three and four bytes. -/
theorem transcribes_iff_forms : putUtfs [0xe9, 0x20ac, 0x1f600]
      = some [0xc3, 0xa9, 0xe2, 0x82, 0xac, 0xf0, 0x9f, 0x98, 0x80] ∧
    Transcribes [0xe9, 0x20ac, 0x1f600] [0xc3, 0xa9, 0xe2, 0x82, 0xac, 0xf0, 0x9f, 0x98, 0x80] :=
  ⟨by decide, (transcribes_iff (by decide)).mpr (by decide)⟩

/-- For the code point 0x780 two bytes are written, and three are predicted. -/
theorem not_transcribes_0x780 : putUtfs [0x780] = some [0xde, 0x80] ∧
    ¬ Transcribes [0x780] [0xde, 0x80] := by
  refine ⟨by decide, fun ht => ?_⟩
  obtain ⟨p, hp, hlength⟩ := ht.size 0x780 List.mem_cons_self
  have hput : putUtf 0x780 = some [0xde, 0x80] := by decide
  rw [hput, Option.some.injEq] at hp
  subst hp
  exact absurd hlength (by decide)

end LambdaMOO
