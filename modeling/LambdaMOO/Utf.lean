import Mathlib.Data.List.Basic
import Mathlib.Data.UInt

/-!
# UTF-8

The routines of `utf.c`. A string is its list of bytes, without the byte 0 behind it.
-/

namespace LambdaMOO

/-- `INVALID_RUNE`. -/
def invalidRune : Nat := 0xfffd

/-- `is_utf8_cont_byte`. -/
def isUtf8ContByte (c : UInt8) : Bool := c &&& 0xc0 = 0x80

/-- `GET_CONT` `n` times, with the value of the bytes before in `v`: the value, and the
number of bytes taken. There is none when a byte is no continuation byte. -/
def getConts : Nat → Nat → List UInt8 → Option Nat × Nat
  | 0, v, _ => (some v, 0)
  | _ + 1, _, [] => (none, 0)
  | n + 1, v, c :: p =>
    if c - 0x80 > 0x3f then (none, 0)
    else
      let (r, k) := getConts n (v <<< 6 + (c - 0x80).toNat) p
      (r, k + 1)

/-- `get_utf`: the character and the number of bytes the pointer moves. At the end of the
string it is the byte 0. -/
def getUtf : List UInt8 → Nat × Nat
  | [] => (0, 1)
  | c :: p =>
    if c ≤ 0x7f then (c.toNat, 1)
    else if c ≤ 0xbf then (invalidRune, 1)
    else if c ≤ 0xdf then
      match getConts 1 (c &&& 0x1f).toNat p with
      | (some v, k) => (if v ≤ 0x7f then invalidRune else v, k + 1)
      | (none, k) => (invalidRune, k + 1)
    else if c ≤ 0xef then
      match getConts 2 (c &&& 0x0f).toNat p with
      | (some v, k) =>
        (if v ≤ 0x7ff ∨ (0xd800 ≤ v ∧ v ≤ 0xdfff) then invalidRune else v, k + 1)
      | (none, k) => (invalidRune, k + 1)
    else if c ≤ 0xf7 then
      match getConts 3 (c &&& 0x07).toNat p with
      | (some v, k) => (if v ≤ 0xffff ∨ 0x10ffff < v then invalidRune else v, k + 1)
      | (none, k) => (invalidRune, k + 1)
    else (invalidRune, 1)

/-- `put_utf`: the bytes of a character, if it is one. -/
def putUtf (v : Nat) : Option (List UInt8) :=
  if v ≤ 0x7f then some [v.toUInt8]
  else if v ≤ 0x7ff then some [(0xc0 ||| v >>> 6).toUInt8, (0x80 ||| v &&& 0x3f).toUInt8]
  else if v ≤ 0xffff then
    if 0xd800 ≤ v ∧ v ≤ 0xdfff then none
    else some [(0xe0 ||| v >>> 12).toUInt8, (0x80 ||| (v >>> 6) &&& 0x3f).toUInt8,
      (0x80 ||| v &&& 0x3f).toUInt8]
  else if v ≤ 0x10ffff then
    some [(0xf0 ||| v >>> 18).toUInt8, (0x80 ||| (v >>> 12) &&& 0x3f).toUInt8,
      (0x80 ||| (v >>> 6) &&& 0x3f).toUInt8, (0x80 ||| v &&& 0x3f).toUInt8]
  else none

/-- `clearance_utf`: the number of bytes of a character, given the first one. -/
def clearanceUtf (c : UInt8) : Nat :=
  if c ≤ 0x7f then 1
  else if c ≤ 0xbf then 1
  else if c ≤ 0xdf then 2
  else if c ≤ 0xef then 3
  else if c ≤ 0xf7 then 4
  else 1

/-! ### How much is read -/

lemma getConts_le (n v : Nat) (p : List UInt8) : (getConts n v p).2 ≤ n := by
  induction n generalizing v p with
  | zero => exact Nat.le_refl 0
  | succ n ih =>
    cases p with
    | nil => exact Nat.zero_le _
    | cons c p =>
      rw [getConts]
      split
      · exact Nat.zero_le _
      · exact Nat.succ_le_succ (ih _ p)

/-- Bytes behind the ones that are asked for do not matter. -/
lemma getConts_append {n : Nat} {p : List UInt8} (h : n ≤ p.length) (v : Nat) (q : List UInt8) :
    getConts n v (p ++ q) = getConts n v p := by
  induction n generalizing v p with
  | zero => rfl
  | succ n ih =>
    cases p with
    | nil => exact absurd h (Nat.not_succ_le_zero n)
    | cons c p =>
      rw [List.cons_append, getConts, getConts, ih (Nat.le_of_succ_le_succ h)]

lemma getUtf_moves (s : List UInt8) : 0 < (getUtf s).2 := by
  unfold getUtf
  split
  · exact Nat.one_pos
  · split_ifs
    · exact Nat.one_pos
    · exact Nat.one_pos
    · split <;> exact Nat.succ_pos _
    · split <;> exact Nat.succ_pos _
    · split <;> exact Nat.succ_pos _
    · exact Nat.one_pos

lemma getUtf_le (c : UInt8) (p : List UInt8) : (getUtf (c :: p)).2 ≤ clearanceUtf c := by
  simp only [getUtf, clearanceUtf]
  split_ifs
  · exact Nat.le_refl 1
  · exact Nat.le_refl 1
  · have hle := getConts_le 1 (c &&& 0x1f).toNat p
    split <;> rename_i heq <;> rw [heq] at hle <;> exact Nat.succ_le_succ hle
  · have hle := getConts_le 2 (c &&& 0x0f).toNat p
    split <;> rename_i heq <;> rw [heq] at hle <;> exact Nat.succ_le_succ hle
  · have hle := getConts_le 3 (c &&& 0x07).toNat p
    split <;> rename_i heq <;> rw [heq] at hle <;> exact Nat.succ_le_succ hle
  · exact Nat.le_refl 1

/-- Enough bytes decide what character it is. -/
lemma getUtf_append {c : UInt8} {p : List UInt8} (h : clearanceUtf c ≤ p.length + 1)
    (q : List UInt8) : getUtf (c :: p ++ q) = getUtf (c :: p) := by
  rw [List.cons_append]
  simp only [getUtf, clearanceUtf] at h ⊢
  split_ifs at h ⊢
  · rfl
  · rfl
  · rw [getConts_append (Nat.le_of_succ_le_succ h)]
  · rw [getConts_append (Nat.le_of_succ_le_succ h)]
  · rw [getConts_append (Nat.le_of_succ_le_succ h)]
  · rfl

end LambdaMOO
