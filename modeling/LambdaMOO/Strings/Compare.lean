import Mathlib.Data.List.Basic
import Mathlib.Data.UInt

/-!
# Comparison of strings

The comparisons of `utils.c` that ignore case. A string is its list of bytes, without the byte 0
behind it.
-/

namespace LambdaMOO

/-- `' '`. -/
def space : UInt8 := 32

/-- The bytes of a string of ASCII characters. -/
def asciiBytes (s : String) : List UInt8 := s.toList.map fun c => c.toNat.toUInt8

/-- `cmap`: the upper case letters of ASCII go to the lower case ones. -/
def cmap (c : UInt8) : UInt8 := if 65 ≤ c ∧ c ≤ 90 then c + 32 else c

/-- `!strncmp(s, t, n)`. -/
def strncmpEq : List UInt8 → List UInt8 → Nat → Bool
  | _, _, 0 => true
  | [], [], _ => true
  | c :: s, d :: t, n + 1 => c == d && strncmpEq s t n
  | _, _, _ => false

/-- `!mystrcasecmp(s, t)`. -/
def mystrcasecmpEq : List UInt8 → List UInt8 → Bool
  | [], [] => true
  | c :: s, d :: t => cmap c == cmap d && mystrcasecmpEq s t
  | _, _ => false

/-- `!mystrncasecmp(s, t, n)`. -/
def mystrncasecmpEq : List UInt8 → List UInt8 → Nat → Bool
  | _, _, 0 => true
  | [], [], _ => true
  | c :: s, d :: t, n + 1 => cmap c == cmap d && mystrncasecmpEq s t n
  | _, _, _ => false

/-- The word is equal but for case. -/
def SameWord (w p : List UInt8) : Prop := w.map cmap = p.map cmap

instance (w p : List UInt8) : Decidable (SameWord w p) := inferInstanceAs (Decidable (_ = _))

/-- The word is a prefix but for case. -/
def PrefixWord (w p : List UInt8) : Prop := w.map cmap <+: p.map cmap

lemma mystrcasecmpEq_iff {s t : List UInt8} : mystrcasecmpEq s t = true ↔ SameWord s t := by
  fun_induction mystrcasecmpEq s t with
  | case1 => simp [SameWord]
  | case2 c s d t ih => simp [SameWord, ih]
  | case3 s t hnil hcons =>
    match s, t with
    | [], [] => exact (hnil rfl rfl).elim
    | [], _ :: _ | _ :: _, [] => simp [SameWord]
    | c :: s, d :: t => exact (hcons c s d t rfl rfl).elim

lemma mystrncasecmpEq_iff (s what : List UInt8) :
    mystrncasecmpEq s what what.length ↔ what.map cmap <+: s.map cmap := by
  induction what generalizing s with
  | nil => simp [mystrncasecmpEq]
  | cons d what ih =>
    cases s with
    | nil => simp [mystrncasecmpEq]
    | cons c s =>
      rw [List.length_cons, mystrncasecmpEq, Bool.and_eq_true, beq_iff_eq, ih, List.map_cons,
        List.map_cons, List.cons_prefix_cons, eq_comm]

/-- What does not tell an upper case letter from its lower case letter does not see `cmap`. -/
lemma cmap_congr {α : Type} (f : UInt8 → α)
    (h : ∀ n < 26, f (97 + n : Nat).toUInt8 = f (65 + n : Nat).toUInt8) (c : UInt8) :
    f (cmap c) = f c := by
  unfold cmap
  split_ifs with hc
  · obtain ⟨n, hn⟩ : ∃ n, c.toNat = 65 + n :=
      Nat.exists_eq_add_of_le (UInt8.le_iff_toNat_le.mp hc.1)
    have hle : c.toNat ≤ 90 := UInt8.le_iff_toNat_le.mp hc.2
    obtain rfl : c = (65 + n : Nat).toUInt8 := by
      rw [← hn, Nat.toUInt8_eq, UInt8.ofNat_toNat]
    rw [← h n (by omega)]
    congr 1
    apply UInt8.toNat_inj.mp
    simp only [Nat.toUInt8_eq, UInt8.toNat_add, UInt8.toNat_ofNat', UInt8.toNat_ofNat]
    omega
  · rfl

/-- Letters go to letters. -/
lemma cmap_eq_iff {c d : UInt8} (hd : ¬ (65 ≤ d ∧ d ≤ 90)) (hl : ¬ (97 ≤ d ∧ d ≤ 122)) :
    cmap c = d ↔ c = d := by
  unfold cmap
  split_ifs with h
  · constructor
    · rintro rfl
      grind
    · rintro rfl
      exact absurd h hd
  · exact Iff.rfl

end LambdaMOO
