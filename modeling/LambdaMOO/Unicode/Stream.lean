import LambdaMOO.Unicode.Encode

/-!
# Reading characters from a stream

`get_utf_call` decodes what a client hands over byte by byte, `get_utf` a string. The first
computes with signed integers, so that a byte below 0x80, and the end of the stream, pass
its test for continuation bytes.
-/

namespace LambdaMOO

/-- `c_getch`: the next byte, or EOF. -/
def getch : List UInt8 → Int × List UInt8
  | [] => (-1, [])
  | c :: s => (c.toNat, s)

/-- `GET_CONT` of `get_utf_call`, `n` times: the value, or the byte that ends it early. -/
def getContsCall : Nat → Int → List UInt8 → Except Int Int × List UInt8
  | 0, v, s => (.ok v, s)
  | n + 1, v, s =>
    let (cc, s) := getch s
    let c := cc - 0x80
    if c > 0x3f then (.error cc, s) else getContsCall n (v * 64 + c) s

/-- The rest of `get_utf_call` after the first byte `c`: the character, the state and the
stream. -/
def getUtfRest (c : Int) (s : List UInt8) : Int × Int × List UInt8 :=
  if c ≤ 0x7f then (c, -1, s)
  else if c ≤ 0xbf then (invalidRune, -1, s)
  else if c ≤ 0xdf then
    match getContsCall 1 (c.toNat &&& 0x1f : Nat) s with
    | (.ok v, s) => (if v ≤ 0x7f then invalidRune else v, -1, s)
    | (.error cc, s) => (invalidRune, cc, s)
  else if c ≤ 0xef then
    match getContsCall 2 (c.toNat &&& 0x0f : Nat) s with
    | (.ok v, s) => (if v ≤ 0x7ff ∨ (0xd800 ≤ v ∧ v ≤ 0xdfff) then invalidRune else v, -1, s)
    | (.error cc, s) => (invalidRune, cc, s)
  else if c ≤ 0xf7 then
    match getContsCall 3 (c.toNat &&& 0x07 : Nat) s with
    | (.ok v, s) => (if v ≤ 0xffff ∨ 0x10ffff < v then invalidRune else v, -1, s)
    | (.error cc, s) => (invalidRune, cc, s)
  else (invalidRune, -1, s)

/-- `get_utf_call`. The state is the byte that was read too much, or -1. -/
def getUtfCall (state : Int) (s : List UInt8) : Int × Int × List UInt8 :=
  if state ≠ -1 then getUtfRest state s
  else
    let (c, s) := getch s
    if c = -1 then (-1, state, s) else getUtfRest c s

/-- How many bytes are still to be read, with the one in the state. -/
def unread (state : Int) (s : List UInt8) : Nat := if state = -1 then s.length else s.length + 1

/-- At most `n` calls of `get_utf_call`, up to EOF: the characters, and how many bytes each
call consumes. -/
def readUtf : Nat → Int → List UInt8 → List (Int × Nat)
  | 0, _, _ => []
  | n + 1, state, s =>
    let (v, state', s') := getUtfCall state s
    if v = -1 then []
    else (v, unread state s - unread state' s') :: readUtf n state' s'

/-- The calls that read a whole stream. -/
def streamChars (s : List UInt8) : List (Int × Nat) := readUtf s.length (-1) s

/-! ## Where continuation bytes end -/

/-- What stops a run of continuation bytes. -/
inductive ContEnd where
  /-- All of them are there. -/
  | full
  /-- The first byte of a character stands in the place of one. -/
  | lead
  /-- A character of one byte stands in the place of one. -/
  | ascii
  /-- The bytes end when `m` of them are missing and the value is `v`. -/
  | cut (m v : Nat)

/-- How `n` continuation bytes that continue the value `v` end. -/
def contEnd : Nat → Nat → List UInt8 → ContEnd
  | 0, _, _ => .full
  | n + 1, v, [] => .cut (n + 1) v
  | n + 1, v, c :: p =>
    if c ≤ 0x7f then .ascii
    else if c ≤ 0xbf then contEnd n (v * 64 + (c - 0x80).toNat) p
    else .lead

/-- The number of continuation bytes that a first byte asks for, and the bits it carries. -/
def leadBits (c : UInt8) : Nat × Nat :=
  if c ≤ 0xbf then (0, 0)
  else if c ≤ 0xdf then (1, (c &&& 0x1f).toNat)
  else if c ≤ 0xef then (2, (c &&& 0x0f).toNat)
  else if c ≤ 0xf7 then (3, (c &&& 0x07).toNat)
  else (0, 0)

/-- A character that needs `n` continuation bytes may end with the bytes when `m` are missing:
what EOF makes of the value `v` is no character either. -/
def CutIsHarmless : Nat → Nat → Nat → Prop
  | 1, _, v => v ≤ 4
  | 2, 1, v => v ≤ 34 ∨ (867 ≤ v ∧ v ≤ 898)
  | 2, _, v => v ≤ 2
  | 3, 1, v => v ≤ 1026 ∨ 17411 ≤ v
  | 3, 2, v => v ≤ 18 ∨ 275 ≤ v
  | 3, _, v => v ≤ 2 ∨ 7 ≤ v
  | _, _, _ => True

/-- The decoders agree when the continuation bytes end so; `cut` tells it for the end of all
bytes. -/
def ContEnd.IsHarmless (cut : Nat → Nat → Prop) : ContEnd → Prop
  | full => True
  | lead => True
  | ascii => False
  | .cut m v => cut m v

/-- The character that the bytes start with is read alike from a stream. -/
def StreamsAlike : List UInt8 → Prop
  | [] => True
  | c :: p => (contEnd (leadBits c).1 (leadBits c).2 p).IsHarmless (CutIsHarmless (leadBits c).1)

/-- The rests of a string that start with a character, as `get_utf` finds them. -/
inductive CharStart : List UInt8 → List UInt8 → Prop where
  | here (s : List UInt8) : CharStart s s
  | later {c : UInt8} {p t : List UInt8} (h : CharStart ((c :: p).drop (getUtf (c :: p)).2) t) :
      CharStart (c :: p) t

/-! ## Continuation bytes -/

/-- What `m` times EOF make of a value. -/
def eofConts : Nat → Int → Int
  | 0, v => v
  | m + 1, v => eofConts m (v * 64 - 129)

lemma getContsCall_eof (m : Nat) (v : Int) :
    getContsCall (m + 1) v [] = getContsCall m (v * 64 - 129) [] := rfl

lemma getContsCall_cons (n : Nat) (v : Int) (c : UInt8) (p : List UInt8) :
    getContsCall (n + 1) v (c :: p) =
      if (c.toNat : Int) - 0x80 > 0x3f then (.error c.toNat, p)
      else getContsCall n (v * 64 + (c.toNat - 0x80)) p := rfl

lemma getContsCall_nil (m : Nat) (v : Int) :
    getContsCall m v [] = (.ok (eofConts m v), []) := by
  induction m generalizing v with
  | zero => rfl
  | succ m ih => rw [getContsCall_eof, ih, eofConts]

/-- How many bytes `GET_CONT` leaves, with the one that ended it. -/
def contsLeft : Except Int Int × List UInt8 → Nat
  | (.ok _, s) => s.length
  | (.error _, s) => s.length + 1

lemma contsLeft_le (n : Nat) (v : Int) (p : List UInt8) :
    contsLeft (getContsCall n v p) ≤ p.length := by
  induction n generalizing v p with
  | zero => exact le_rfl
  | succ n ih =>
    cases p with
    | nil =>
      rw [getContsCall_nil]
      exact le_rfl
    | cons c p =>
      rw [getContsCall_cons]
      split_ifs
      · exact Nat.le_refl (p.length + 1)
      · exact Nat.le_succ_of_le (ih _ p)

lemma getConts_le_length (n v : Nat) (p : List UInt8) : (getConts n v p).2 ≤ p.length := by
  induction n generalizing v p with
  | zero => exact Nat.zero_le _
  | succ n ih =>
    cases p with
    | nil => exact le_rfl
    | cons c p =>
      rw [getConts]
      split
      · exact Nat.zero_le _
      · exact Nat.succ_le_succ (ih _ p)

lemma toNat_sub_0x80 (c : UInt8) : (c - 0x80).toNat = (0x80 + c.toNat) % 0x100 :=
  UInt8.toNat_sub c 0x80

/-- The bytes between 0x80 and 0xbf pass both tests with the same six bits. -/
lemma cont_of_le {c : UInt8} (hlo : ¬ c ≤ 0x7f) (hhi : c ≤ 0xbf) :
    ¬ c - 0x80 > 0x3f ∧ ((c - 0x80).toNat : Int) = c.toNat - 0x80 ∧
      ¬ (c.toNat : Int) - 0x80 > 0x3f := by
  have hlo' : ¬ c.toNat ≤ 0x7f := hlo
  have hhi' : c.toNat ≤ 0xbf := hhi
  have hsub := toNat_sub_0x80 c
  refine ⟨fun hgt => ?_, by omega, by omega⟩
  have hgt' : 0x3f < (c - 0x80).toNat := hgt
  omega

lemma lead_of_lt {c : UInt8} (hhi : ¬ c ≤ 0xbf) :
    c - 0x80 > 0x3f ∧ (c.toNat : Int) - 0x80 > 0x3f := by
  have hhi' : ¬ c.toNat ≤ 0xbf := hhi
  have hsub := toNat_sub_0x80 c
  have hlt := c.toNat_lt
  refine ⟨?_, by omega⟩
  change 0x3f < (c - 0x80).toNat
  omega

lemma ascii_of_le {c : UInt8} (hlo : c ≤ 0x7f) :
    c - 0x80 > 0x3f ∧ ¬ (c.toNat : Int) - 0x80 > 0x3f := by
  have hlo' : c.toNat ≤ 0x7f := hlo
  have hsub := toNat_sub_0x80 c
  refine ⟨?_, by omega⟩
  change 0x3f < (c - 0x80).toNat
  omega

/-- Both decoders take the same bytes as continuation bytes, except for those below 0x80. -/
lemma getConts_spec (n v : Nat) (p : List UInt8) :
    match contEnd n v p with
    | .full => ∃ u : Nat, getConts n v p = (some u, n) ∧ n ≤ p.length ∧
        getContsCall n v p = (.ok u, p.drop n)
    | .lead => ∃ k c q, getConts n v p = (none, k) ∧ p.drop k = c :: q ∧
        getContsCall n v p = (.error (c : UInt8).toNat, q)
    | .ascii => ∃ k, getConts n v p = (none, k) ∧
        contsLeft (getContsCall n v p) < p.length - k
    | .cut m u => getConts n v p = (none, p.length) ∧
        getContsCall n v p = (.ok (eofConts m u), []) := by
  induction n generalizing v p with
  | zero => exact ⟨v, rfl, Nat.zero_le _, rfl⟩
  | succ n ih =>
    cases p with
    | nil => exact ⟨rfl, getContsCall_nil _ _⟩
    | cons c p =>
      rw [contEnd]
      split_ifs with hascii hcont
      · obtain ⟨hbad, hpass⟩ := ascii_of_le hascii
        refine ⟨0, ?_, ?_⟩
        · rw [getConts, if_pos hbad]
        · rw [getContsCall_cons, if_neg hpass]
          exact Nat.lt_succ_of_le (contsLeft_le n _ p)
      · obtain ⟨hbits, hvalue, hpass⟩ := cont_of_le hascii hcont
        have hget : getConts (n + 1) v (c :: p) =
            ((getConts n (v * 64 + (c - 0x80).toNat) p).1,
              (getConts n (v * 64 + (c - 0x80).toNat) p).2 + 1) := by
          rw [getConts, if_neg hbits, Nat.shiftLeft_eq]
        have hcall : getContsCall (n + 1) v (c :: p) =
            getContsCall n ((v * 64 + (c - 0x80).toNat : Nat) : Int) p := by
          rw [getContsCall_cons, if_neg hpass, ← hvalue]
          rfl
        rw [hget, hcall]
        have hrest := ih (v * 64 + (c - 0x80).toNat) p
        cases hend : contEnd n (v * 64 + (c - 0x80).toNat) p with
        | full =>
          rw [hend] at hrest
          obtain ⟨u, hu, hle, hu'⟩ := hrest
          exact ⟨u, by rw [hu], Nat.succ_le_succ hle, hu'⟩
        | lead =>
          rw [hend] at hrest
          obtain ⟨k, d, q, hk, hdrop, hq⟩ := hrest
          exact ⟨k + 1, d, q, by rw [hk], hdrop, hq⟩
        | ascii =>
          rw [hend] at hrest
          obtain ⟨k, hk, hlt⟩ := hrest
          exact ⟨k + 1, by rw [hk], by rwa [List.length_cons, Nat.add_sub_add_right]⟩
        | cut m u =>
          rw [hend] at hrest
          exact ⟨by rw [hrest.1, List.length_cons], hrest.2⟩
      · obtain ⟨hbad, hstop⟩ := lead_of_lt hcont
        refine ⟨0, c, p, ?_, rfl, ?_⟩
        · rw [getConts, if_pos hbad]
        · rw [getContsCall_cons, if_pos hstop]

lemma contEnd_cut {n v m u : Nat} {p : List UInt8} (h : contEnd n v p = .cut m u) :
    1 ≤ m ∧ m ≤ n ∧ (m = n → u = v) := by
  induction n generalizing v p with
  | zero => cases h
  | succ n ih =>
    cases p with
    | nil =>
      cases h
      exact ⟨Nat.le_add_left 1 n, le_rfl, fun _ => rfl⟩
    | cons c p =>
      rw [contEnd] at h
      split_ifs at h
      obtain ⟨hpos, hle, -⟩ := ih h
      exact ⟨hpos, Nat.le_succ_of_le hle, fun heq => absurd hle (by omega)⟩

/-- A value with EOF in it is none that the decoder makes up for malformed bytes. -/
lemma eofConts_ne {m : Nat} (hm : 1 ≤ m) (v : Int) : eofConts m v ≠ invalidRune := by
  have hmod : eofConts m v % 64 = 63 := by
    induction m, hm using Nat.le_induction generalizing v with
    | base =>
      simp only [eofConts]
      omega
    | succ m _ ih => exact ih _
  intro heq
  rw [heq] at hmod
  exact absurd hmod (by decide)

/-! ## One character -/

/-- The state and the stream hold the bytes `t`. -/
def Pending (state : Int) (s t : List UInt8) : Prop :=
  (state = -1 ∧ t = s) ∨ ∃ c : UInt8, state = c.toNat ∧ t = c :: s

lemma Pending.unread_eq {state : Int} {s t : List UInt8} (h : Pending state s t) :
    unread state s = t.length := by
  rcases h with ⟨rfl, rfl⟩ | ⟨c, rfl, rfl⟩
  · exact if_pos rfl
  · exact if_neg (by omega)

/-- The results of both decoders on the bytes `t`: the same character, and the same rest. -/
def SameChar (t : List UInt8) (g : Nat × Nat) (r : Int × Int × List UInt8) : Prop :=
  r.1 = g.1 ∧ Pending r.2.1 r.2.2 (t.drop g.2)

/-- The results differ in the character or in the number of bytes. -/
def OtherChar (t : List UInt8) (g : Nat × Nat) (r : Int × Int × List UInt8) : Prop :=
  r.1 ≠ g.1 ∨ unread r.2.1 r.2.2 < t.length - g.2

section Lead

variable (bad : Int → Prop) [DecidablePred bad]

/-- `get_utf` after the first byte of a character with `n` continuation bytes; `bad` values
are rejected. -/
def leadUtf (n v : Nat) (p : List UInt8) : Nat × Nat :=
  match getConts n v p with
  | (some u, k) => (if bad u then invalidRune else u, k + 1)
  | (none, k) => (invalidRune, k + 1)

/-- The same of `get_utf_call`. -/
def leadCall (n v : Nat) (s : List UInt8) : Int × Int × List UInt8 :=
  match getContsCall n v s with
  | (.ok u, s) => (if bad u then invalidRune else u, -1, s)
  | (.error cc, s) => (invalidRune, cc, s)

variable {bad}

/-- The decoders differ at a byte below 0x80, and at an end that makes up a character. -/
lemma lead_spec (hneg : bad (-1)) (c : UInt8) {n v : Nat} {p : List UInt8}
    {alike : Nat → Nat → Prop}
    (hcut : ∀ m u, contEnd n v p = .cut m u → (bad (eofConts m u) ↔ alike m u)) :
    (leadCall bad n v p).1 ≠ -1 ∧
      ((contEnd n v p).IsHarmless alike →
        SameChar (c :: p) (leadUtf bad n v p) (leadCall bad n v p)) ∧
      (¬ (contEnd n v p).IsHarmless alike →
        OtherChar (c :: p) (leadUtf bad n v p) (leadCall bad n v p)) := by
  have hconts := getConts_spec n v p
  have hinvalid : (invalidRune : Int) ≠ -1 := by decide
  have hchar : ∀ u : Int, (if bad u then (invalidRune : Int) else u) ≠ -1 := by
    intro u
    split_ifs with hbad
    · exact hinvalid
    · rintro rfl
      exact hbad hneg
  cases hend : contEnd n v p with
  | full =>
    rw [hend] at hconts
    obtain ⟨u, hget, hle, hcall⟩ := hconts
    unfold leadUtf leadCall
    rw [hget, hcall]
    refine ⟨hchar u, fun _ => ⟨?_, .inl ⟨rfl, rfl⟩⟩, fun h => absurd trivial h⟩
    exact (apply_ite Nat.cast (bad u) invalidRune u).symm
  | lead =>
    rw [hend] at hconts
    obtain ⟨k, d, q, hget, hdrop, hcall⟩ := hconts
    unfold leadUtf leadCall
    rw [hget, hcall]
    exact ⟨hinvalid, fun _ => ⟨rfl, .inr ⟨d, rfl, hdrop⟩⟩, fun h => absurd trivial h⟩
  | ascii =>
    rw [hend] at hconts
    obtain ⟨k, hget, hlt⟩ := hconts
    unfold leadUtf leadCall
    rw [hget]
    have hless : ∀ l : Nat, l < p.length - k → l < (c :: p).length - (k + 1) := by
      intro l hl
      rwa [List.length_cons, Nat.add_sub_add_right]
    rcases hcall : getContsCall n v p with ⟨cc | w, q⟩
    · rw [hcall] at hlt
      refine ⟨hinvalid, False.elim, fun _ => .inr (hless _ (lt_of_le_of_lt ?_ hlt))⟩
      dsimp only [unread]
      split_ifs
      · exact Nat.le_succ _
      · exact le_rfl
    · rw [hcall] at hlt
      exact ⟨hchar w, False.elim, fun _ => .inr (hless _ hlt)⟩
  | cut m u =>
    rw [hend] at hconts
    obtain ⟨hget, hcall⟩ := hconts
    unfold leadUtf leadCall
    rw [hget, hcall]
    refine ⟨hchar _, fun halike => ⟨if_pos ((hcut m u hend).mpr halike), .inl ⟨rfl, ?_⟩⟩, ?_⟩
    · exact List.drop_length
    · intro halike
      refine .inl (ne_of_eq_of_ne (if_neg fun hbad => halike ((hcut m u hend).mp hbad)) ?_)
      exact eofConts_ne (contEnd_cut hend).1 u

end Lead

/-- The forms of a character, with what each decoder does after the first byte. -/
lemma getUtf_forms (c : UInt8) (p : List UInt8) :
    (leadBits c = (0, 0) ∧ ∃ v : Nat, getUtf (c :: p) = (v, 1) ∧
      getUtfRest c.toNat p = ((v : Int), -1, p)) ∨
    (∃ v, leadBits c = (1, v) ∧ getUtf (c :: p) = leadUtf (· ≤ 0x7f) 1 v p ∧
      getUtfRest c.toNat p = leadCall (· ≤ 0x7f) 1 v p) ∨
    (∃ v < 0x10, leadBits c = (2, v) ∧
      getUtf (c :: p) = leadUtf (fun u => u ≤ 0x7ff ∨ (0xd800 ≤ u ∧ u ≤ 0xdfff)) 2 v p ∧
      getUtfRest c.toNat p = leadCall (fun u => u ≤ 0x7ff ∨ (0xd800 ≤ u ∧ u ≤ 0xdfff)) 2 v p) ∨
    (∃ v, leadBits c = (3, v) ∧
      getUtf (c :: p) = leadUtf (fun u => u ≤ 0xffff ∨ 0x10ffff < u) 3 v p ∧
      getUtfRest c.toNat p = leadCall (fun u => u ≤ 0xffff ∨ 0x10ffff < u) 3 v p) := by
  have hle : ∀ (b : UInt8) (k : Int), (b.toNat : Int) = k → c ≤ b → (c.toNat : Int) ≤ k := by
    rintro b k rfl h
    exact Int.ofNat_le.mpr h
  have hgt : ∀ (b : UInt8) (k : Int), (b.toNat : Int) = k → ¬ c ≤ b → ¬ (c.toNat : Int) ≤ k := by
    rintro b k rfl h h'
    exact h (Int.ofNat_le.mp h')
  simp only [getUtf]
  unfold getUtfRest leadBits
  by_cases h₁ : c ≤ 0x7f
  · have h₂ : c ≤ 0xbf := UInt8.le_trans h₁ (by decide)
    rw [if_pos h₁, if_pos (hle 0x7f 0x7f rfl h₁), if_pos h₂]
    exact .inl ⟨rfl, c.toNat, rfl, rfl⟩
  rw [if_neg h₁, if_neg (hgt 0x7f 0x7f rfl h₁)]
  by_cases h₂ : c ≤ 0xbf
  · rw [if_pos h₂, if_pos (hle 0xbf 0xbf rfl h₂), if_pos h₂]
    exact .inl ⟨rfl, invalidRune, rfl, rfl⟩
  rw [if_neg h₂, if_neg (hgt 0xbf 0xbf rfl h₂), if_neg h₂]
  by_cases h₃ : c ≤ 0xdf
  · rw [if_pos h₃, if_pos (hle 0xdf 0xdf rfl h₃), if_pos h₃]
    refine .inr (.inl ⟨_, rfl, ?_, rfl⟩)
    unfold leadUtf
    rcases getConts 1 (c &&& 0x1f).toNat p with ⟨_ | u, k⟩
    · rfl
    · simp only [Prod.mk.injEq, and_true]
      exact if_congr (by norm_cast) rfl rfl
  rw [if_neg h₃, if_neg (hgt 0xdf 0xdf rfl h₃), if_neg h₃]
  by_cases h₄ : c ≤ 0xef
  · rw [if_pos h₄, if_pos (hle 0xef 0xef rfl h₄), if_pos h₄]
    refine .inr (.inr (.inl ⟨_, ?_, rfl, ?_, rfl⟩))
    · exact Nat.lt_succ_of_le Nat.and_le_right
    · unfold leadUtf
      rcases getConts 2 (c &&& 0x0f).toNat p with ⟨_ | u, k⟩
      · rfl
      · simp only [Prod.mk.injEq, and_true]
        exact if_congr (by norm_cast) rfl rfl
  rw [if_neg h₄, if_neg (hgt 0xef 0xef rfl h₄), if_neg h₄]
  by_cases h₅ : c ≤ 0xf7
  · rw [if_pos h₅, if_pos (hle 0xf7 0xf7 rfl h₅), if_pos h₅]
    refine .inr (.inr (.inr ⟨_, rfl, ?_, rfl⟩))
    unfold leadUtf
    rcases getConts 3 (c &&& 0x07).toNat p with ⟨_ | u, k⟩
    · rfl
    · simp only [Prod.mk.injEq, and_true]
      exact if_congr (by norm_cast) rfl rfl
  rw [if_neg h₅, if_neg (hgt 0xf7 0xf7 rfl h₅), if_neg h₅]
  exact .inl ⟨rfl, invalidRune, rfl, rfl⟩

lemma getUtfRest_spec (c : UInt8) (p : List UInt8) :
    (getUtfRest c.toNat p).1 ≠ -1 ∧
      (StreamsAlike (c :: p) →
        SameChar (c :: p) (getUtf (c :: p)) (getUtfRest c.toNat p)) ∧
      (¬ StreamsAlike (c :: p) →
        OtherChar (c :: p) (getUtf (c :: p)) (getUtfRest c.toNat p)) := by
  simp only [StreamsAlike]
  rcases getUtf_forms c p with ⟨hlead, v, hget, hcall⟩ | ⟨v, hlead, hget, hcall⟩ |
    ⟨v, hv, hlead, hget, hcall⟩ | ⟨v, hlead, hget, hcall⟩
  · rw [hlead, hget, hcall]
    refine ⟨by simp, fun _ => ⟨rfl, .inl ⟨rfl, rfl⟩⟩, fun h => absurd trivial h⟩
  · rw [hlead, hget, hcall]
    refine lead_spec (by decide) c ?_
    intro m u hend
    obtain ⟨hpos, hle, -⟩ := contEnd_cut hend
    obtain rfl : m = 1 := le_antisymm hle hpos
    simp only [eofConts, CutIsHarmless]
    omega
  · rw [hlead, hget, hcall]
    refine lead_spec (by decide) c ?_
    intro m u hend
    obtain ⟨hpos, hle, hall⟩ := contEnd_cut hend
    obtain rfl | rfl : m = 1 ∨ m = 2 := by omega
    · simp only [eofConts, CutIsHarmless]
      omega
    · obtain rfl := hall rfl
      simp only [eofConts, CutIsHarmless]
      omega
  · rw [hlead, hget, hcall]
    refine lead_spec (by decide) c ?_
    intro m u hend
    obtain ⟨hpos, hle, -⟩ := contEnd_cut hend
    obtain rfl | rfl | rfl : m = 1 ∨ m = 2 ∨ m = 3 := by omega
    all_goals
      simp only [eofConts, CutIsHarmless]
      omega

lemma leadUtf_le (bad : Int → Prop) [DecidablePred bad] (n v : Nat) (p : List UInt8) :
    (leadUtf bad n v p).2 ≤ p.length + 1 := by
  have hle := getConts_le_length n v p
  unfold leadUtf
  rcases hconts : getConts n v p with ⟨_ | u, k⟩
  · rw [hconts] at hle
    exact Nat.succ_le_succ hle
  · rw [hconts] at hle
    exact Nat.succ_le_succ hle

/-- `get_utf` does not move past the end. -/
lemma getUtf_le_length (c : UInt8) (p : List UInt8) :
    (getUtf (c :: p)).2 ≤ (c :: p).length := by
  rcases getUtf_forms c p with ⟨-, v, hget, -⟩ | ⟨v, -, hget, -⟩ | ⟨v, -, -, hget, -⟩ |
    ⟨v, -, hget, -⟩
  · rw [hget]
    exact Nat.le_add_left 1 _
  · rw [hget]
    exact leadUtf_le _ _ _ _
  · rw [hget]
    exact leadUtf_le _ _ _ _
  · rw [hget]
    exact leadUtf_le _ _ _ _

/-! ## The whole stream -/

lemma Pending.getUtfCall_eq {state : Int} {s p : List UInt8} {c : UInt8}
    (h : Pending state s (c :: p)) : getUtfCall state s = getUtfRest c.toNat p := by
  have hc : (c.toNat : Int) ≠ -1 := by omega
  rcases h with ⟨rfl, rfl⟩ | ⟨d, rfl, heq⟩
  · exact (if_neg (not_not.mpr rfl)).trans (if_neg hc)
  · cases heq
    exact if_pos hc

lemma Pending.getUtfCall_eof {state : Int} {s : List UInt8} (h : Pending state s []) :
    getUtfCall state s = (-1, -1, []) := by
  rcases h with ⟨rfl, rfl⟩ | ⟨d, rfl, heq⟩
  · rfl
  · cases heq

lemma charStart_cons_iff (c : UInt8) (p t : List UInt8) :
    CharStart (c :: p) t ↔
      t = c :: p ∨ CharStart ((c :: p).drop (getUtf (c :: p)).2) t := by
  constructor
  · rintro (_ | h)
    · exact .inl rfl
    · exact .inr h
  · rintro (rfl | h)
    · exact .here _
    · exact .later h

/-- What `get_utf` reads, as `get_utf_call` returns it. -/
def scanned (s : List UInt8) : List (Int × Nat) := (utfChars s).map fun x => ((x.1 : Int), x.2)

lemma readUtf_eq_iff {n : Nat} {state : Int} {s t : List UInt8} (h : Pending state s t)
    (hn : t.length ≤ n) :
    readUtf n state s = scanned t ↔ ∀ u, CharStart t u → StreamsAlike u := by
  induction n generalizing state s t with
  | zero =>
    obtain rfl := List.length_eq_zero_iff.mp (Nat.le_zero.mp hn)
    refine iff_of_true rfl ?_
    rintro u (_ | _)
    trivial
  | succ n ih =>
    cases t with
    | nil =>
      refine iff_of_true ?_ ?_
      · rw [readUtf, h.getUtfCall_eof]
        rfl
      · rintro u (_ | _)
        trivial
    | cons c p =>
      obtain ⟨hchar, hsame, hother⟩ := getUtfRest_spec c p
      have hread : readUtf (n + 1) state s =
          ((getUtfRest c.toNat p).1, (c :: p).length - unread (getUtfRest c.toNat p).2.1
            (getUtfRest c.toNat p).2.2) :: readUtf n (getUtfRest c.toNat p).2.1
            (getUtfRest c.toNat p).2.2 := by
        rw [readUtf, h.getUtfCall_eq, h.unread_eq]
        exact if_neg hchar
      have hscan : scanned (c :: p) = (((getUtf (c :: p)).1 : Int), (getUtf (c :: p)).2) ::
          scanned ((c :: p).drop (getUtf (c :: p)).2) := by
        rw [scanned, utfChars_cons, List.map_cons, scanned]
      have hle := getUtf_le_length c p
      rw [hread, hscan, List.cons.injEq, Prod.mk.injEq]
      simp only [charStart_cons_iff, forall_eq_or_imp]
      by_cases halike : StreamsAlike (c :: p)
      · obtain ⟨hvalue, hpending⟩ := hsame halike
        have hlength : (c :: p).length - unread (getUtfRest c.toNat p).2.1
            (getUtfRest c.toNat p).2.2 = (getUtf (c :: p)).2 := by
          rw [hpending.unread_eq, List.length_drop, Nat.sub_sub_self hle]
        have hshort := drop_getUtf_length_lt c p
        rw [ih hpending (Nat.le_of_lt_succ (lt_of_lt_of_le hshort hn))]
        exact and_congr (iff_of_true ⟨hvalue, hlength⟩ halike) Iff.rfl
      · refine iff_of_false ?_ fun hall => halike hall.1
        rintro ⟨⟨hvalue, hlength⟩, -⟩
        rcases hother halike with hne | hlt
        · exact hne hvalue
        · omega

/-- A stream is read as the string with the same bytes if and only if no byte below 0x80
stands in the place of a continuation byte, and the bytes do not end inside a character
in such a way that EOF makes up a character. -/
theorem streamChars_eq_iff (s : List UInt8) :
    streamChars s = (utfChars s).map (fun x => ((x.1 : Int), x.2)) ↔
      ∀ t, CharStart s t → StreamsAlike t :=
  readUtf_eq_iff (.inl ⟨rfl, rfl⟩) le_rfl

/-- Of the bytes 0xc3 0x41 the letter is read as a part of the character before it. -/
theorem streamChars_ne_letter : streamChars [0xc3, 0x41] = [(0x81, 2)] ∧
    (utfChars [0xc3, 0x41]).map (fun x => ((x.1 : Int), x.2)) = [(0xfffd, 1), (0x41, 1)] ∧
    streamChars [0xc3, 0x41] ≠ (utfChars [0xc3, 0x41]).map (fun x => ((x.1 : Int), x.2)) := by
  decide

end LambdaMOO
