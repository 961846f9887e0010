import LambdaMOO.Db.Structures
import LambdaMOO.Strings.Search

/-!
# The result of a match

`match_pattern` makes the offsets that PCRE leaves into indices of bytes, and `do_match` makes
these into indices of characters. A group that took no part has offsets of -1. Strings with or
without Unicode are a build of the server each.
-/

namespace LambdaMOO

/-! ## The result -/

/-- The bytes of a string in UTF-8. -/
def utf8Bytes (s : String) : List UInt8 := s.toList.flatMap String.utf8EncodeChar

/-- `Match_Indices`, where `stop` is `end`. -/
structure MatchIndices where
  start : Int
  stop : Int
  deriving DecidableEq, Repr

/-- `Match_Result`, with the indices of a match that succeeded. -/
inductive MatchResult where
  | succeeded (indices : Nat → MatchIndices)
  | failed
  | aborted

/-- What `pcre_exec` leaves: its result and its vector of pairs of offsets, and what the callout
for a search from the end has kept of the rightmost match. -/
structure Execution where
  rc : Int
  ovec : Nat → Int × Int
  valid : Nat
  rmatch : Nat → Int × Int

/-- `PCRE_ERROR_NOMATCH`. -/
def pcreErrorNomatch : Int := -1

/-- The pairs of the vector that are used. -/
def pairsUsed (rc : Nat) : Nat := if rc = 0 ∨ 10 < rc then 10 else rc

/-- The loops at the end of `match_pattern`. -/
def pcreIndices (rc : Nat) (ov : Nat → Int × Int) (i : Nat) : MatchIndices :=
  if i < pairsUsed rc then { start := 1 + (ov i).1, stop := (ov i).2 }
  else { start := 0, stop := -1 }

/-- `match_pattern` of `pattern_pcre.c`. -/
def matchPattern (isReverse : Bool) (e : Execution) : MatchResult :=
  if e.rc < 0 then
    if e.rc = pcreErrorNomatch then
      if isReverse && e.valid ≠ 0 then .succeeded (pcreIndices e.valid e.rmatch) else .failed
    else .aborted
  else .succeeded (pcreIndices e.rc.toNat e.ovec)

/-- `utf_char_index` of the build. -/
def charIndexOf (unicode : Bool) (s : List UInt8) (bi : Int) : Option Int :=
  if unicode then utfCharIndex s bi else some bi

/-- The two elements of the answer for one pair of indices. -/
def matchPair (unicode : Bool) (subject : List UInt8) (r : MatchIndices) : Option (Int × Int) := do
  let start ← charIndexOf unicode subject r.start
  let after ← charIndexOf unicode subject (r.stop + 1)
  return (start, after - 1)

def pairList (p : Int × Int) : Var := .list [.int p.1, .int p.2]

/-- The list for the pairs of the whole match and of the groups. -/
def matchList (subject : String) (whole : Int × Int) (subs : List (Int × Int)) : Var :=
  .list [.int whole.1, .int whole.2, .list (subs.map pairList), .str subject]

/-- `do_match`, for a pattern that is compiled or not. Nothing is the result of a panic. -/
def doMatch (unicode compiled : Bool) (subject : String) (result : MatchResult) : Option Var :=
  if !compiled then some (.err .eInvarg)
  else
    match result with
    | .succeeded regs => do
      let whole ← matchPair unicode (utf8Bytes subject) (regs 0)
      let subs ← (List.range' 1 9).mapM fun i => matchPair unicode (utf8Bytes subject) (regs i)
      return matchList subject whole subs
    | .failed => some (.list [])
    | .aborted => some (.err .eQuota)

/-! ## The check -/

/-- The loop of `memo_strlen_utf`, cut off after `n` turns. -/
def strlenUtfLoop : Nat → List UInt8 → Nat → Option Nat
  | 0, _, _ => none
  | n + 1, s, i =>
    let (v, k) := getUtf s
    if v ≠ 0 then strlenUtfLoop n (s.drop k) (i + 1) else some i

/-- `memo_strlen_utf` of the build. -/
def memoStrlenUtf (unicode : Bool) (s : List UInt8) : Option Nat :=
  if unicode then strlenUtfLoop (s.length + 1) s 0 else some s.length

/-- `invalid_pair`. -/
def invalidPair (num1 num2 max : Int) : Bool :=
  !((num1 = 0 ∧ num2 = -1) ∨ (0 < num1 ∧ num1 - 1 ≤ num2 ∧ num2 ≤ max))

/-- The body of the loop of `check_subs_list`. -/
def invalidSub (subjLength : Int) : Var → Bool
  | .list [.int num1, .int num2] => invalidPair num1 num2 subjLength
  | _ => true

/-- `check_subs_list`: whether the list is refused. -/
def checkSubsList (unicode : Bool) : Var → Option Bool
  | .list [.int start, .int stop, .list pairs, .str subj] =>
    if pairs.length ≠ 9 then some true
    else do
      let subjLength ← memoStrlenUtf unicode (utf8Bytes subj)
      return invalidPair start stop subjLength || pairs.any (invalidSub subjLength)
  | _ => some true

/-! ## What the result should be -/

/-- The vector that `match_pattern` uses. -/
def Execution.vector (e : Execution) : Nat × (Nat → Int × Int) :=
  if e.rc < 0 then (e.valid, e.rmatch) else (e.rc.toNat, e.ovec)

/-- The group `i` took part in the match. -/
def Execution.TakesPart (e : Execution) (i : Nat) : Prop :=
  i < pairsUsed e.vector.1 ∧ e.vector.2 i ≠ (-1, -1)

/-- Offsets of bytes, each of which is where a character starts or the subject ends. -/
def IsSpan (s : List UInt8) (p : Int × Int) : Prop :=
  ∃ (a b : Nat) (i j : Int), p = (↑a, ↑b) ∧ a ≤ b ∧ StartsAt s i a ∧ StartsAt s j b

/-- A match has been found, and the offsets are in order. -/
structure Execution.Returned (e : Execution) (isReverse : Bool) (s : List UInt8) : Prop where
  found : 0 ≤ e.rc ∨ e.rc = pcreErrorNomatch ∧ isReverse ∧ e.valid ≠ 0
  whole : IsSpan s (e.vector.2 0)
  groups : ∀ i < pairsUsed e.vector.1, e.vector.2 i = (-1, -1) ∨ IsSpan s (e.vector.2 i)

/-- The pair of indices of characters selects what the offsets of bytes do. -/
def Selects (s : List UInt8) (p pair : Int × Int) : Prop :=
  ∃ a b : Nat, p = (↑a, ↑b) ∧ StartsAt s pair.1 a ∧ StartsAt s (pair.2 + 1) b ∧
    substrUtf s pair.1 (pair.2 - pair.1 + 1).toNat = some ((s.take b).drop a) ∧
    (a = b → pair.2 = pair.1 - 1)

/-- The list has a pair that selects what was matched for each group that took part, and 0 and -1
for each other one, and it is accepted. -/
structure RightMatch (unicode : Bool) (subject : String) (e : Execution) (ans : Var) : Prop where
  pairs : ∃ pair : Nat → Int × Int, ans = matchList subject (pair 0) ((List.range' 1 9).map pair) ∧
    (∀ i ≤ 9, e.TakesPart i → Selects (utf8Bytes subject) (e.vector.2 i) (pair i)) ∧
    ∀ i ≤ 9, ¬ e.TakesPart i → pair i = (0, -1)
  accepted : checkSubsList unicode ans = some false

/-! ## The bytes of a string -/

section

variable {x : Nat}

lemma lead_two_lor (hx : x < 0x20) : 0xc0 ||| x = x + 0xc0 := by
  revert x
  decide

lemma lead_three_lor (hx : x < 0x10) : 0xe0 ||| x = x + 0xe0 := by
  revert x
  decide

lemma lead_four_lor (hx : x < 0x08) : 0xf0 ||| x = x + 0xf0 := by
  revert x
  decide

lemma cont_lor (x : Nat) : 0x80 ||| x &&& 0x3f = x % 0x40 + 0x80 := by
  have hlor : ∀ y < 0x40, 0x80 ||| y = y + 0x80 := by decide
  rw [show x &&& 0x3f = x % 0x40 from Nat.and_two_pow_sub_one_eq_mod x 6,
    hlor _ (Nat.mod_lt x (by decide))]

end

/-- `put_utf` writes a character as it is in a string. -/
lemma putUtf_toNat (c : Char) : putUtf c.toNat = some (String.utf8EncodeChar c) := by
  have hvalid : c.toNat < 0xd800 ∨ 0xdfff < c.toNat ∧ c.toNat < 0x110000 := c.valid
  rw [String.utf8EncodeChar, putUtf, show c.val.toNat = c.toNat from rfl]
  generalize c.toNat = v at hvalid
  have hshift : ∀ k, v >>> k = v / 2 ^ k := fun k => Nat.shiftRight_eq_div_pow v k
  split_ifs
  · rfl
  · rw [cont_lor, hshift, lead_two_lor (by omega), Nat.mod_eq_of_lt (a := v / 64) (by omega)]
    rfl
  · omega
  · rw [cont_lor, cont_lor, hshift, hshift, lead_three_lor (by omega),
      Nat.mod_eq_of_lt (a := v / 4096) (by omega)]
    rfl
  · rw [cont_lor, cont_lor, cont_lor, hshift, hshift, hshift, lead_four_lor (by omega),
      Nat.mod_eq_of_lt (a := v / 262144) (by omega)]
    rfl
  · omega

/-- A string without the byte 0 is valid. -/
lemma isUtf_utf8Bytes {s : String} (hzero : '\x00' ∉ s.toList) :
    IsUtf (s.toList.map Char.toNat) (utf8Bytes s) := by
  unfold utf8Bytes
  generalize s.toList = cs at hzero
  induction cs with
  | nil => exact .nil
  | cons c cs ih =>
    rw [List.mem_cons, not_or] at hzero
    rw [List.map_cons, List.flatMap_cons]
    refine .cons (fun hc => hzero.1 ?_) (putUtf_toNat c) (ih hzero.2)
    exact (Char.toNat_inj.mp hc).symm

/-! ## Characters before an offset -/

/-- The bytes that start a character. -/
def startBytes (s : List UInt8) : Nat := s.countP fun c => !isUtf8ContByte c

section

variable {vs : List Nat} {s p : List UInt8} {i j : Int} {a b k : Nat}

lemma IsUtf.length_eq (h : IsUtf vs s) : vs.length = startBytes s := by
  induction h with
  | nil => rfl
  | @cons v vs p s hv hput hs ih =>
    obtain ⟨c, conts, rfl, hc, hconts⟩ := putUtf_conts hput
    have hnone : conts.countP (fun c => !isUtf8ContByte c) = 0 :=
      List.countP_eq_zero.mpr fun d hd => by simp [hconts d hd]
    rw [startBytes, List.cons_append, List.countP_cons_of_pos (by simp [hc]), List.countP_append,
      hnone, List.length_cons, ih, startBytes]
    omega

lemma StartsAt.eq_startBytes (h : StartsAt s i k) : i = startBytes (s.take k) + 1 := by
  obtain ⟨vs, ws, p, q, hp, -, rfl, rfl, rfl⟩ := h
  rw [List.take_left, hp.length_eq]

lemma startBytes_mono (h : a ≤ b) : startBytes (s.take a) ≤ startBytes (s.take b) :=
  (List.take_sublist_take_left h).countP_le

lemma StartsAt.mono (hi : StartsAt s i a) (hj : StartsAt s j b) (h : a ≤ b) : i ≤ j := by
  have hle : startBytes (s.take a) ≤ startBytes (s.take b) := startBytes_mono h
  rw [hi.eq_startBytes, hj.eq_startBytes]
  omega

lemma StartsAt.le_length (h : StartsAt s i k) (hs : IsUtf vs s) : i ≤ vs.length + 1 := by
  have hle : startBytes (s.take k) ≤ startBytes s := (List.take_sublist k s).countP_le
  rw [h.eq_startBytes, hs.length_eq]
  omega

lemma StartsAt.one_le (h : StartsAt s i k) : 1 ≤ i := by
  rw [h.eq_startBytes]
  omega

lemma StartsAt.le (h : StartsAt s i k) : k ≤ s.length := by
  obtain ⟨vs, ws, p, q, -, -, rfl, -, rfl⟩ := h
  rw [List.length_append]
  omega

lemma startBytes_of_ascii (hascii : ∀ c ∈ s, c < 0x80) : startBytes s = s.length := by
  refine List.countP_eq_length.mpr fun c hc => ?_
  have hcont := one_not_isCont (UInt8.lt_iff_toNat_lt.mp (hascii c hc))
  rw [Nat.toUInt8, UInt8.ofNat_toNat] at hcont
  rw [hcont, Bool.not_false]

/-- In a string of ASCII characters the indices of characters are those of bytes. -/
lemma StartsAt.eq_of_ascii (h : StartsAt s i k) (hascii : ∀ c ∈ s, c < 0x80) : i = k + 1 := by
  have hall := startBytes_of_ascii fun c (hc : c ∈ s.take k) => hascii c (List.mem_of_mem_take hc)
  rw [h.eq_startBytes, hall, List.length_take, Nat.min_eq_left h.le]

end

/-! ## Pairs of the answer -/

section

variable {vs : List Nat} {s : List UInt8} {i j : Int} {a b : Nat}

lemma IsUtf.matchPair_absent (h : IsUtf vs s) : matchPair true s ⟨0, -1⟩ = some (1, 0) := by
  have hzero : utfCharIndex s 0 = some 1 := by
    have hle : (0 : Int) ≤ s.length + 2 := by omega
    rw [utfCharIndex, h.head?_not_isCont, if_neg Bool.false_ne_true, if_pos hle]
    rfl
  simp only [matchPair, charIndexOf, if_true, hzero, Int.reduceNeg, Int.reduceAdd,
    Option.bind_eq_bind, Option.bind_some]
  rfl

lemma matchPair_span (hi : StartsAt s i a) (hj : StartsAt s j b) :
    matchPair true s ⟨1 + a, b⟩ = some (i, j - 1) := by
  have hstart := hi.charIndex
  rw [Int.add_comm] at hstart
  simp only [matchPair, charIndexOf, if_true, hstart, hj.charIndex, Option.bind_eq_bind,
    Option.bind_some]
  rfl

lemma matchPair_ascii (r : MatchIndices) : matchPair false s r = some (r.start, r.stop) := by
  simp only [matchPair, charIndexOf, Bool.false_eq_true, if_false, Option.bind_eq_bind,
    Option.bind_some, Int.add_sub_cancel]
  rfl

lemma StartsAt.selects (hi : StartsAt s i a) (hj : StartsAt s j b) (h : a ≤ b) :
    Selects s (a, b) (i, j - 1) := by
  have hle := hi.mono hj h
  have hafter : j - 1 + 1 = j := by omega
  have hcount : (i + ((j - 1 - i + 1).toNat : Int)) = j := by omega
  refine ⟨a, b, rfl, hi, by rwa [hafter], ?_, ?_⟩
  · have hdrop : ((a : Int) + 1 - 1).toNat = a := by omega
    have htake : ((b : Int) + 1 - (a + 1)).toNat = b - a := by omega
    rw [LambdaMOO.substrUtf, hi.byteIndex, hcount, hj.byteIndex, Option.bind_eq_bind, Option.bind_some,
      Option.bind_some, hdrop, htake, List.drop_take]
    rfl
  · rintro rfl
    rw [hi.eq_startBytes, hj.eq_startBytes]

lemma invalidPair_span (hs : IsUtf vs s) (hi : StartsAt s i a) (hj : StartsAt s j b) (h : a ≤ b) :
    invalidPair i (j - 1) vs.length = false := by
  have hle := hi.mono hj h
  have hone := hi.one_le
  have hlast := hj.le_length hs
  simp only [invalidPair, Bool.not_eq_false', decide_eq_true_eq]
  omega

lemma IsUtf.strlenUtfLoop_eq (h : IsUtf vs s) {n : Nat} (hn : s.length < n) (k : Nat) :
    strlenUtfLoop n s k = some (k + vs.length) := by
  induction h generalizing n k with
  | nil =>
    obtain ⟨n, rfl⟩ : ∃ m, n = m + 1 := ⟨n - 1, by omega⟩
    rfl
  | @cons v vs p s hv hput hs ih =>
    obtain ⟨n, rfl⟩ : ∃ m, n = m + 1 := ⟨n - 1, by omega⟩
    obtain ⟨c, conts, rfl, -⟩ := putUtf_conts hput
    rw [List.length_append, List.length_cons] at hn
    rw [strlenUtfLoop, getUtf_putUtf hput]
    dsimp only
    rw [if_pos hv, List.drop_left, ih (by omega), List.length_cons]
    congr 1
    omega

end

/-! ## Answers -/

/-- The characters of the string are those of ASCII. -/
def IsAscii (s : String) : Prop := ∀ c ∈ s.toList, c.toNat < 0x80

lemma IsAscii.utf8Bytes {s : String} (h : IsAscii s) : ∀ c ∈ utf8Bytes s, c < 0x80 := by
  intro d hd
  obtain ⟨c, hc, hd⟩ := List.mem_flatMap.mp hd
  have hlt := h c hc
  have hencode : String.utf8EncodeChar c = [UInt8.ofNat c.toNat] := by
    rw [String.utf8EncodeChar, show c.val.toNat = c.toNat from rfl, if_pos (by omega)]
  rw [hencode, List.mem_singleton] at hd
  have hsize : c.toNat < UInt8.size := hlt.trans (by decide)
  rw [hd, UInt8.lt_iff_toNat_lt, UInt8.toNat_ofNat_of_lt' hsize]
  exact hlt

section

variable {unicode isReverse : Bool} {subject : String} {e : Execution} {vs : List Nat}
  {s : List UInt8} {pair pair' : Nat → Int × Int}

lemma Execution.Returned.matchPattern_eq (h : e.Returned isReverse s) :
    matchPattern isReverse e = .succeeded (pcreIndices e.vector.1 e.vector.2) := by
  rcases h.found with hrc | ⟨hrc, hreverse, hvalid⟩
  · rw [matchPattern, Execution.vector, if_neg (by omega), if_neg (by omega)]
  · have hneg : e.rc < 0 := by
      rw [hrc]
      decide
    rw [matchPattern, Execution.vector, if_pos hneg, if_pos hneg, if_pos hrc, hreverse,
      if_pos (by simpa using hvalid)]

/-- The indices of a group are those of its offsets or 0 and -1. -/
lemma Execution.Returned.indices (h : e.Returned isReverse s) (i : Nat) :
    (e.TakesPart i ∧ ∃ (a b : Nat) (j k : Int), e.vector.2 i = (↑a, ↑b) ∧ a ≤ b ∧ StartsAt s j a ∧
      StartsAt s k b ∧ pcreIndices e.vector.1 e.vector.2 i = ⟨1 + a, b⟩) ∨
    (¬ e.TakesPart i ∧ pcreIndices e.vector.1 e.vector.2 i = ⟨0, -1⟩) := by
  unfold pcreIndices
  split_ifs with hi
  · rcases h.groups i hi with hnone | ⟨a, b, j, k, hspan, hle, hj, hk⟩
    · exact .inr ⟨fun htakes => htakes.2 hnone, by rw [hnone]; rfl⟩
    · refine .inl ⟨⟨hi, ?_⟩, a, b, j, k, hspan, hle, hj, hk, by rw [hspan]⟩
      rw [hspan]
      intro heq
      have hneg : (a : Int) = -1 := congrArg Prod.fst heq
      omega
  · exact .inr ⟨fun htakes => hi htakes.1, rfl⟩

lemma Execution.Returned.takesPart_zero (h : e.Returned isReverse s) : e.TakesPart 0 := by
  obtain ⟨a, b, j, k, hspan, -⟩ := h.whole
  refine ⟨?_, ?_⟩
  · unfold pairsUsed
    split_ifs <;> omega
  · rw [hspan]
    intro heq
    have hneg : (a : Int) = -1 := congrArg Prod.fst heq
    omega

lemma doMatch_eq {regs : Nat → MatchIndices}
    (h : ∀ i ≤ 9, matchPair unicode (utf8Bytes subject) (regs i) = some (pair i)) :
    doMatch unicode true subject (.succeeded regs)
      = some (matchList subject (pair 0) ((List.range' 1 9).map pair)) := by
  have hsubs : (List.range' 1 9).mapM (fun i => matchPair unicode (utf8Bytes subject) (regs i))
      = some ((List.range' 1 9).map pair) := by
    refine mapM_eq_some_map fun i hi => h i ?_
    rw [List.mem_range'_1] at hi
    omega
  simp only [doMatch, Bool.not_true, Bool.false_eq_true, if_false, h 0 (Nat.zero_le 9), hsubs,
    Option.bind_eq_bind, Option.bind_some]
  rfl

lemma memoStrlenUtf_utf8Bytes (hzero : '\x00' ∉ subject.toList) :
    memoStrlenUtf true (utf8Bytes subject) = some (subject.toList.map Char.toNat).length := by
  rw [memoStrlenUtf, if_pos rfl, (isUtf_utf8Bytes hzero).strlenUtfLoop_eq (by omega), Nat.zero_add]

/-- A list of pairs that are each in order is accepted. -/
lemma checkSubsList_eq {n : Nat} (hn : memoStrlenUtf unicode (utf8Bytes subject) = some n)
    (h : ∀ i ≤ 9, invalidPair (pair i).1 (pair i).2 n = false) :
    checkSubsList unicode (matchList subject (pair 0) ((List.range' 1 9).map pair))
      = some false := by
  have hsubs : (((List.range' 1 9).map pair).map pairList).any (invalidSub n) = false := by
    rw [List.any_eq_false]
    intro v hv
    obtain ⟨p, hp, rfl⟩ := List.mem_map.mp hv
    obtain ⟨i, hi, rfl⟩ := List.mem_map.mp hp
    rw [List.mem_range'_1] at hi
    rw [pairList, invalidSub, h i (by omega)]
    exact Bool.false_ne_true
  simp only [checkSubsList, matchList, List.length_map, List.length_range', ne_eq,
    not_true_eq_false, if_false, hn, Option.bind_eq_bind, Option.bind_some, hsubs,
    h 0 (Nat.zero_le 9), Bool.or_false]
  rfl

lemma matchList_inj (h : matchList subject (pair 0) ((List.range' 1 9).map pair)
      = matchList subject (pair' 0) ((List.range' 1 9).map pair')) {i : Nat} (hi : 1 ≤ i)
    (hi' : i ≤ 9) : pair i = pair' i := by
  have hpairs : Function.Injective pairList := fun p q hpq => by
    simp only [pairList, Var.list.injEq, Var.int.injEq, List.cons.injEq] at hpq
    exact Prod.ext hpq.1 hpq.2.1
  simp only [matchList, Var.list.injEq, List.cons.injEq] at h
  have hmap := (List.map_injective_iff.mpr hpairs) h.2.2.1
  exact List.map_inj_left.mp hmap i (List.mem_range'_1.mpr ⟨hi, by omega⟩)

/-- What was matched has one pair. -/
lemma Selects.unique {p q q' : Int × Int} (h : Selects s p q) (h' : Selects s p q') : q = q' := by
  obtain ⟨a, b, rfl, ha, hb, -⟩ := h
  obtain ⟨a', b', heq, ha', hb', -⟩ := h'
  obtain rfl : a = a' := Int.ofNat_inj.mp (congrArg Prod.fst heq)
  obtain rfl : b = b' := Int.ofNat_inj.mp (congrArg Prod.snd heq)
  have hfirst : q.1 = q'.1 := by rw [ha.eq_startBytes, ha'.eq_startBytes]
  have hsecond : q.2 + 1 = q'.2 + 1 := by rw [hb.eq_startBytes, hb'.eq_startBytes]
  exact Prod.ext hfirst (by omega)

lemma RightMatch.unique {unicode' : Bool} {ans ans' : Var} (h : RightMatch unicode subject e ans)
    (h' : RightMatch unicode' subject e ans') : ans = ans' := by
  obtain ⟨p, rfl, htakes, habsent⟩ := h.pairs
  obtain ⟨q, rfl, htakes', habsent'⟩ := h'.pairs
  have heq : ∀ i ≤ 9, p i = q i := by
    intro i hi
    by_cases hpart : e.TakesPart i
    · exact (htakes i hi hpart).unique (htakes' i hi hpart)
    · rw [habsent i hi hpart, habsent' i hi hpart]
  rw [heq 0 (Nat.zero_le 9)]
  congr 1
  refine List.map_congr_left fun i hi => heq i ?_
  rw [List.mem_range'_1] at hi
  omega

/-- With Unicode a group that took no part has the pair 1 and 0. -/
lemma Execution.Returned.exists_pair (h : e.Returned isReverse s) (hs : IsUtf vs s) (i : Nat) :
    ∃ p, matchPair true s (pcreIndices e.vector.1 e.vector.2 i) = some p ∧
      invalidPair p.1 p.2 vs.length = false ∧ (e.TakesPart i → Selects s (e.vector.2 i) p) ∧
      (¬ e.TakesPart i → p = (1, 0)) := by
  rcases h.indices i with ⟨htakes, a, b, j, k, hspan, hle, hj, hk, hi⟩ | ⟨habsent, hi⟩
  · refine ⟨(j, k - 1), ?_, invalidPair_span hs hj hk hle, fun _ => ?_, fun hnot => ?_⟩
    · rw [hi, matchPair_span hj hk]
    · rw [hspan]
      exact hj.selects hk hle
    · exact absurd htakes hnot
  · refine ⟨(1, 0), ?_, ?_, fun htakes => absurd htakes habsent, fun _ => rfl⟩
    · rw [hi, hs.matchPair_absent]
    · simp only [invalidPair, Bool.not_eq_false', decide_eq_true_eq]
      omega

/-- Without Unicode a group that took no part has the pair 0 and -1. -/
lemma Execution.Returned.exists_pair_ascii (h : e.Returned isReverse s) (hs : IsUtf vs s)
    (hascii : ∀ c ∈ s, c < 0x80) (i : Nat) :
    ∃ p, matchPair false s (pcreIndices e.vector.1 e.vector.2 i) = some p ∧
      invalidPair p.1 p.2 s.length = false ∧ (e.TakesPart i → Selects s (e.vector.2 i) p) ∧
      (¬ e.TakesPart i → p = (0, -1)) := by
  have hlength : vs.length = s.length := by rw [hs.length_eq, startBytes_of_ascii hascii]
  rcases h.indices i with ⟨htakes, a, b, j, k, hspan, hle, hj, hk, hi⟩ | ⟨habsent, hi⟩
  · have hfirst := hj.eq_of_ascii hascii
    have hsecond := hk.eq_of_ascii hascii
    have hpair : ((1 + a, b) : Int × Int) = (j, k - 1) := Prod.ext (by omega) (by omega)
    refine ⟨(j, k - 1), ?_, ?_, fun _ => ?_, fun hnot => absurd htakes hnot⟩
    · rw [hi, matchPair_ascii, ← hpair]
    · rw [← hlength]
      exact invalidPair_span hs hj hk hle
    · rw [hspan]
      exact hj.selects hk hle
  · refine ⟨(0, -1), ?_, ?_, fun htakes => absurd htakes habsent, fun _ => rfl⟩
    · rw [hi, matchPair_ascii]
    · simp only [invalidPair, Bool.not_eq_false', decide_eq_true_eq]
      exact .inl ⟨trivial, trivial⟩

/-- The answer is made of the pairs, and it is accepted when each of them is. -/
lemma Execution.Returned.exists_answer {n : Nat} {P : Nat → Int × Int → Prop}
    (h : e.Returned isReverse (utf8Bytes subject))
    (hn : memoStrlenUtf unicode (utf8Bytes subject) = some n)
    (hpair : ∀ i, ∃ p, matchPair unicode (utf8Bytes subject)
        (pcreIndices e.vector.1 e.vector.2 i) = some p ∧ invalidPair p.1 p.2 n = false ∧ P i p) :
    ∃ (pair : Nat → Int × Int) (ans : Var),
      ans = matchList subject (pair 0) ((List.range' 1 9).map pair) ∧
      doMatch unicode true subject (matchPattern isReverse e) = some ans ∧
      checkSubsList unicode ans = some false ∧ ∀ i, P i (pair i) := by
  choose pair hmatch hvalid hP using hpair
  refine ⟨pair, _, rfl, ?_, checkSubsList_eq hn fun i _ => hvalid i, hP⟩
  rw [h.matchPattern_eq]
  exact doMatch_eq fun i _ => hmatch i

/-- With Unicode the pair of a group that took no part is wrong. -/
lemma Execution.Returned.not_rightMatch (h : e.Returned isReverse (utf8Bytes subject))
    (hzero : '\x00' ∉ subject.toList) {i : Nat} (hi : 1 ≤ i) (hi' : i ≤ 9)
    (habsent : ¬ e.TakesPart i) {ans : Var}
    (hans : doMatch true true subject (matchPattern isReverse e) = some ans) :
    ¬ RightMatch true subject e ans := by
  intro hright
  obtain ⟨pair, ans', rfl, hdo, -, hP⟩ :=
    h.exists_answer (memoStrlenUtf_utf8Bytes hzero) (h.exists_pair (isUtf_utf8Bytes hzero))
  obtain ⟨pair', rfl, -, hpair'⟩ := hright.pairs
  have hpairs : pair i = pair' i :=
    matchList_inj (Option.some_injective _ (hdo.symm.trans hans)) hi hi'
  rw [(hP i).2 habsent, hpair' i hi' habsent] at hpairs
  exact absurd hpairs (by decide)

/-- Without Unicode the answer for a string of ASCII characters is right. -/
lemma Execution.Returned.rightMatch_ascii (h : e.Returned isReverse (utf8Bytes subject))
    (hs : IsUtf vs (utf8Bytes subject)) (hascii : IsAscii subject) :
    ∃ ans, doMatch false true subject (matchPattern isReverse e) = some ans ∧
      RightMatch false subject e ans := by
  obtain ⟨pair, ans, hans, hdo, hcheck, hP⟩ :=
    h.exists_answer rfl (h.exists_pair_ascii hs hascii.utf8Bytes)
  exact ⟨ans, hdo, ⟨pair, hans, fun i _ => (hP i).1, fun i _ => (hP i).2⟩, hcheck⟩

end

/-! ## Correctness -/

section

variable {isReverse : Bool} {e : Execution}

/-- With Unicode the answer is right if and only if each of the nine groups took part: another
group has the pair 1 and 0. Without Unicode the answer for a string of ASCII characters is always
right. -/
theorem doMatch_right_iff (subject : String) (hzero : '\x00' ∉ subject.toList)
    (h : e.Returned isReverse (utf8Bytes subject)) :
    ((∃ ans, doMatch true true subject (matchPattern isReverse e) = some ans ∧
        RightMatch true subject e ans ∧
        (IsAscii subject → doMatch false true subject (matchPattern isReverse e) = some ans)) ↔
      ∀ i, 1 ≤ i → i ≤ 9 → e.TakesPart i) ∧
    (IsAscii subject → ∃ ans, doMatch false true subject (matchPattern isReverse e) = some ans ∧
      RightMatch false subject e ans) := by
  have hs := isUtf_utf8Bytes hzero
  obtain ⟨pair, ans, hans, hdo, hcheck, hP⟩ :=
    h.exists_answer (memoStrlenUtf_utf8Bytes hzero) (h.exists_pair hs)
  refine ⟨⟨?_, ?_⟩, h.rightMatch_ascii hs⟩
  · rintro ⟨ans', hdo', hright, -⟩ i hi hi'
    by_contra habsent
    exact h.not_rightMatch hzero hi hi' habsent hdo' hright
  · intro hall
    have hparts : ∀ i ≤ 9, e.TakesPart i := by
      intro i hi
      rcases Nat.eq_zero_or_pos i with rfl | hpos
      · exact h.takesPart_zero
      · exact hall i hpos hi
    have hright : RightMatch true subject e ans :=
      ⟨⟨pair, hans, fun i _ => (hP i).1, fun i hi hnot => absurd (hparts i hi) hnot⟩, hcheck⟩
    refine ⟨ans, hdo, hright, fun hascii => ?_⟩
    obtain ⟨ans', hdo', hright'⟩ := h.rightMatch_ascii hs hascii
    rw [hdo', hright.unique hright']

end

/-- Nine groups around the third character of the subject. -/
def nestedExecution : Execution where
  rc := 10
  ovec _ := (2, 4)
  valid := 0
  rmatch _ := (0, 0)

/-- A pattern without groups has matched the last two characters of the subject. -/
def plainExecution : Execution where
  rc := 1
  ovec _ := (1, 3)
  valid := 0
  rmatch _ := (0, 0)

lemma nestedExecution_returned : nestedExecution.Returned false (utf8Bytes "naïve") := by
  have hspan : IsSpan (utf8Bytes "naïve") (2, 4) := by
    refine ⟨2, 4, 3, 4, rfl, by decide, ?_, ?_⟩
    · exact ⟨_, _, _, _, isUtf_utf8Bytes (s := "na") (by decide),
        isUtf_utf8Bytes (s := "ïve") (by decide), by decide, by decide, by decide⟩
    · exact ⟨_, _, _, _, isUtf_utf8Bytes (s := "naï") (by decide),
        isUtf_utf8Bytes (s := "ve") (by decide), by decide, by decide, by decide⟩
  exact ⟨.inl (by decide), hspan, fun _ _ => .inr hspan⟩

lemma plainExecution_returned : plainExecution.Returned false (utf8Bytes "foo") := by
  have hspan : IsSpan (utf8Bytes "foo") (1, 3) := by
    refine ⟨1, 3, 2, 4, rfl, by decide, ?_, ?_⟩
    · exact ⟨_, _, _, _, isUtf_utf8Bytes (s := "f") (by decide),
        isUtf_utf8Bytes (s := "oo") (by decide), by decide, by decide, by decide⟩
    · exact ⟨_, _, _, _, isUtf_utf8Bytes (s := "foo") (by decide), .nil, by decide, by decide,
        by decide⟩
  exact ⟨.inl (by decide), hspan, fun _ _ => .inr hspan⟩

theorem doMatch_right_iff_nested :
    ∃ ans, doMatch true true "naïve" (matchPattern false nestedExecution) = some ans ∧
      RightMatch true "naïve" nestedExecution ans ∧
      (IsAscii "naïve" →
        doMatch false true "naïve" (matchPattern false nestedExecution) = some ans) := by
  refine (doMatch_right_iff "naïve" (by decide) nestedExecution_returned).1.mpr fun i _ hi => ?_
  have hused : pairsUsed nestedExecution.vector.1 = 10 := rfl
  have hgroup : ((2, 4) : Int × Int) ≠ (-1, -1) := by decide
  exact ⟨by omega, hgroup⟩

/-- The groups that a pattern does not have get the pair 1 and 0. -/
theorem not_rightMatch_plain :
    '\x00' ∉ "foo".toList ∧ plainExecution.Returned false (utf8Bytes "foo") ∧
      ¬ ∃ ans, doMatch true true "foo" (matchPattern false plainExecution) = some ans ∧
        RightMatch true "foo" plainExecution ans := by
  have hzero : '\x00' ∉ "foo".toList := by decide
  refine ⟨hzero, plainExecution_returned, ?_⟩
  rintro ⟨ans, hans, hright⟩
  have habsent : ¬ plainExecution.TakesPart 1 := fun h => absurd h.1 (by decide)
  exact plainExecution_returned.not_rightMatch hzero (Nat.le_refl 1) (by decide) habsent hans hright

end LambdaMOO
