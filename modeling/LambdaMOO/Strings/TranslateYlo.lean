import LambdaMOO.Strings.Regexp

/-!
# The translation for the bundled engine

`translate_pattern` makes a pattern of MOO into one for the bundled engine. Its characters are
bytes; which ones those are that have no meaning does not matter. The translation is right unless
a backslash is quoted: it is copied, and quotes what comes next.
-/

namespace LambdaMOO.Regexp

/-- The characters before which `translate_pattern` puts a backslash. -/
def isYloSpecial (c : Char) : Bool := ".*+?[^$|()123456789bB<>wW".toList.contains c

/-- The loop of `translate_pattern`, or the loop over the members of a set in it. -/
def translatePatternLoop : Bool → List Char → Option (List Char)
  | true, [] => none
  | true, c :: p =>
    if c = ']' then (translatePatternLoop false p).map (c :: ·)
    else (translatePatternLoop true p).map (c :: ·)
  | false, [] => some []
  | false, '%' :: p =>
    match p with
    | [] => none
    | c :: p =>
      (translatePatternLoop false p).map ((if isYloSpecial c then ['\\', c] else [c]) ++ ·)
  | false, '\\' :: p => (translatePatternLoop false p).map (['\\', '\\'] ++ ·)
  | false, '[' :: p =>
    match p with
    | '^' :: ']' :: p => (translatePatternLoop true p).map (['[', '^', ']'] ++ ·)
    | '^' :: p => (translatePatternLoop true p).map (['[', '^'] ++ ·)
    | ']' :: p => (translatePatternLoop true p).map (['[', ']'] ++ ·)
    | p => (translatePatternLoop true p).map ('[' :: ·)
  | false, c :: p => (translatePatternLoop false p).map (c :: ·)

/-- `translate_pattern` of `pattern_ylo.c`. -/
def translatePattern (pattern : List Char) : Option (List Char) :=
  translatePatternLoop false pattern

/-! ## The states of a reader -/

/-- `translate_pattern` as a transducer that is always where a reader of the pattern is. -/
def yloTranslator : Transducer ReadState Char Char where
  step q c :=
    (match q with
      | .base => if c = '%' then [] else if c = '\\' then ['\\', '\\'] else [c]
      | .quoted => if isYloSpecial c then ['\\', c] else [c]
      | _ => [c], (mooReader.step q c).2)
  finish
    | .base => some []
    | _ => none

def LoopAt : Bool → ReadState → Prop
  | false, .base => True
  | true, .inSet _ _ => True
  | _, _ => False

lemma LoopAt.eq_base {q : ReadState} (h : LoopAt false q) : q = .base := by
  cases q with
  | base => rfl
  | quoted | openset | complemented | inSet => exact h.elim

lemma LoopAt.eq_inSet {q : ReadState} (h : LoopAt true q) :
    ∃ complement members, q = .inSet complement members := by
  cases q with
  | inSet complement members => exact ⟨complement, members, rfl⟩
  | base | quoted | openset | complemented => exact h.elim

variable {p : List Char} {q : ReadState}

/-- A first member that is no bracket and no `^` is like the others. -/
lemma run_openset (hcomplement : ∀ s, p ≠ '^' :: s) (hbracket : ∀ s, p ≠ ']' :: s) :
    yloTranslator.run .openset p = yloTranslator.run (.inSet false []) p := by
  cases p with
  | nil => rfl
  | cons c s =>
    have hc : c ≠ '^' := fun h => hcomplement s (by rw [h])
    have hc' : c ≠ ']' := fun h => hbracket s (by rw [h])
    simp only [Transducer.run_cons, yloTranslator, mooReader, reader, if_neg hc, if_neg hc',
      List.nil_append]

lemma run_complemented (hbracket : ∀ s, p ≠ ']' :: s) :
    yloTranslator.run .complemented p = yloTranslator.run (.inSet true []) p := by
  cases p with
  | nil => rfl
  | cons c s =>
    have hc : c ≠ ']' := fun h => hbracket s (by rw [h])
    simp only [Transducer.run_cons, yloTranslator, mooReader, reader, if_neg hc, List.nil_append]

lemma translatePatternLoop_eq {b : Bool} (h : LoopAt b q) :
    translatePatternLoop b p = yloTranslator.run q p := by
  fun_induction translatePatternLoop b p generalizing q with
  | case1 =>
    obtain ⟨complement, members, rfl⟩ := h.eq_inSet
    rfl
  | case2 p ih =>
    obtain ⟨complement, members, rfl⟩ := h.eq_inSet
    rw [@ih .base trivial]
    exact (yloTranslator.run_cons (.inSet complement members) ']' p).symm
  | case3 c p hc ih =>
    obtain ⟨complement, members, rfl⟩ := h.eq_inSet
    rw [@ih (.inSet complement (members ++ [c])) trivial, Transducer.run_cons]
    simp only [yloTranslator, mooReader, reader, if_neg hc, List.singleton_append]
  | case4 =>
    rw [h.eq_base]
    rfl
  | case5 =>
    rw [h.eq_base]
    rfl
  | case6 c p ih =>
    rw [h.eq_base, @ih .base trivial, Transducer.run_cons, Transducer.run_cons, Option.map_map]
    rfl
  | case7 p ih =>
    rw [h.eq_base, @ih .base trivial]
    exact (yloTranslator.run_append .base ['\\'] p).symm
  | case8 p ih =>
    rw [h.eq_base, @ih (.inSet true [']']) trivial]
    exact (yloTranslator.run_append .base ['[', '^', ']'] p).symm
  | case9 p hbracket ih =>
    rw [h.eq_base, @ih (.inSet true []) trivial, ← run_complemented hbracket]
    exact (yloTranslator.run_append .base ['[', '^'] p).symm
  | case10 p ih =>
    rw [h.eq_base, @ih (.inSet false [']']) trivial]
    exact (yloTranslator.run_append .base ['[', ']'] p).symm
  | case11 p _ hcomplement hbracket ih =>
    rw [h.eq_base, @ih (.inSet false []) trivial, ← run_openset hcomplement hbracket]
    exact (yloTranslator.run_append .base ['['] p).symm
  | case12 c p hpercent hbackslash hset ih =>
    rw [h.eq_base, @ih .base trivial, Transducer.run_cons]
    simp only [yloTranslator, mooReader, reader, if_neg hpercent, if_neg hbackslash, if_neg hset,
      List.singleton_append]

/-! ## Reading the translation -/

/-- Where a reader of the translation is. Behind a `%` nothing has been written. -/
def ReadState.ylo : ReadState → ReadState
  | .quoted => .base
  | q => q

/-- The character is not a backslash that is quoted. -/
def KeepsBackslash (q : ReadState) (c : Char) : Prop := q = .quoted → c ≠ '\\'

instance (q : ReadState) (c : Char) : Decidable (KeepsBackslash q c) :=
  inferInstanceAs (Decidable (_ → _))

lemma ops_special {c : Char} (h : isYloSpecial c = true) : quotedOps c = percentOps c := by
  have hall : ".*+?[^$|()123456789bB<>wW".toList.all fun c => quotedOps c = percentOps c := by
    decide
  exact of_decide_eq_true (List.all_eq_true.mp hall c (List.contains_iff_mem.mp h))

lemma mem_digits {c : Char} (h : c.isDigit = true) : c ∈ "0123456789".toList := by
  have hbounds : 48 ≤ c.toNat ∧ c.toNat ≤ 57 := by
    simpa [Char.isDigit, UInt32.le_iff_toNat_le] using h
  have hall : ∀ n < 10, Char.ofNat (48 + n) ∈ "0123456789".toList := by decide
  have hmem := hall (c.toNat - 48) (by omega)
  rwa [Nat.add_sub_cancel' hbounds.1, Char.ofNat_toNat] at hmem

lemma plainOps_of_not_special {c : Char} (h : isYloSpecial c = false) : plainOps c = .normal c := by
  unfold plainOps
  split
  case h_7 => rfl
  all_goals exact absurd h (by decide)

lemma percentOps_of_not_special {c : Char} (h : isYloSpecial c = false) :
    percentOps c = .normal c := by
  unfold percentOps
  split
  case h_10 =>
    refine if_neg fun hdigit => ?_
    obtain ⟨hdigit, hzero⟩ := Bool.and_eq_true_iff.mp hdigit
    have hall : "0123456789".toList.all fun c => c = '0' || isYloSpecial c := by decide
    have hspecial := List.all_eq_true.mp hall c (mem_digits hdigit)
    rw [h, Bool.or_false] at hspecial
    exact bne_iff_ne.mp hzero (of_decide_eq_true hspecial)
  all_goals exact absurd h (by decide)

lemma yloReader_feed (c : Char) (h : KeepsBackslash q c) :
    yloReader.feed q.ylo (yloTranslator.step q c).1
      = ((mooReader.step q c).1.flatMap fun t => [t], (mooReader.step q c).2.ylo) := by
  cases q with
  | base =>
    by_cases hpercent : c = '%'
    · rw [hpercent]
      rfl
    by_cases hbackslash : c = '\\'
    · rw [hbackslash]
      rfl
    by_cases hset : c = '['
    · rw [hset]
      rfl
    simp only [yloTranslator, mooReader, yloReader, reader, ReadState.ylo, if_neg hpercent,
      if_neg hbackslash, if_neg hset, Transducer.feed_singleton]
    rfl
  | quoted =>
    cases hspecial : isYloSpecial c with
    | true =>
      have hread : yloReader.feed .base ['\\', c] = ([quotedOps c], .base) := rfl
      simp only [yloTranslator, hspecial, if_true, ReadState.ylo, hread, ops_special hspecial]
      rfl
    | false =>
      have hset : c ≠ '[' := fun hc => absurd hspecial (by rw [hc]; decide)
      have hread : yloReader.feed .base [c] = ([plainOps c], .base) := by
        simp only [Transducer.feed_singleton, yloReader, reader, if_neg (h rfl), if_neg hset]
      simp only [yloTranslator, hspecial, Bool.false_eq_true, if_false, ReadState.ylo, hread,
        plainOps_of_not_special hspecial]
      simp only [mooReader, reader, percentOps_of_not_special hspecial]
      rfl
  | openset =>
    by_cases hc : c = '^'
    · rw [hc]
      rfl
    simp only [yloTranslator, mooReader, yloReader, reader, ReadState.ylo, if_neg hc,
      Transducer.feed_singleton]
    rfl
  | complemented => rfl
  | inSet complement members =>
    by_cases hc : c = ']'
    · rw [hc]
      rfl
    simp only [yloTranslator, mooReader, yloReader, reader, ReadState.ylo, if_neg hc,
      Transducer.feed_singleton]
    rfl

lemma translatePattern_eq (p : List Char) : translatePattern p = yloTranslator.run .base p :=
  translatePatternLoop_eq trivial

lemma translatePattern_isSome (p : List Char) :
    (translatePattern p).isSome = (mooTokens p).isSome := by
  rw [translatePattern_eq]
  refine Transducer.run_isSome (T := yloTranslator) (M := mooReader) (f := id) (fun q c => rfl)
    (fun q => ?_) .base p
  cases q with
  | base | quoted | openset | complemented | inSet => rfl

lemma yloTokens_translatePattern (h : mooReader.Along KeepsBackslash .base p) :
    (translatePattern p).bind yloTokens = mooTokens p := by
  have hbind : (yloTranslator.run .base p).bind (yloReader.run .base)
      = (mooReader.run .base p).map (·.flatMap (fun t => [t]) ++ []) := by
    refine Transducer.run_bind (T := yloTranslator) (M := mooReader) (L := yloReader) (f := id)
      (g := ReadState.ylo) (fun q c => rfl) (fun q c hc => yloReader_feed c hc) (fun q => ?_) h
    cases q with
    | base | quoted | openset | complemented | inSet => rfl
  rw [translatePattern_eq]
  refine hbind.trans ?_
  simp only [List.append_nil, List.flatMap_singleton', mooTokens]
  exact congrFun Option.map_id _

/-! ## The length of the translation -/

/-- The characters that the bundled engine takes for themselves only when they are quoted. -/
def isPlainSpecial (c : Char) : Bool := ".^$?*+\\[".toList.contains c

/-- The characters that the bundled engine needs for a token. -/
def Token.yloLength : Token → Nat
  | .normal c => if isPlainSpecial c then 2 else 1
  | .anychar | .bol | .eol | .optional | .star | .plus => 1
  | .set complement members => members.length + (if complement then 3 else 2)
  | _ => 2

/-- The characters of a token that have been read. -/
def ReadState.read : ReadState → Nat
  | .base => 0
  | .quoted => 1
  | .openset => 1
  | .complemented => 2
  | .inSet complement members => members.length + (if complement then 2 else 1)

lemma yloLength_plainOps {c : Char} (hbackslash : c ≠ '\\') (hset : c ≠ '[') :
    (plainOps c).yloLength = 1 := by
  unfold plainOps
  split
  case h_7 hdot hbol heol hoptional hstar hplus =>
    refine if_neg fun hc => ?_
    have hcases : c = '.' ∨ c = '^' ∨ c = '$' ∨ c = '?' ∨ c = '*' ∨ c = '+' ∨ c = '\\' ∨
        c = '[' := by simpa [isPlainSpecial] using hc
    tauto
  all_goals rfl

lemma yloLength_normal (c : Char) :
    (Token.normal c).yloLength = if isPlainSpecial c then 2 else 1 := rfl

lemma yloLength_set (complement : Bool) (members : List Char) :
    (Token.set complement members).yloLength = members.length + (if complement then 3 else 2) := rfl

lemma yloLength_le_two (c : Char) : (Token.normal c).yloLength ≤ 2 := by
  rw [yloLength_normal]
  split_ifs <;> omega

lemma yloLength_quotedOps (c : Char) : (quotedOps c).yloLength ≤ 2 := by
  unfold quotedOps
  split
  case h_12 =>
    split_ifs
    · exact Nat.le_refl 2
    · exact yloLength_le_two c
  all_goals exact Nat.le_refl 2

lemma one_le_yloLength (t : Token) : 1 ≤ t.yloLength := by
  cases t with
  | normal c =>
    rw [yloLength_normal]
    split_ifs <;> omega
  | set complement members =>
    rw [yloLength_set]
    split_ifs <;> omega
  | anychar | bol | eol | optional | star | plus => exact Nat.le_refl 1
  | _ => exact Nat.le_succ 1

/-- A backslash that is quoted is a character short. -/
lemma length_quoted_le (c : Char) :
    (if isYloSpecial c then ['\\', c] else [c]).length + (if c = '\\' then 1 else 0)
      ≤ (percentOps c).yloLength := by
  by_cases hbackslash : c = '\\'
  · rw [hbackslash]
    decide
  rw [if_neg hbackslash, Nat.add_zero]
  cases hspecial : isYloSpecial c with
  | true =>
    have hall : ".*+?[^$|()123456789bB<>wW".toList.all fun c => 2 ≤ (percentOps c).yloLength := by
      decide
    exact of_decide_eq_true (List.all_eq_true.mp hall c (List.contains_iff_mem.mp hspecial))
  | false => exact one_le_yloLength _

lemma yloReader_read (q : ReadState) (c : Char) :
    ((yloReader.step q c).1.map Token.yloLength).sum + (yloReader.step q c).2.read
      ≤ q.read + 1 := by
  cases q with
  | base =>
    by_cases hbackslash : c = '\\'
    · rw [hbackslash]
      exact Nat.le_refl 1
    by_cases hset : c = '['
    · rw [hset]
      exact Nat.le_refl 1
    simp only [yloReader, reader, if_neg hbackslash, if_neg hset, List.map_singleton,
      List.sum_singleton, yloLength_plainOps hbackslash hset, ReadState.read]
    omega
  | quoted =>
    have hle := yloLength_quotedOps c
    simp only [yloReader, reader, List.map_singleton, List.sum_singleton, ReadState.read]
    omega
  | openset =>
    by_cases hc : c = '^'
    · rw [hc]
      exact Nat.le_refl 2
    simp only [yloReader, reader, if_neg hc]
    exact Nat.le_refl 2
  | complemented => exact Nat.le_refl 3
  | inSet complement members =>
    by_cases hc : c = ']'
    · simp only [yloReader, reader, if_pos hc, List.map_singleton, List.sum_singleton,
        yloLength_set, ReadState.read]
      cases complement <;> simp
    · simp only [yloReader, reader, if_neg hc, ReadState.read, List.map_nil, List.sum_nil,
        List.length_append, List.length_singleton]
      omega

lemma yloLength_le {text : List Char} {ts : List Token} (h : yloTokens text = some ts) :
    (ts.map Token.yloLength).sum ≤ text.length := by
  have hle := yloReader.weight_le Token.yloLength ReadState.read yloReader_read
    (fun q out hq => ?_) h
  · rwa [ReadState.read, Nat.zero_add] at hle
  · cases q with
    | base =>
      obtain rfl : [] = out := Option.some_injective _ hq
      exact Nat.le_refl 0
    | quoted | openset | complemented | inSet => cases hq

/-- The characters of a token for which something has been written. -/
def ReadState.written : ReadState → Nat
  | .quoted => 0
  | q => q.read

lemma yloTranslator_written (q : ReadState) (c : Char) :
    (yloTranslator.step q c).1.length + q.written + (if q = .quoted ∧ c = '\\' then 1 else 0)
      ≤ ((mooReader.step q c).1.map Token.yloLength).sum + (mooReader.step q c).2.written := by
  cases q with
  | base =>
    by_cases hpercent : c = '%'
    · rw [hpercent]
      exact Nat.le_refl 0
    by_cases hbackslash : c = '\\'
    · rw [hbackslash]
      decide
    by_cases hset : c = '['
    · rw [hset]
      exact Nat.le_refl 1
    simp only [yloTranslator, mooReader, reader, if_neg hpercent, if_neg hbackslash, if_neg hset,
      List.map_singleton, List.sum_singleton, yloLength_plainOps hbackslash hset]
    exact Nat.le_refl 1
  | quoted =>
    have hle := length_quoted_le c
    simp only [yloTranslator, mooReader, reader, List.map_singleton, List.sum_singleton,
      ReadState.written, ReadState.read, true_and]
    omega
  | openset =>
    by_cases hc : c = '^'
    · rw [hc]
      exact Nat.le_refl 2
    simp only [yloTranslator, mooReader, reader, if_neg hc]
    exact Nat.le_refl 2
  | complemented => exact Nat.le_refl 3
  | inSet complement members =>
    by_cases hc : c = ']'
    · simp only [yloTranslator, mooReader, reader, if_pos hc, List.map_singleton,
        List.sum_singleton, yloLength_set, ReadState.written, ReadState.read]
      cases complement <;> simp <;> omega
    · simp only [yloTranslator, mooReader, reader, if_neg hc, ReadState.written, ReadState.read,
        List.map_nil, List.sum_nil, List.length_append, List.length_singleton]
      simp
      omega

/-- The translation is at most as long as the tokens need, and shorter if a backslash was
quoted. -/
lemma translation_length {q : ReadState} {p text : List Char} {ts : List Token}
    (htext : yloTranslator.run q p = some text) (hts : mooReader.run q p = some ts) :
    text.length + q.written ≤ (ts.map Token.yloLength).sum ∧
      (¬ mooReader.Along KeepsBackslash q p →
        text.length + q.written < (ts.map Token.yloLength).sum) := by
  induction p generalizing q text ts with
  | nil =>
    refine ⟨?_, fun hnot => absurd trivial hnot⟩
    cases q with
    | base =>
      obtain rfl : [] = text := Option.some_injective _ htext
      exact Nat.zero_le _
    | quoted | openset | complemented | inSet => cases hts
  | cons c p ih =>
    obtain ⟨text', htext', rfl⟩ := Option.map_eq_some_iff.mp htext
    obtain ⟨ts', hts', rfl⟩ := Option.map_eq_some_iff.mp hts
    obtain ⟨hle, hlt⟩ := @ih (mooReader.step q c).2 _ _ htext' hts'
    have hstep := yloTranslator_written q c
    rw [List.length_append, List.map_append, List.sum_append]
    refine ⟨by omega, fun hnot => ?_⟩
    by_cases hkeeps : KeepsBackslash q c
    · have hlt := hlt fun hrest => hnot ⟨hkeeps, hrest⟩
      omega
    · rw [if_pos (by simpa [KeepsBackslash] using hkeeps)] at hstep
      omega

/-! ## Correctness -/

/-- A pattern without tokens is refused, and the others are translated to a pattern with the same
tokens. -/
structure YloRight (pattern : List Char) : Prop where
  refused : mooTokens pattern = none → translatePattern pattern = none
  translated : ∀ ts, mooTokens pattern = some ts →
    ∃ text, translatePattern pattern = some text ∧ yloTokens text = some ts

/-- `translate_pattern` is right unless a `%` quotes a backslash. -/
lemma yloRight_iff (p : List Char) :
    YloRight p ↔ (mooTokens p).isSome → mooReader.Along KeepsBackslash .base p := by
  have hsome := translatePattern_isSome p
  constructor
  · intro hright htokens
    obtain ⟨ts, hts⟩ := Option.isSome_iff_exists.mp htokens
    obtain ⟨text, htext, hread⟩ := hright.translated ts hts
    by_contra hnot
    rw [translatePattern_eq] at htext
    have hlt := (translation_length htext hts).2 hnot
    have hle := yloLength_le hread
    omega
  · intro halong
    refine ⟨fun hnone => ?_, fun ts hts => ?_⟩
    · rw [hnone] at hsome
      exact Option.isSome_eq_false_iff.mp hsome |> Option.isNone_iff_eq_none.mp
    · have htokens : (mooTokens p).isSome = true := by rw [hts]; rfl
      obtain ⟨text, htext⟩ := Option.isSome_iff_exists.mp (hsome.trans htokens)
      have hread := yloTokens_translatePattern (halong htokens)
      rw [htext, Option.bind_some, hts] at hread
      exact ⟨text, htext, hread⟩

end LambdaMOO.Regexp
