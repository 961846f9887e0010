import LambdaMOO.Parser.Lexer

/-!
# What the scanner reads

Each token is spelled by the characters that `yylex` takes of the input behind blanks and
comments; the look-ahead goes back to the input in order, and the buffer has room for it.
-/

namespace LambdaMOO

open Scanner

variable {t : IntType}

/-- What a comment reads behind its beginning. A star hides the character after it, unless
that ends the comment. -/
inductive CommentRest : List Char → Prop
  | close : CommentRest ['*', '/']
  | char {c : Char} {s : List Char} : c ≠ '*' → CommentRest s → CommentRest (c :: s)
  | star {c : Char} {s : List Char} : c ≠ '/' → CommentRest s → CommentRest ('*' :: c :: s)

/-- Blanks and comments. -/
inductive Blank (tb : UtfCtype) : List Char → Prop
  | nil : Blank tb []
  | space {c : Char} {s : List Char} : tb.isSpace c → Blank tb s → Blank tb (c :: s)
  | comment {r s : List Char} : CommentRest r → Blank tb s → Blank tb ('/' :: '*' :: (r ++ s))

/-- The text of a token. A number is what the library makes of its digits, which are all in
the text; about strings, keywords and malformed numbers there is nothing to say. -/
def Token.Spelled (cfg : LexConfig t) (s : List Char) : Token t → Prop
  | .tINTEGER num => ∃ i, strtoimax ('-' :: s.map (digitChar cfg.tb)) = (i, [], false) ∧
      num = BitVec.ofInt t.bits (-i)
  | .tFLOAT d => cfg.fl.strtoflnum (s.map (digitChar cfg.tb)) = (some d, [])
  | .tOBJECT obj => ∃ u i, s = '#' :: u ∧ strtoimax (u.map (digitChar cfg.tb)) = (i, [], false) ∧
      obj = BitVec.ofInt t.bits i
  | .tID u => s = u
  | .eof | .malformed | .tSTRING _ | .tERROR _ | .keyword _ => True
  | token => token.text = some s

/-- Behind `pre`, the scanner takes some text of `cs` for a value as `P` tells. At the
beginning and at the end at most four characters are pushed back. -/
def Scans {β : Type} (m : Lex β) (pre cs : List Char) (P : List Char → β → Prop) : Prop :=
  ∃ a text rest, Reads m 4 cs a 4 rest ∧ cs = text ++ rest ∧ P (pre ++ text) a

namespace Scans

variable {β γ : Type} {m : Lex β} {f : β → Lex γ} {pre cs : List Char} {P : List Char → γ → Prop}

lemma pure {a : γ} (h : P pre a) : Scans (Pure.pure a) pre cs P :=
  ⟨a, [], cs, Reads.pure a, rfl, by rwa [List.append_nil]⟩

lemma bind (h : Scans m pre cs fun s a => ∀ rest, Scans (f a) s rest P) :
    Scans (m >>= f) pre cs P := by
  obtain ⟨a, text, rest, hm, rfl, hf⟩ := h
  obtain ⟨d, text', rest', hd, rfl, hP⟩ := hf rest
  exact ⟨d, text ++ text', rest', hm.bind hd, (List.append_assoc ..).symm,
    by rwa [← List.append_assoc]⟩

lemma getItem_nil {f : Option Char → Lex γ} (h : Scans (f none) pre [] P) :
    Scans (getItem >>= f) pre [] P := by
  obtain ⟨a, text, rest, hf, htext, hP⟩ := h
  exact ⟨a, text, rest, (Reads.getItem.bind hf).mono (Nat.le_succ 4) (Nat.le_refl 4), htext, hP⟩

lemma getItem_cons {f : Option Char → Lex γ} {c : Char}
    (h : Scans (f (some c)) (pre ++ [c]) cs P) : Scans (getItem >>= f) pre (c :: cs) P := by
  obtain ⟨a, text, rest, hf, rfl, hP⟩ := h
  refine ⟨a, c :: text, rest, (Reads.getItem.bind hf).mono (Nat.le_succ 4) (Nat.le_refl 4), rfl, ?_⟩
  rwa [List.append_assoc] at hP

/-- A character that is pushed back is not taken. -/
lemma getItem_unget {f : Option Char → Lex γ} {g : Lex γ}
    (hf : f cs.head? = unget cs.head? >>= fun _ => g) (hg : Scans g pre cs P) :
    Scans (getItem >>= f) pre cs P := by
  obtain ⟨a, text, rest, hm, rfl, hP⟩ := hg
  refine ⟨a, text, rest, Reads.getItem.bind ?_, rfl, hP⟩
  rw [hf]
  exact (Reads.unget (by decide)).bind hm

lemma mono {Q : List Char → γ → Prop} {m : Lex γ} (h : Scans m pre cs P)
    (hPQ : ∀ s a, P s a → Q s a) : Scans m pre cs Q := by
  obtain ⟨a, text, rest, hm, hcs, hP⟩ := h
  exact ⟨a, text, rest, hm, hcs, hPQ _ a hP⟩

end Scans

variable {cfg : LexConfig t} {cs pre : List Char}

lemma scans_follow {τ : Type} {e : Char} {y n : τ} {P : List Char → τ → Prop}
    (hy : P (pre ++ [e]) y) (hn : P pre n) : Scans (follow e y n) pre cs P := by
  by_cases h : cs.head? = some e
  · obtain ⟨cs, rfl⟩ := List.head?_eq_some_iff.mp h
    refine Scans.getItem_cons ?_
    rw [if_pos rfl]
    exact Scans.pure hy
  · refine Scans.getItem_unget ?_ (Scans.pure hn)
    rw [if_neg h]

lemma scans_checkbitwise {P : List Char → Option (Token t) → Prop}
    (hy : ∀ c token, bitOperator (some c) = some token → P (pre ++ [c, '.']) (some token))
    (hn : P pre none) : Scans (checkbitwise cfg) pre cs P := by
  unfold checkbitwise
  split_ifs with hbit
  swap
  · exact Scans.pure hn
  cases cs with
  | nil => exact Scans.getItem_unget rfl (Scans.pure hn)
  | cons c cs =>
    by_cases h : cs.head? = some '.' ∧ (bitOperator (some c) : Option (Token t)) ≠ none
    · obtain ⟨token, htoken⟩ := Option.ne_none_iff_exists'.mp h.2
      obtain ⟨cs, rfl⟩ := List.head?_eq_some_iff.mp h.1
      refine Scans.getItem_cons ?_
      rw [if_neg (Option.some_ne_none c)]
      refine Scans.getItem_cons ?_
      rw [if_pos ⟨rfl, h.2⟩, htoken]
      refine Scans.pure ?_
      rw [List.append_assoc]
      exact hy c token htoken
    · -- both characters go back, the second one first
      refine ⟨none, [], c :: cs, ?_, rfl, by rwa [List.append_nil]⟩
      refine Reads.getItem.bind ?_
      rw [List.head?_cons, if_neg (Option.some_ne_none c)]
      refine Reads.getItem.bind ?_
      rw [List.tail_cons, if_neg h]
      exact (Reads.unget (by decide)).bind ((Reads.unget_some (by decide)).bind (Reads.pure none))

lemma scans_checkrightshift {τ : Type} {two one none : τ} {P : List Char → τ → Prop}
    (htwo : P (pre ++ ['>', '>']) two) (hone : P (pre ++ ['>']) one) (hnone : P pre none) :
    Scans (checkrightshift two one none) pre cs P := by
  by_cases h : cs.head? = some '>'
  · obtain ⟨cs, rfl⟩ := List.head?_eq_some_iff.mp h
    refine Scans.getItem_cons ?_
    rw [if_neg (not_not.mpr rfl)]
    by_cases h' : cs.head? = some '>'
    · obtain ⟨cs, rfl⟩ := List.head?_eq_some_iff.mp h'
      refine Scans.getItem_cons ?_
      rw [if_neg (not_not.mpr rfl)]
      refine Scans.pure ?_
      rwa [List.append_assoc]
    · refine Scans.getItem_unget ?_ (Scans.pure hone)
      rw [if_pos h']
  · refine Scans.getItem_unget ?_ (Scans.pure hnone)
    rw [if_pos h]

lemma scans_normalDot :
    Scans (normalDot cfg) ['.'] cs fun s token => token.Spelled cfg s := by
  refine Scans.bind (scans_checkbitwise (fun c token h rest => ?_) fun rest => ?_)
  · refine Scans.pure ?_
    unfold bitOperator at h
    split at h <;> simp_all only [Option.some.injEq, reduceCtorEq]
    all_goals
      subst h
      rfl
  · exact scans_follow rfl rfl

lemma scans_operator (c : Char) :
    Scans (operator cfg c) [c] cs fun s token => token.Spelled cfg s := by
  unfold operator
  split_ifs with hgt hbit hlt hbit' heq hne hor hand hdot hcompl hc
  · subst hgt
    refine Scans.bind (scans_follow (fun rest => Scans.pure rfl) fun rest => ?_)
    exact scans_checkrightshift rfl rfl rfl
  · subst hgt
    exact Scans.bind (scans_follow (fun rest => Scans.pure rfl) fun rest => Scans.pure rfl)
  · subst hlt
    exact Scans.bind (scans_follow (fun rest => Scans.pure rfl) fun rest => scans_follow rfl rfl)
  · subst hlt
    exact Scans.bind (scans_follow (fun rest => Scans.pure rfl) fun rest => Scans.pure rfl)
  · subst heq
    exact Scans.bind (scans_follow (fun rest => Scans.pure rfl) fun rest => scans_follow rfl rfl)
  · subst hne
    exact scans_follow rfl rfl
  · subst hor
    exact scans_follow rfl rfl
  · subst hand
    exact scans_follow rfl rfl
  · subst hdot
    exact scans_normalDot
  · exact Scans.pure rfl
  · exact Scans.pure rfl
  · exact Scans.pure rfl

/-! ## Loops -/

/-- The loop does the same with any fuel that exceeds what is left of the input. -/
def ScansLoop {β : Type} (f : ℕ → Lex β) (cs : List Char) (P : List Char → β → Prop) : Prop :=
  ∃ a text rest, (∀ k, cs.length < k → Reads (f k) 4 cs a 4 rest) ∧ cs = text ++ rest ∧ P text a

lemma ScansLoop.fueled {β : Type} {f : ℕ → Lex β} {P : List Char → β → Prop}
    (h : ScansLoop f cs P) : Scans (fueled f) [] cs P := by
  obtain ⟨a, text, rest, hf, hcs, hP⟩ := h
  exact ⟨a, text, rest, Reads.fueled hf, hcs, hP⟩

lemma reads_skipBlanks {k : ℕ} (hk : cs.length < k) :
    Reads (skipBlanks cfg k) 4 cs (cs.dropWhile cfg.tb.isSpace).head? 3
      (cs.dropWhile cfg.tb.isSpace).tail := by
  induction cs generalizing k with
  | nil =>
    obtain ⟨k, rfl⟩ := Nat.exists_eq_succ_of_ne_zero (Nat.ne_zero_of_lt hk)
    exact Reads.getItem.bind (Reads.pure none)
  | cons c cs ih =>
    obtain ⟨k, rfl⟩ := Nat.exists_eq_succ_of_ne_zero (Nat.ne_zero_of_lt hk)
    refine Reads.getItem.bind ?_
    rw [List.head?_cons, List.tail_cons, Option.any_some, List.dropWhile_cons]
    split_ifs with hspace
    · exact (ih (Nat.lt_of_succ_lt_succ hk)).mono (by decide) (Nat.le_refl 3)
    · exact Reads.pure (some c)

lemma reads_identifier {k : ℕ} (hk : cs.length < k) (s : List Char) :
    Reads (identifier cfg k s) 4 cs (s ++ cs.takeWhile cfg.isIdChar) 4
      (cs.dropWhile cfg.isIdChar) := by
  induction cs generalizing k s with
  | nil =>
    obtain ⟨k, rfl⟩ := Nat.exists_eq_succ_of_ne_zero (Nat.ne_zero_of_lt hk)
    rw [List.takeWhile_nil, List.append_nil]
    exact Reads.getItem.bind ((Reads.unget (by decide)).bind (Reads.pure s))
  | cons c cs ih =>
    obtain ⟨k, rfl⟩ := Nat.exists_eq_succ_of_ne_zero (Nat.ne_zero_of_lt hk)
    refine Reads.getItem.bind ?_
    rw [List.takeWhile_cons, List.dropWhile_cons]
    by_cases hc : cfg.isIdChar c = true
    · rw [if_pos hc, if_pos hc, List.append_cons]
      dsimp only [List.head?_cons]
      rw [if_pos hc]
      exact (ih (Nat.lt_of_succ_lt_succ hk) _).mono (by decide) (Nat.le_refl 4)
    · rw [if_neg hc, if_neg hc, List.append_nil]
      dsimp only [List.head?_cons]
      rw [if_neg hc]
      exact (Reads.unget_some (by decide)).bind (Reads.pure s)

/-- A round of the loop takes `u`, which stands for the character `d`. -/
lemma scans_string_char {u cs s : List Char} {d : Char}
    (hu : ∀ {k : ℕ} {a : List Char × Bool} {rest : List Char},
      Reads (if d = '\n' then pure (s, true) else string k (s ++ [d])) 4 cs a 4 rest →
        Reads (string (k + 1) s) 4 (u ++ cs) a 4 rest)
    (ih : ScansLoop (fun k => string k (s ++ [d])) cs fun _ _ => True) (hpos : 0 < u.length) :
    ScansLoop (fun k => string k s) (u ++ cs) fun _ _ => True := by
  by_cases hnl : d = '\n'
  · refine ⟨(s, true), u, cs, fun k hk => ?_, rfl, trivial⟩
    obtain ⟨k, rfl⟩ := Nat.exists_eq_succ_of_ne_zero (Nat.ne_zero_of_lt hk)
    apply hu
    rw [if_pos hnl]
    exact Reads.pure _
  · obtain ⟨a, text, rest, hf, hcs, -⟩ := ih
    refine ⟨a, u ++ text, rest, fun k hk => ?_, by rw [hcs, List.append_assoc], trivial⟩
    obtain ⟨k, rfl⟩ := Nat.exists_eq_succ_of_ne_zero (Nat.ne_zero_of_lt hk)
    rw [List.length_append] at hk
    apply hu
    rw [if_neg hnl]
    exact hf k (by omega)

lemma scans_string (cs s : List Char) :
    ScansLoop (fun k => string k s) cs fun _ _ => True := by
  match cs with
  | [] =>
    refine ⟨(s, true), [], [], fun k hk => ?_, rfl, trivial⟩
    obtain ⟨k, rfl⟩ := Nat.exists_eq_succ_of_ne_zero (Nat.ne_zero_of_lt hk)
    exact (Reads.getItem.bind (Reads.pure (s, true))).mono (Nat.le_refl 4) (Nat.sub_le 4 1)
  | c :: cs =>
    by_cases hquote : c = '"'
    · subst hquote
      refine ⟨(s, false), ['"'], cs, fun k hk => ?_, rfl, trivial⟩
      obtain ⟨k, rfl⟩ := Nat.exists_eq_succ_of_ne_zero (Nat.ne_zero_of_lt hk)
      exact (Reads.getItem.bind (Reads.pure (s, false))).mono (Nat.le_refl 4) (Nat.sub_le 4 1)
    by_cases hback : c = '\\'
    · subst hback
      match cs with
      | [] =>
        refine ⟨(s, true), ['\\'], [], fun k hk => ?_, rfl, trivial⟩
        obtain ⟨k, rfl⟩ := Nat.exists_eq_succ_of_ne_zero (Nat.ne_zero_of_lt hk)
        exact (Reads.getItem.bind (Reads.getItem.bind (Reads.pure (s, true)))).mono
          (Nat.le_refl 4) (Nat.sub_le 4 2)
      | d :: cs =>
        exact scans_string_char (u := ['\\', d])
          (fun h => Reads.getItem.bind
            (Reads.getItem.bind (h.mono (Nat.sub_le 4 2) (Nat.le_refl 4))))
          (scans_string cs (s ++ [d])) (by simp)
    · refine scans_string_char (u := [c]) (fun h => Reads.getItem.bind ?_)
        (scans_string cs (s ++ [c])) (by simp)
      rw [List.head?_append, List.head?_cons, Option.some_or, if_neg (by simpa using hquote),
        if_neg (by simpa using hback)]
      exact (Reads.pure (some c)).bind (h.mono (Nat.sub_le 4 1) (Nat.le_refl 4))
termination_by cs.length

lemma scans_skipComment (cs : List Char) :
    ScansLoop skipComment cs fun text closed => closed = true → CommentRest text := by
  match cs with
  | [] =>
    refine ⟨false, [], [], fun k hk => ?_, rfl, by simp⟩
    obtain ⟨k, rfl⟩ := Nat.exists_eq_succ_of_ne_zero (Nat.ne_zero_of_lt hk)
    exact (Reads.getItem.bind (Reads.pure false)).mono (Nat.le_refl 4) (by decide)
  | c :: cs =>
    by_cases hstar : c = '*'
    · subst hstar
      match cs with
      | [] =>
        refine ⟨false, ['*'], [], fun k hk => ?_, rfl, by simp⟩
        obtain ⟨k, rfl⟩ := Nat.exists_eq_succ_of_ne_zero (Nat.ne_zero_of_lt hk)
        exact (Reads.getItem.bind (Reads.getItem.bind (Reads.pure false))).mono (Nat.le_refl 4)
          (by decide)
      | d :: cs =>
        by_cases hslash : d = '/'
        · subst hslash
          refine ⟨true, ['*', '/'], cs, fun k hk => ?_, rfl, fun _ => .close⟩
          obtain ⟨k, rfl⟩ := Nat.exists_eq_succ_of_ne_zero (Nat.ne_zero_of_lt hk)
          exact (Reads.getItem.bind (Reads.getItem.bind (Reads.pure true))).mono (Nat.le_refl 4)
            (by decide)
        · obtain ⟨a, text, rest, hf, rfl, hP⟩ := scans_skipComment cs
          refine ⟨a, '*' :: d :: text, rest, fun k hk => ?_, rfl, fun ha => .star hslash (hP ha)⟩
          obtain ⟨k, rfl⟩ := Nat.exists_eq_succ_of_ne_zero (Nat.ne_zero_of_lt hk)
          refine Reads.getItem.bind (Reads.getItem.bind ?_)
          rw [List.tail_cons, List.head?_cons, if_neg (by simpa using hslash),
            if_neg (Option.some_ne_none d)]
          simp only [List.length_cons] at hk
          exact (hf k (by omega)).mono (by decide) (Nat.le_refl 4)
    · obtain ⟨a, text, rest, hf, hcs, hP⟩ := scans_skipComment cs
      refine ⟨a, c :: text, rest, fun k hk => ?_, congrArg (c :: ·) hcs,
        fun ha => .char hstar (hP ha)⟩
      obtain ⟨k, rfl⟩ := Nat.exists_eq_succ_of_ne_zero (Nat.ne_zero_of_lt hk)
      refine Reads.getItem.bind ?_
      rw [List.head?_cons, if_neg (by simpa using hstar), if_neg (Option.some_ne_none c)]
      exact (hf k (Nat.lt_of_succ_lt_succ hk)).mono (by decide) (Nat.le_refl 4)
termination_by cs.length

/-! ## Tokens -/

/-- Behind `pre`, the scanner takes the rest of a token. There is room for two characters in
the buffer. -/
def Lexes (cfg : LexConfig t) (m : Lex (Lexed t)) (pre cs : List Char) : Prop :=
  ∃ l text rest, Reads m 3 cs l 4 rest ∧ cs = text ++ rest ∧ l.token.Spelled cfg (pre ++ text)

lemma Scans.lexes {m : Lex (Lexed t)}
    (h : Scans m pre cs fun s l => l.token.Spelled cfg s) : Lexes cfg m pre cs := by
  obtain ⟨l, text, rest, hm, hcs, hP⟩ := h
  exact ⟨l, text, rest, hm.mono (by decide) (Nat.le_refl 4), hcs, hP⟩

lemma lexes_malformed {m : Lex (Lexed t)} {text rest : List Char} {msg : Option String}
    (hcs : cs = text ++ rest) (h : Reads m 3 cs ⟨.malformed, msg⟩ 4 rest) : Lexes cfg m pre cs :=
  ⟨_, text, rest, h, hcs, trivial⟩

lemma lexes_objectNumber : Lexes cfg (objectNumber cfg) ['#'] cs := by
  obtain ⟨⟨st, rest⟩, hst⟩ : ∃ r, scanNum cfg.tb cfg.bitwise true (.start {}) cs = r := ⟨_, rfl⟩
  obtain ⟨hdot, hfloat⟩ : st.IsInt := by
    have hint : (scanNum cfg.tb cfg.bitwise true (.start {}) cs).1.IsInt :=
      NumState.IsInt.scanNum ⟨rfl, rfl⟩
    rwa [hst] at hint
  have hflags : PnFlags.IsUngetch {} := ⟨rfl, rfl, rfl, rfl⟩
  by_cases hbare : st.IsBare
  · have hread : Reads (parseNumber cfg.tb cfg.bitwise cfg.fl {} true cs.head? : Lex _) 2 cs.tail
        (.err .eNone) 4 cs :=
      reads_parseNumber_bare hflags (by simp) (by decide) hst hbare (Or.inr hdot)
    exact lexes_malformed (List.nil_append cs).symm (Reads.getItem.bind (hread.bind (Reads.pure _)))
  · obtain ⟨text, rfl, hns⟩ : ∃ text, cs = text ++ rest ∧ st.ns = text.map (digitChar cfg.tb) := by
      have htext : ∃ text, cs = text ++ (scanNum cfg.tb cfg.bitwise true (.start {}) cs).2 ∧
          (scanNum cfg.tb cfg.bitwise true (.start {}) cs).1.ns
            = [] ++ text.map (digitChar cfg.tb) := scanNum_text cs (.start {})
      rwa [hst] at htext
    have hread : Reads (parseNumber cfg.tb cfg.bitwise cfg.fl {} true (text ++ rest).head? : Lex _)
        2 (text ++ rest).tail (if st.digit then st.value cfg.fl {} else .err .eInvarg) 4 rest :=
      (reads_parseNumber_number hflags (by simp) (by decide) hst hbare).mono (Nat.le_refl 2)
        (by decide)
    have hvalue : st.value cfg.fl {} = intValue {} st.ns := by
      simp [NumState.value, hfloat]
    split_ifs at hread
    · rw [hvalue] at hread
      rcases intValue_cases {} st.ns with hv | hv | ⟨i, hi, hv⟩
      · rw [hv] at hread
        exact lexes_malformed rfl (Reads.getItem.bind (hread.bind (Reads.pure _)))
      · rw [hv] at hread
        exact lexes_malformed rfl (Reads.getItem.bind (hread.bind (Reads.pure _)))
      · rw [hv] at hread
        exact ⟨_, text, rest, Reads.getItem.bind (hread.bind (Reads.pure _)), rfl,
          text, i, rfl, hns ▸ hi, rfl⟩
    · exact lexes_malformed rfl (Reads.getItem.bind (hread.bind (Reads.pure _)))

/-- Behind a digit or a dot. -/
lemma lexes_number {c : Char} (hc : cfg.tb.isDigit c = true ∨ c = '.') :
    Lexes cfg (number cfg c) [c] cs := by
  let flags : PnFlags := { nonneg := true, floatOk := cfg.floatOk }
  obtain ⟨⟨st, rest⟩, hst⟩ : ∃ r,
      scanNum cfg.tb cfg.bitwise (!cfg.floatOk) (.start flags) (c :: cs) = r := ⟨_, rfl⟩
  have hflags : flags.IsUngetch := ⟨rfl, rfl, rfl, rfl⟩
  by_cases hbare : st.IsBare
  · -- a digit would have been taken
    obtain rfl : c = '.' := by
      apply hc.resolve_left
      intro hd
      have hnot : ¬ (scanNum cfg.tb cfg.bitwise (!cfg.floatOk) (.start flags) (c :: cs)).1.IsBare :=
        not_isBare_of_isDigit hd
      rw [hst] at hnot
      exact hnot hbare
    have hminus : st.minus = false := by
      have hseen := seen_append_rest hst hbare
      cases hm : st.minus with
      | false => rfl
      | true => simp [NumState.seen, hm] at hseen
    have hread : Reads (parseNumber cfg.tb cfg.bitwise cfg.fl flags true (some '.') : Lex _) 3 cs
        (.err .eNone) 5 ('.' :: cs) :=
      reads_parseNumber_bare hflags (fun _ => Nat.le_refl 3) (by decide) hst hbare (Or.inl hminus)
    obtain ⟨token, text, rest, hdot, hcs, hspell⟩ : Scans (normalDot cfg) ['.'] cs fun s token =>
        token.Spelled cfg s := scans_normalDot
    exact ⟨⟨token, none⟩, text, rest,
      hread.bind (Reads.getItem.bind (hdot.bind (Reads.pure _))), hcs, hspell⟩
  · obtain ⟨text, rfl, hns⟩ := scanNum_cons_text hst hbare
    have hread : Reads (parseNumber cfg.tb cfg.bitwise cfg.fl flags true (some c) : Lex _)
        3 (text ++ rest) (if st.digit then st.value cfg.fl flags else .err .eInvarg) 4 rest :=
      reads_parseNumber_number hflags (fun _ => Nat.le_refl 3) (by decide) hst hbare
    split_ifs at hread
    · unfold NumState.value at hread
      split_ifs at hread
      · rcases intValue_cases flags st.ns with hv | hv | ⟨i, hi, hv⟩
        · rw [hv] at hread
          exact lexes_malformed rfl (hread.bind (Reads.pure _))
        · rw [hv] at hread
          exact lexes_malformed rfl (hread.bind (Reads.pure _))
        · rw [hv] at hread
          rw [hns] at hi
          exact ⟨_, text, rest, hread.bind (Reads.pure _), rfl, i, hi, rfl⟩
      · have hreq : flags.reqInt = false := rfl
        rcases floatValue_cases hreq st.ns with hv | hv | ⟨d, hd, hv⟩
        · rw [hv] at hread
          exact lexes_malformed rfl (hread.bind (Reads.pure _))
        · rw [hv] at hread
          exact lexes_malformed rfl (hread.bind (Reads.pure _))
        · rw [hv] at hread
          rw [hns] at hd
          exact ⟨_, text, rest, hread.bind (Reads.pure _), rfl, hd⟩
    · exact lexes_malformed rfl (hread.bind (Reads.pure _))

lemma lexes_tokenFrom (c : Char) : Lexes cfg (tokenFrom cfg c) [c] cs := by
  unfold tokenFrom
  split_ifs with hobj hnum hid hquote
  · subst hobj
    exact lexes_objectNumber
  · apply lexes_number
    simp only [Bool.or_eq_true, Bool.and_eq_true, decide_eq_true_eq] at hnum
    exact hnum.imp_right And.left
  · have hread : Reads (fueled fun k => identifier cfg k [c]) 4 cs
        ([c] ++ cs.takeWhile cfg.isIdChar) 4 (cs.dropWhile cfg.isIdChar) :=
      Reads.fueled fun k hk => reads_identifier hk [c]
    refine Scans.lexes ⟨_, cs.takeWhile cfg.isIdChar, cs.dropWhile cfg.isIdChar,
      hread.bind (Reads.pure _), List.takeWhile_append_dropWhile.symm, ?_⟩
    show (cfg.idToken ([c] ++ cs.takeWhile cfg.isIdChar)).Spelled cfg _
    unfold LexConfig.idToken
    split
    · split_ifs
      · unfold Keyword.toToken
        split <;> trivial
      · rfl
    · rfl
  · obtain ⟨⟨s, missing⟩, text, rest, hread, hcs, -⟩ := (scans_string cs []).fueled
    exact Scans.lexes ⟨_, text, rest, hread.bind (Reads.pure _), hcs, trivial⟩
  · refine (Scans.bind ((scans_operator c).mono fun s token h rest => ?_)).lexes
    exact Scans.pure h

lemma Blank.append {tb : UtfCtype} {s s' : List Char} (h : Blank tb s) (h' : Blank tb s') :
    Blank tb (s ++ s') := by
  induction h with
  | nil => exact h'
  | space hc _ ih => exact .space hc ih
  | comment hr _ ih =>
    rw [List.cons_append, List.cons_append, List.append_assoc]
    exact .comment hr ih

lemma Blank.takeWhile (tb : UtfCtype) (cs : List Char) : Blank tb (cs.takeWhile tb.isSpace) := by
  induction cs with
  | nil => exact .nil
  | cons c cs ih =>
    rw [List.takeWhile_cons]
    split_ifs with hc
    · exact .space hc ih
    · exact .nil

/-- What `yylex` does with the input `cs`. -/
def LexesBlank (cfg : LexConfig t) (cs : List Char) (l : Lexed t) (rest : List Char) : Prop :=
  ∃ blank text, cs = blank ++ text ++ rest ∧ Blank cfg.tb blank ∧ l.token.Spelled cfg text

lemma LexesBlank.of_blank {blank : List Char} {l : Lexed t} {rest : List Char}
    (hb : Blank cfg.tb blank) (h : LexesBlank cfg cs l rest) :
    LexesBlank cfg (blank ++ cs) l rest := by
  obtain ⟨blank', text, rfl, hb', htext⟩ := h
  exact ⟨blank ++ blank', text, by simp only [List.append_assoc], hb.append hb', htext⟩

/-- What `start_over` does behind the blanks. -/
lemma lexesBlank_startOver (cfg : LexConfig t) (cs : List Char) :
    ∃ l rest, (∀ k, cs.length < k → Reads (startOver cfg k) 4 cs l 4 rest) ∧
      LexesBlank cfg cs l rest := by
  induction hn : cs.length using Nat.strongRecOn generalizing cs with
  | ind n ih =>
    have hskip : Reads (fueled (skipBlanks cfg)) 4 cs (cs.dropWhile cfg.tb.isSpace).head? 3
        (cs.dropWhile cfg.tb.isSpace).tail := Reads.fueled fun k hk => reads_skipBlanks hk
    have hblank := Blank.takeWhile cfg.tb cs
    have hcs := cs.takeWhile_append_dropWhile (p := cfg.tb.isSpace)
    have hlen := (List.dropWhile_suffix (l := cs) cfg.tb.isSpace).length_le
    generalize cs.takeWhile cfg.tb.isSpace = u at hblank hcs
    generalize cs.dropWhile cfg.tb.isSpace = v at hskip hcs hlen
    subst hcs
    cases v with
    | nil =>
      refine ⟨⟨.eof, none⟩, [], fun k hk => ?_, u, [], by simp, hblank, trivial⟩
      obtain ⟨k, rfl⟩ := Nat.exists_eq_succ_of_ne_zero (Nat.ne_zero_of_lt hk)
      exact hskip.bind ((Reads.pure _).mono (Nat.le_refl 3) (Nat.le_succ 3))
    | cons c v =>
      by_cases hslash : c = '/'
      · subst hslash
        by_cases hstar : v.head? = some '*'
        · obtain ⟨w, rfl⟩ := List.head?_eq_some_iff.mp hstar
          obtain ⟨closed, r, rest, hread, rfl, hclosed⟩ := (scans_skipComment w).fueled
          have hcomment : Reads (fueled skipComment) 2 (r ++ rest) closed 4 rest :=
            hread.mono (by decide) (Nat.le_refl 4)
          cases closed with
          | false =>
            refine ⟨⟨.eof, some "End of program while in a comment"⟩, rest, fun k hk => ?_,
              u, '/' :: '*' :: r, by simp, hblank, trivial⟩
            obtain ⟨k, rfl⟩ := Nat.exists_eq_succ_of_ne_zero (Nat.ne_zero_of_lt hk)
            exact hskip.bind (Reads.getItem.bind (hcomment.bind (Reads.pure _)))
          | true =>
            simp only [List.length_append, List.length_cons] at hn hlen
            obtain ⟨l, rest', hloop, hlex⟩ := ih rest.length (by omega) rest rfl
            have hblank' := hblank.append (.comment (hclosed rfl) .nil)
            have hlex' := hlex.of_blank hblank'
            refine ⟨l, rest', fun k hk => ?_, by simpa using hlex'⟩
            obtain ⟨k, rfl⟩ := Nat.exists_eq_succ_of_ne_zero (Nat.ne_zero_of_lt hk)
            exact hskip.bind (Reads.getItem.bind (hcomment.bind (hloop k (by omega))))
        · refine ⟨⟨.chr '/', none⟩, v, fun k hk => ?_, u, ['/'], by simp, hblank, rfl⟩
          obtain ⟨k, rfl⟩ := Nat.exists_eq_succ_of_ne_zero (Nat.ne_zero_of_lt hk)
          refine (hskip.bind (Reads.getItem.bind ?_))
          rw [List.tail_cons, if_neg hstar]
          have hunget : Reads (unget v.head? : Lex Unit) 2 v.tail () 3 v := Reads.unget (by decide)
          exact hunget.bind ((Reads.pure _).mono (Nat.le_refl 3) (Nat.le_succ 3))
      · obtain ⟨l, text, rest, hread, rfl, hspell⟩ : Lexes cfg (tokenFrom cfg c) [c] v :=
          lexes_tokenFrom c
        refine ⟨l, rest, fun k hk => ?_, u, c :: text, by simp, hblank, hspell⟩
        obtain ⟨k, rfl⟩ := Nat.exists_eq_succ_of_ne_zero (Nat.ne_zero_of_lt hk)
        refine (hskip.bind ?_)
        rw [List.head?_cons]
        dsimp only
        rw [if_neg hslash]
        exact hread

lemma lexes_yylex (cfg : LexConfig t) (cs : List Char) :
    ∃ l rest, Reads (yylex cfg) 4 cs l 4 rest ∧ LexesBlank cfg cs l rest := by
  obtain ⟨l, rest, hread, hlex⟩ := lexesBlank_startOver cfg cs
  exact ⟨l, rest, Reads.fueled hread, hlex⟩

/-! ## Numbers -/

lemma reads_yylex_of_tokenFrom {c : Char} {l : Lexed t} {rest : List Char}
    (hspace : cfg.tb.isSpace c = false) (hslash : c ≠ '/')
    (h : Reads (tokenFrom cfg c) 3 cs l 4 rest) : Reads (yylex cfg) 4 (c :: cs) l 4 rest := by
  have hskip : Reads (fueled (skipBlanks cfg)) 4 (c :: cs) (some c) 3 cs := by
    have hread : Reads (fueled (skipBlanks cfg)) 4 (c :: cs) _ 3 _ :=
      Reads.fueled fun k hk => reads_skipBlanks hk
    rwa [List.dropWhile_cons_of_neg (by simp [hspace])] at hread
  apply Reads.fueled
  intro k hk
  obtain ⟨k, rfl⟩ := Nat.exists_eq_succ_of_ne_zero (Nat.ne_zero_of_lt hk)
  refine hskip.bind ?_
  dsimp only
  rw [if_neg hslash]
  exact h

lemma reads_yylex_minus (cs : List Char) :
    Reads (yylex cfg) 4 ('-' :: cs) ⟨.chr '-', none⟩ 4 cs := by
  have hspace : cfg.tb.isSpace '-' = false := by rw [cfg.tb.isSpace_ascii _ (by decide)]; decide
  have hdigit : cfg.tb.isDigit '-' = false := by rw [cfg.tb.isDigit_ascii _ (by decide)]; decide
  have hstart : cfg.tb.isXidStart '-' = false := by
    rw [cfg.tb.isXidStart_ascii _ (by decide)]; decide
  apply reads_yylex_of_tokenFrom hspace (by decide)
  have hop : operator cfg '-' = pure (.chr '-') := by simp [operator]
  have htoken : tokenFrom cfg '-' = pure ⟨.chr '-', none⟩ := by
    simp [tokenFrom, hdigit, hstart, hop]
  rw [htoken]
  exact (Reads.pure _).mono (Nat.le_refl 3) (Nat.le_succ 3)

/-- The variables of `parse_number` behind the digits of a number. -/
lemma scanNum_toDigits {flags : PnFlags} {m : ℕ} {rest : List Char}
    (h : extendsNumber cfg.tb cfg.bitwise cfg.floatOk rest = false) :
    scanNum cfg.tb cfg.bitwise (!cfg.floatOk) (.start flags) (Nat.toDigits 10 m ++ rest)
      = ((NumState.start flags).afterDigits (Nat.toDigits 10 m), rest) := by
  rw [scanNum_digits (fun d hd => isDigit_of_mem_toDigits hd) (Or.inl rfl) Nat.toDigits_ne_nil,
    scanNum_stop h rfl rfl rfl]

lemma reads_yylex_digits {m : ℕ} {rest : List Char} (hm : (m : Int) ≤ -(Num.numMin t).toInt)
    (h : extendsNumber cfg.tb cfg.bitwise cfg.floatOk rest = false) :
    Reads (yylex cfg) 4 (Nat.toDigits 10 m ++ rest) ⟨.tINTEGER (BitVec.ofInt t.bits m), none⟩ 4
      rest := by
  let flags : PnFlags := { nonneg := true, floatOk := cfg.floatOk }
  have hscan : scanNum cfg.tb cfg.bitwise (!cfg.floatOk) (.start flags)
      (Nat.toDigits 10 m ++ rest)
        = ((NumState.start flags).afterDigits (Nat.toDigits 10 m), rest) := scanNum_toDigits h
  have hvalue : ((NumState.start flags).afterDigits (Nat.toDigits 10 m)).value cfg.fl flags
      = .int (BitVec.ofInt t.bits m) := intValue_digits hm rfl
  obtain ⟨c, ds, hc⟩ := List.exists_cons_of_ne_nil (Nat.toDigits_ne_nil (n := m) (b := 10))
  have hd : c.isDigit = true := isDigit_of_mem_toDigits (hc ▸ List.mem_cons_self)
  obtain ⟨hlow, hhigh⟩ := toNat_of_isDigit hd
  have hspace : cfg.tb.isSpace c = false := by
    rw [cfg.tb.isSpace_ascii c (by omega), not_isSpace_of_isDigit hd]
  have hdigit : cfg.tb.isDigit c = true := by rw [cfg.tb.isDigit_ascii c (by omega), hd]
  have hread : Reads (parseNumber cfg.tb cfg.bitwise cfg.fl flags true (some c) : Lex _)
      3 (ds ++ rest) (.int (BitVec.ofInt t.bits m)) 4 rest := by
    have hnumber : Reads (parseNumber cfg.tb cfg.bitwise cfg.fl flags true
        (Nat.toDigits 10 m ++ rest).head? : Lex _) 3 (Nat.toDigits 10 m ++ rest).tail _ 4 rest :=
      reads_parseNumber_number ⟨rfl, rfl, rfl, rfl⟩ (fun _ => Nat.le_refl 3) (by decide) hscan
        fun hbare => Bool.noConfusion hbare.1
    rw [if_pos (by rfl), hvalue] at hnumber
    rwa [hc] at hnumber
  rw [hc]
  apply reads_yylex_of_tokenFrom hspace
  · rintro rfl
    exact absurd hlow (by decide)
  · unfold tokenFrom
    rw [if_neg, if_pos]
    · exact hread.bind (Reads.pure _)
    · rw [hdigit, Bool.true_or]
    · rintro rfl
      exact absurd hlow (by decide)

/-- What the unparser prints for `num` is read as `num`. -/
lemma reads_numericLiteral (num : Num t) {rest : List Char}
    (h : extendsNumber cfg.tb cfg.bitwise cfg.floatOk rest = false) :
    Reads (numericLiteral cfg) 4 (decimal num.toInt ++ rest) (some (.int num)) 4 rest := by
  have hbits : (Num.numMin t).toInt = -2 ^ (t.bits - 1) := by cases t <;> rfl
  have hmin : (Num.numMin t).toInt ≤ num.toInt := hbits ▸ BitVec.le_toInt num
  have hmax : num.toInt < -(Num.numMin t).toInt := by
    rw [hbits, neg_neg]
    exact BitVec.toInt_lt
  cases hnum : num.toInt with
  | ofNat m =>
    have hread : Reads (yylex cfg) 4 (Nat.toDigits 10 m ++ rest) _ 4 rest :=
      reads_yylex_digits (by rw [hnum] at hmax; exact hmax.le) h
    have heq : BitVec.ofInt t.bits (m : Int) = num := by
      rw [← Int.ofNat_eq_natCast, ← hnum, BitVec.ofInt_toInt]
    rw [heq] at hread
    exact hread.bind (Reads.pure _)
  | negSucc m =>
    have hread : Reads (yylex cfg) 4 (Nat.toDigits 10 (m + 1) ++ rest) _ 4 rest :=
      reads_yylex_digits (by rw [hnum] at hmin; omega) h
    have heq : -BitVec.ofInt t.bits ((m + 1 : ℕ) : Int) = num := by
      have hneg : -((m + 1 : ℕ) : Int) = Int.negSucc m := rfl
      rw [← BitVec.ofInt_neg, hneg, ← hnum, BitVec.ofInt_toInt]
    refine (reads_yylex_minus _).bind (hread.bind ?_)
    rw [foldMinus, heq]
    exact Reads.pure _

/-! ## Runs -/

lemma Lexing.holds {input : List Char} {s : Source 5 Char} (h : Lexing cfg input s) :
    ∃ cs, s.Holds cs ∧ s.pushed.length ≤ 4 ∧ cs <:+ input := by
  induction h with
  | start => exact ⟨input, Source.holds_start input, Nat.zero_le 4, List.suffix_refl input⟩
  | @next s s' l _ hlex ih =>
    obtain ⟨cs, hs, hle, hsuffix⟩ := ih
    obtain ⟨l', rest, hread, blank, text, rfl, -, -⟩ := lexes_yylex cfg cs
    obtain ⟨s'', hlex', hrest, hle'⟩ := hread s hs hle
    obtain ⟨-, rfl⟩ := Prod.mk.inj (Option.some.inj (hlex.symm.trans hlex'))
    exact ⟨rest, hrest, hle', (List.suffix_append _ _).trans hsuffix⟩

/-- The scanner gives back what the unparser prints for a number, whatever comes next that does
not go on with the number. In every state that it can be in, the next token is spelled by the
characters in front of those that are left, and no push-back overflows. -/
theorem yylex_reads (cfg : LexConfig t) {input : List Char} {s : Source 5 Char}
    (h : Lexing cfg input s) :
    (∀ (num : Num t) (rest : List Char),
      extendsNumber cfg.tb cfg.bitwise cfg.floatOk rest = false →
        s.Holds (decimal num.toInt ++ rest) →
          ∃ s', numericLiteral cfg s = some (some (.int num), s') ∧ s'.Holds rest) ∧
      ∃ cs, s.Holds cs ∧ cs <:+ input ∧
        ∃ l s' blank text rest, yylex cfg s = some (l, s') ∧ s'.Holds rest ∧
          cs = blank ++ text ++ rest ∧ Blank cfg.tb blank ∧ l.token.Spelled cfg text := by
  obtain ⟨cs, hs, hle, hsuffix⟩ := h.holds
  constructor
  · intro num rest hrest hnum
    obtain ⟨s', hread, hs', -⟩ := reads_numericLiteral num hrest s hnum hle
    exact ⟨s', hread, hs'⟩
  · obtain ⟨l, rest, hread, blank, text, hcs, hblank, hspell⟩ := lexes_yylex cfg cs
    obtain ⟨s', hlex, hs', -⟩ := hread s hs hle
    exact ⟨cs, hs, hsuffix, l, s', blank, text, rest, hlex, hs', hcs, hblank, hspell⟩

/-- A scanner without Unicode, for input without floats. -/
def sampleLexConfig : LexConfig .int64 where
  tb := asciiCtype
  bitwise := true
  version := dbvFloat
  fl := ⟨fun _ => (none, []), fun _ => none⟩

theorem yylex_reads_numMin :
    ∃ s', numericLiteral sampleLexConfig
        (Source.start (decimal (Num.numMin .int64).toInt ++ ['.', '.', '5']))
          = some (some (.int (Num.numMin .int64)), s') ∧ s'.Holds ['.', '.', '5'] :=
  (yylex_reads sampleLexConfig Lexing.start).1 (Num.numMin .int64) ['.', '.', '5'] (by decide)
    (Source.holds_start _)

example : (yylex sampleLexConfig (Source.start ['1', '.', '.', '2'])).map
    (fun r => (r.1.token, r.2.pushed, r.2.input))
      = some (.tINTEGER 1, [some '.', some '.'], ['2']) := by decide

end LambdaMOO
