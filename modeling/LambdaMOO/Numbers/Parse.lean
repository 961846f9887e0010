import LambdaMOO.Db.Text
import LambdaMOO.Lib.Pushback
import LambdaMOO.Numbers.Arith

/-!
# Reading numbers

`parse_number` of `numbers.c`, over the functions `getch` and `ungetch` that it is given, and
what it reads of a text: no more than the characters of the number.
-/

namespace LambdaMOO

open Scanner

/-- The properties of characters from `utf-ctype.h`. In each configuration those of ASCII
characters are the ones of `<ctype.h>`. -/
structure UtfCtype where
  isDigit : Char → Bool
  digitval : Char → Nat
  isSpace : Char → Bool
  isXidStart : Char → Bool
  isXidCont : Char → Bool
  isDigit_ascii : ∀ c, c.toNat < 128 → isDigit c = c.isDigit
  isSpace_ascii : ∀ c, c.toNat < 128 → isSpace c = LambdaMOO.isSpace c
  isXidStart_ascii : ∀ c, c.toNat < 128 → isXidStart c = c.isAlpha
  digitval_ascii : ∀ c, c.isDigit → digitval c = c.toNat - 48
  digitval_le : ∀ c, isDigit c → digitval c ≤ 9

/-- `<ctype.h>` itself, which is there without Unicode. -/
def asciiCtype : UtfCtype where
  isDigit := Char.isDigit
  digitval c := c.toNat - 48
  isSpace := LambdaMOO.isSpace
  isXidStart := Char.isAlpha
  isXidCont := Char.isAlphanum
  isDigit_ascii _ _ := rfl
  isSpace_ascii _ _ := rfl
  isXidStart_ascii _ _ := rfl
  digitval_ascii _ _ := rfl
  digitval_le c h := by
    simp only [Char.isDigit, Bool.and_eq_true, decide_eq_true_eq] at h
    have hhigh : c.toNat ≤ 57 := h.2
    omega

/-- The flags of `parse_number`. -/
structure PnFlags where
  floatOk : Bool := false
  reqFloat : Bool := false
  reqInt : Bool := false
  nonneg : Bool := false
  octothorpe : Bool := false
  ldspace : Bool := false
  trspace : Bool := false
  octospace : Bool := false
  mustEof : Bool := false
  deriving DecidableEq, Repr

/-- The floats of the platform. `strtoflnum` gives a number, none unless it is `IS_REAL`, and
the text behind it; the conversion to a `Num` fails unless `inrange_for_float_to_int`. -/
structure FloatReader (t : IntType) where
  strtoflnum : List Char → Option FlNum × List Char
  toNum : FlNum → Option (Num t)

/-- The variables of `parse_number`: the stream, the family of the digits, whether the type is
`TYPE_FLOAT`, and the flags but `F_INT`, which stays as it is. -/
structure NumState where
  ns : List Char
  dfamily : Nat := 0
  float : Bool := false
  minus : Bool := false
  dot : Bool := false
  exp : Bool := false
  digit : Bool := false
  xsign : Bool := false
  deriving DecidableEq, Repr

section

variable (tb : UtfCtype) (bitwise : Bool)

def NumState.start (flags : PnFlags) : NumState := { ns := if flags.nonneg then ['-'] else [] }

/-- The switch over `c`, where `starts` is what the look-ahead behind a dot has found. None at
`badchar`. -/
def NumState.next (int starts : Bool) (st : NumState) (c : Char) : Option NumState :=
  if c = '+' then
    if st.exp && !st.xsign then some { st with xsign := true, ns := st.ns ++ [c] } else none
  else if c = '-' then
    if st.xsign then none
    else some { st with minus := true, xsign := true, ns := st.ns ++ [c] }
  else if c = '.' then
    if st.dot || st.exp || int || starts then none
    else some { st with float := true, dot := true, xsign := true, ns := st.ns ++ [c] }
  else if c = 'e' ∨ c = 'E' then
    if st.digit && !st.exp && !int then
      some { st with float := true, exp := true, digit := false, xsign := false,
                     ns := st.ns ++ [c] }
    else none
  else if tb.isDigit c then
    let dval := tb.digitval c
    if st.dfamily ≠ 0 ∧ st.dfamily + dval ≠ c.toNat then none
    else
      some { st with dfamily := if st.dfamily = 0 then c.toNat - dval else st.dfamily,
                     digit := true, xsign := true,
                     ns := st.ns ++ [Char.ofNat ('0'.toNat + dval)] }
  else none

variable {n : ℕ}

/-- `while (my_isspace(c)) NEXTC();` -/
def skipSpace : ℕ → Option Char → Scanner n Char (Option Char)
  | _, none => pure none
  | 0, some _ => failure
  | k + 1, some c => if tb.isSpace c then do skipSpace k (← getItem) else pure (some c)

/-- Whether a dot starts a new token, from what follows it. `UNGET_ALL` comes in each case. -/
def dotStartsToken : Scanner n Char Bool := do
  let c₀ ← getItem
  if c₀ = some '.' then
    unget c₀
    return true
  else if bitwise ∧ c₀ = some '&' then
    let c₁ ← getItem
    unget c₁
    unget c₀
    return c₁ = some '.'
  else if bitwise ∧ (c₀ = some '^' ∨ c₀ = some '|') then
    let c₁ ← getItem
    if c₁ = some '.' then
      let c₂ ← getItem
      unget c₂
      unget c₁
      unget c₀
      return !c₂.any tb.isDigit
    else
      unget c₁
      unget c₀
      return false
  else
    unget c₀
    return false

/-- The look-ahead, which there is for a dot where one may stand. -/
def lookAhead (int ungetch : Bool) (st : NumState) (c : Char) : Scanner n Char Bool :=
  if c = '.' ∧ ¬ (st.dot || st.exp || int) ∧ ungetch then dotStartsToken tb bitwise
  else pure false

/-- The loop over the characters: the variables, and the character it ends at, none at
`at_eof`. -/
def numLoop (flags : PnFlags) (ungetch : Bool) :
    ℕ → NumState → Option Char → Scanner n Char (NumState × Option Char)
  | _, st, none => pure (st, none)
  | 0, _, some _ => failure
  | k + 1, st, some c => do
    let int := !flags.floatOk
    let starts ← lookAhead tb bitwise int ungetch st c
    match st.next tb int starts c with
    | some st => numLoop flags ungetch k st (← getItem)
    | none =>
      -- only the characters that have no case of their own
      if flags.trspace ∧ c ∉ ['+', '-', '.', 'e', 'E'] ∧ ¬ tb.isDigit c then
        return (st, ← fueled fun k => skipSpace tb k (some c))
      else return (st, some c)

variable {t : IntType} (fl : FloatReader t)

/-- The number where the type is `TYPE_INT`. The negation and the assignment wrap around. -/
def intValue (flags : PnFlags) (ns : List Char) : ArithVar t :=
  let (i, p, erange) := strtoimax ns
  if erange || i < (Num.numMin t).toInt || -(Num.numMin t).toInt - 1 < i then .err .eRange
  else if p ≠ [] then .err .eInvarg
  else .int (BitVec.ofInt t.bits (if flags.nonneg then -i else i))

/-- The number where the type is `TYPE_FLOAT`. -/
def floatValue (flags : PnFlags) (ns : List Char) : ArithVar t :=
  let (d, p) := fl.strtoflnum (if flags.nonneg then ns.tail else ns)
  if p ≠ [] then .err .eInvarg
  else
    match d with
    | none => .err .eFloat
    | some d =>
      if flags.reqInt then
        match fl.toNum d with
        | none => .err .eFloat
        | some num => .int num
      else .float d

/-- From `have_digits` on. -/
def NumState.value (flags : PnFlags) (st : NumState) : ArithVar t :=
  if !st.float && !flags.reqFloat then intValue flags st.ns else floatValue fl flags st.ns

/-- From the `#` on. -/
def skipOctothorpe (flags : PnFlags) : Scanner n Char (Option Char) := do
  let c ← getItem
  if flags.octospace then fueled fun k => skipSpace tb k c else pure c

def ungetIf (p : Bool) (c : Option Char) : Scanner n Char Unit :=
  if p then unget c else pure ()

/-- What comes after `ungetch(c)`. -/
def atEof (flags : PnFlags) (ungetch : Bool) (st : NumState) : Scanner n Char (ArithVar t) :=
  if st.digit then pure (st.value fl flags)
  else if st.exp || !ungetch then pure (.err .eInvarg)
  else do
    ungetIf st.dot (some '.')
    ungetIf st.minus (some '-')
    return .err .eNone

/-- `parse_number`. Where there is no `ungetch`, the flag `ungetch` is off. -/
def parseNumber (flags : PnFlags) (ungetch : Bool) (first : Option Char) :
    Scanner n Char (ArithVar t) := do
  let c ← (if flags.ldspace then fueled fun k => skipSpace tb k first else pure first)
  let c ← (if flags.octothorpe ∧ c = some '#' then skipOctothorpe tb flags else pure c)
  let (st, c) ← fueled fun k => numLoop tb bitwise flags ungetch k (.start flags) c
  if flags.mustEof ∧ c ≠ none then return .err .eInvarg
  else
    ungetIf ungetch c
    atEof fl flags ungetch st

/-! ## What it reads of a text -/

/-- Whether a dot in front of the text starts a new token. -/
def startsToken : List Char → Bool
  | '.' :: _ => true
  | '&' :: '.' :: _ => bitwise
  | '^' :: '.' :: cs => bitwise && !cs.head?.any tb.isDigit
  | '|' :: '.' :: cs => bitwise && !cs.head?.any tb.isDigit
  | _ => false

/-- The characters of the number, in the text as a whole: the variables behind them and the
rest of the text. -/
def scanNum (int : Bool) : NumState → List Char → NumState × List Char
  | st, [] => (st, [])
  | st, c :: cs =>
    match st.next tb int (startsToken tb bitwise cs) c with
    | some st => scanNum int st cs
    | none => (st, c :: cs)

variable {tb bitwise fl} {b : ℕ} {cs : List Char} {st st' : NumState} {int starts : Bool}
  {c : Char} {flags : PnFlags}

lemma startsToken_dot (h : cs.head? = some '.') : startsToken tb bitwise cs = true := by
  obtain ⟨cs, rfl⟩ := List.head?_eq_some_iff.mp h
  rfl

lemma startsToken_and (hb : bitwise = true) (h : cs.head? = some '&') :
    startsToken tb bitwise cs = decide (cs.tail.head? = some '.') := by
  obtain ⟨cs, rfl⟩ := List.head?_eq_some_iff.mp h
  cases cs with
  | nil => rfl
  | cons d cs => by_cases hd : d = '.' <;> simp [startsToken, hb, hd]

lemma startsToken_xor_or (hb : bitwise = true) (h : cs.head? = some '^' ∨ cs.head? = some '|') :
    startsToken tb bitwise cs
      = (decide (cs.tail.head? = some '.') && !cs.tail.tail.head?.any tb.isDigit) := by
  rcases h with h | h
  all_goals
    obtain ⟨cs, rfl⟩ := List.head?_eq_some_iff.mp h
    cases cs with
    | nil => rfl
    | cons d cs => by_cases hd : d = '.' <;> simp [startsToken, hb, hd]

lemma startsToken_other (h₀ : cs.head? ≠ some '.') (h₁ : ¬ (bitwise ∧ cs.head? = some '&'))
    (h₂ : ¬ (bitwise ∧ (cs.head? = some '^' ∨ cs.head? = some '|'))) :
    startsToken tb bitwise cs = false := by
  unfold startsToken
  split <;> simp_all

lemma reads_dotStartsToken (hb : 3 ≤ b) (hn : b ≤ n) :
    Reads (dotStartsToken tb bitwise : Scanner n Char Bool) b cs (startsToken tb bitwise cs) b
      cs := by
  -- pushing back one or two characters at the end, where there is room for them
  have hone {k : ℕ} (hk : k < b) {x : Bool} :
      Reads (do unget cs.head?; return x : Scanner n Char Bool) k cs.tail x b cs :=
    ((Reads.unget (by omega)).bind (Reads.pure x)).mono (Nat.le_refl k) hk
  have htwo {k : ℕ} (hk : k + 1 < b) {x : Bool} :
      Reads (do unget cs.tail.head?; unget cs.head?; return x : Scanner n Char Bool) k
        cs.tail.tail x b cs :=
    (Reads.unget (by omega)).bind (hone hk)
  refine Reads.getItem.bind ?_
  by_cases h₀ : cs.head? = some '.'
  · rw [if_pos h₀, startsToken_dot h₀]
    exact hone (by omega)
  rw [if_neg h₀]
  by_cases h₁ : bitwise ∧ cs.head? = some '&'
  · rw [if_pos h₁, startsToken_and h₁.1 h₁.2]
    exact Reads.getItem.bind (htwo (by omega))
  rw [if_neg h₁]
  by_cases h₂ : bitwise ∧ (cs.head? = some '^' ∨ cs.head? = some '|')
  · rw [if_pos h₂, startsToken_xor_or h₂.1 h₂.2]
    refine Reads.getItem.bind ?_
    by_cases hdot : cs.tail.head? = some '.'
    · rw [if_pos hdot, decide_eq_true hdot, Bool.true_and]
      exact Reads.getItem.bind ((Reads.unget (by omega)).bind (htwo (by omega)))
    · rw [if_neg hdot, decide_eq_false hdot, Bool.false_and]
      exact htwo (by omega)
  · rw [if_neg h₂, startsToken_other h₀ h₁ h₂]
    exact hone (by omega)

/-- What follows a character matters for a dot only, and only where a dot may stand. -/
lemma NumState.next_congr (h : ¬ (c = '.' ∧ ¬ (st.dot || st.exp || int))) (s₁ s₂ : Bool) :
    st.next tb int s₁ c = st.next tb int s₂ c := by
  unfold next
  split_ifs <;> simp_all

/-- The look-ahead leaves the text as it is. -/
lemma reads_lookAhead (hb : int = false → 3 ≤ b) (hn : b ≤ n) :
    ∃ starts, Reads (lookAhead tb bitwise int true st c : Scanner n Char Bool) b cs starts b cs ∧
      st.next tb int starts c = st.next tb int (startsToken tb bitwise cs) c := by
  by_cases h : c = '.' ∧ ¬ (st.dot || st.exp || int)
  · have hint : int = false := by simp_all
    refine ⟨_, ?_, rfl⟩
    rw [lookAhead, if_pos ⟨h.1, h.2, rfl⟩]
    exact reads_dotStartsToken (hb hint) hn
  · refine ⟨false, ?_, NumState.next_congr h _ _⟩
    rw [lookAhead, if_neg fun hc => h ⟨hc.1, hc.2.1⟩]
    exact Reads.pure false

lemma reads_numLoop (ht : flags.trspace = false) (hb : flags.floatOk = true → 3 ≤ b)
    (hn : b ≤ n) {k : ℕ} (hk : cs.length ≤ k) :
    Reads (numLoop tb bitwise flags true k st cs.head? : Scanner n Char _) b cs.tail
      ((scanNum tb bitwise (!flags.floatOk) st cs).1,
        (scanNum tb bitwise (!flags.floatOk) st cs).2.head?) b
      (scanNum tb bitwise (!flags.floatOk) st cs).2.tail := by
  induction k generalizing st cs with
  | zero =>
    obtain rfl := List.length_eq_zero_iff.mp (Nat.le_zero.mp hk)
    simpa [numLoop, scanNum] using Reads.pure _
  | succ k ih =>
    cases cs with
    | nil => simpa [numLoop, scanNum] using Reads.pure _
    | cons c cs =>
      obtain ⟨starts, hread, hnext⟩ : ∃ starts,
          Reads (lookAhead tb bitwise (!flags.floatOk) true st c : Scanner n Char Bool) b cs starts
            b cs ∧
          st.next tb (!flags.floatOk) starts c
            = st.next tb (!flags.floatOk) (startsToken tb bitwise cs) c :=
        reads_lookAhead (by simpa using hb) hn
      refine hread.bind ?_
      rw [hnext, scanNum]
      cases hst : st.next tb (!flags.floatOk) (startsToken tb bitwise cs) c with
      | none => simpa [ht] using Reads.pure _
      | some st' =>
        have hlen : cs.length ≤ k := by simpa using hk
        exact Reads.getItem.bind ((ih hlen).mono (Nat.sub_le b 1) (Nat.le_refl b))

/-- A character as `parse_number` hands it to `strtoimax` and `strtoflnum`. -/
def digitChar (tb : UtfCtype) (c : Char) : Char :=
  if tb.isDigit c then Char.ofNat ('0'.toNat + tb.digitval c) else c

lemma digitChar_ascii {d : Char} (hd : d.toNat < 128) (hdigit : d.isDigit = false) :
    digitChar tb d = d := by
  rw [digitChar, tb.isDigit_ascii d hd, hdigit]
  rfl

/-- What the characters of a number do, one for each case of the switch. -/
inductive NumState.Next (tb : UtfCtype) (int starts : Bool) (st : NumState) : Char → NumState → Prop
  | plus : st.exp → Next tb int starts st '+' { st with xsign := true, ns := st.ns ++ ['+'] }
  | minus : st.xsign = false →
      Next tb int starts st '-' { st with minus := true, xsign := true, ns := st.ns ++ ['-'] }
  | dot : st.dot = false → st.exp = false → int = false → starts = false →
      Next tb int starts st '.'
        { st with float := true, dot := true, xsign := true, ns := st.ns ++ ['.'] }
  | exp {c : Char} : c = 'e' ∨ c = 'E' → st.digit → st.exp = false → int = false →
      Next tb int starts st c
        { st with float := true, exp := true, digit := false, xsign := false,
                  ns := st.ns ++ [c] }
  | digit {c : Char} : tb.isDigit c →
      (st.dfamily ≠ 0 → st.dfamily + tb.digitval c = c.toNat) →
      Next tb int starts st c
        { st with dfamily := c.toNat - tb.digitval c, digit := true, xsign := true,
                  ns := st.ns ++ [digitChar tb c] }

lemma NumState.next_cases (h : st.next tb int starts c = some st') :
    Next tb int starts st c st' := by
  unfold next at h
  by_cases hplus : c = '+'
  · rw [if_pos hplus] at h
    subst hplus
    obtain ⟨hc, h⟩ := Option.ite_none_right_eq_some.mp h
    obtain rfl := Option.some.inj h
    exact .plus (by simp_all)
  rw [if_neg hplus] at h
  by_cases hminus : c = '-'
  · rw [if_pos hminus] at h
    subst hminus
    obtain ⟨hc, h⟩ := Option.ite_none_left_eq_some.mp h
    obtain rfl := Option.some.inj h
    exact .minus (by simpa using hc)
  rw [if_neg hminus] at h
  by_cases hdot : c = '.'
  · rw [if_pos hdot] at h
    subst hdot
    obtain ⟨hc, h⟩ := Option.ite_none_left_eq_some.mp h
    obtain rfl := Option.some.inj h
    simp only [Bool.or_eq_true, not_or, Bool.not_eq_true] at hc
    exact .dot hc.1.1.1 hc.1.1.2 hc.1.2 hc.2
  rw [if_neg hdot] at h
  by_cases hexp : c = 'e' ∨ c = 'E'
  · rw [if_pos hexp] at h
    obtain ⟨hc, h⟩ := Option.ite_none_right_eq_some.mp h
    obtain rfl := Option.some.inj h
    simp only [Bool.and_eq_true, Bool.not_eq_eq_eq_not, Bool.not_true] at hc
    exact .exp hexp hc.1.1 hc.1.2 hc.2
  rw [if_neg hexp] at h
  obtain ⟨hdigit, h⟩ := Option.ite_none_right_eq_some.mp h
  obtain ⟨hfamily, h⟩ := Option.ite_none_left_eq_some.mp h
  have hst' : st' = { st with dfamily := c.toNat - tb.digitval c, digit := true, xsign := true,
                              ns := st.ns ++ [digitChar tb c] } := by
    rw [← Option.some.inj h, digitChar, if_pos hdigit]
    congr 1
    split_ifs with hzero
    · rfl
    · omega
  rw [hst']
  exact .digit hdigit fun hzero => by simpa [hzero] using hfamily

lemma NumState.ns_next (h : st.next tb int starts c = some st') :
    st'.ns = st.ns ++ [digitChar tb c] := by
  cases NumState.next_cases h with
  | plus _ => rw [digitChar_ascii (by decide) (by decide)]
  | minus _ => rw [digitChar_ascii (by decide) (by decide)]
  | dot _ _ _ _ => rw [digitChar_ascii (by decide) (by decide)]
  | exp hc _ _ _ => rcases hc with rfl | rfl <;> rw [digitChar_ascii (by decide) (by decide)]
  | digit _ _ => rfl

/-- The characters that the loop takes go to the stream. -/
lemma scanNum_text (cs : List Char) (st : NumState) :
    ∃ text, cs = text ++ (scanNum tb bitwise int st cs).2 ∧
      (scanNum tb bitwise int st cs).1.ns = st.ns ++ text.map (digitChar tb) := by
  induction cs generalizing st with
  | nil => exact ⟨[], rfl, (List.append_nil _).symm⟩
  | cons c cs ih =>
    rw [scanNum]
    cases hst : st.next tb int (startsToken tb bitwise cs) c with
    | none => exact ⟨[], rfl, (List.append_nil _).symm⟩
    | some st' =>
      obtain ⟨text, htext, hns⟩ := ih st'
      refine ⟨c :: text, congrArg (c :: ·) htext, ?_⟩
      rw [hns, NumState.ns_next hst, List.append_assoc]
      rfl

/-- What was taken while there was no digit. -/
def NumState.seen (st : NumState) : List Char :=
  (if st.minus then ['-'] else []) ++ (if st.dot then ['.'] else [])

/-- Neither a digit nor an exponent so far. -/
def NumState.IsBare (st : NumState) : Prop := st.digit = false ∧ st.exp = false

lemma NumState.IsBare.of_next (hst' : st'.IsBare) (h : st.next tb int starts c = some st') :
    st.IsBare := by
  obtain ⟨hdigit, hexp⟩ := hst'
  cases NumState.next_cases h with
  | plus _ => exact ⟨hdigit, hexp⟩
  | minus _ => exact ⟨hdigit, hexp⟩
  | dot _ _ _ _ => exact ⟨hdigit, hexp⟩
  | exp _ _ _ _ => simp at hexp
  | digit _ _ => simp at hdigit

lemma NumState.IsBare.of_scanNum (h : (scanNum tb bitwise int st cs).1.IsBare) : st.IsBare := by
  induction cs generalizing st with
  | nil => exact h
  | cons c cs ih =>
    rw [scanNum] at h
    cases hst : st.next tb int (startsToken tb bitwise cs) c with
    | none =>
      rw [hst] at h
      exact h
    | some st' =>
      rw [hst] at h
      exact (ih h).of_next hst

/-- A sign or a dot that was seen excludes further signs. -/
lemma NumState.IsBare.seen_next (hst' : st'.IsBare) (hx : st.xsign = false → st.seen = [])
    (h : st.next tb int starts c = some st') : st'.xsign ∧ st'.seen = st.seen ++ [c] := by
  have hst := hst'.of_next h
  cases NumState.next_cases h with
  | plus hexp => simp [hst.2] at hexp
  | minus hx' => simp_all [seen]
  | dot hd _ _ _ => simp [seen, hd]
  | exp _ _ _ _ => simp [IsBare] at hst'
  | digit _ _ => simp [IsBare] at hst'

/-- Without a digit and an exponent, all that was taken of the text was seen. -/
lemma scanNum_seen (hx : st.xsign = false → st.seen = [])
    (h : (scanNum tb bitwise int st cs).1.IsBare) :
    (scanNum tb bitwise int st cs).1.seen ++ (scanNum tb bitwise int st cs).2
      = st.seen ++ cs := by
  induction cs generalizing st with
  | nil => rfl
  | cons c cs ih =>
    rw [scanNum] at h ⊢
    cases hst : st.next tb int (startsToken tb bitwise cs) c with
    | none => rfl
    | some st' =>
      rw [hst] at h
      obtain ⟨hx', hseen⟩ := (NumState.IsBare.of_scanNum h).seen_next hx hst
      rw [ih (by simp [hx']) h, hseen, List.append_assoc]
      rfl

/-- The flags that may be set where there is `ungetch`. -/
def PnFlags.IsUngetch (flags : PnFlags) : Prop :=
  flags.octothorpe = false ∧ flags.ldspace = false ∧ flags.trspace = false ∧ flags.mustEof = false

lemma reads_parseNumber (hf : flags.IsUngetch) (hb : flags.floatOk = true → 3 ≤ b)
    (hn : b < n) {rest cs' : List Char} {v : ArithVar t} {b' : ℕ}
    (hst : scanNum tb bitwise (!flags.floatOk) (.start flags) cs = (st, rest))
    (h : Reads (atEof fl flags true st : Scanner n Char (ArithVar t)) (b + 1) rest v b' cs') :
    Reads (parseNumber tb bitwise fl flags true cs.head? : Scanner n Char _) b cs.tail v b'
      cs' := by
  obtain ⟨ho, hl, ht, hm⟩ := hf
  have hloop : Reads (fueled fun k => numLoop tb bitwise flags true k (.start flags) cs.head? :
      Scanner n Char _) b cs.tail (st, rest.head?) b rest.tail := by
    apply Reads.fueled
    intro k hk
    have hlen : cs.length ≤ k := by
      rw [List.length_tail] at hk
      omega
    have hread : Reads (numLoop tb bitwise flags true k (.start flags) cs.head? :
        Scanner n Char _) _ _ _ _ _ := reads_numLoop ht hb hn.le hlen
    rwa [hst] at hread
  simp only [parseNumber, ho, hl, hm, Bool.false_eq_true, if_false, false_and, pure_bind]
  exact hloop.bind ((Reads.unget hn).bind h)

lemma reads_parseNumber_number (hf : flags.IsUngetch) (hb : flags.floatOk = true → 3 ≤ b)
    (hn : b < n) {rest : List Char}
    (hst : scanNum tb bitwise (!flags.floatOk) (.start flags) cs = (st, rest))
    (hbare : ¬ st.IsBare) :
    Reads (parseNumber tb bitwise fl flags true cs.head? : Scanner n Char _) b cs.tail
      (if st.digit then st.value fl flags else .err .eInvarg) (b + 1) rest := by
  apply reads_parseNumber hf hb hn hst
  unfold atEof
  cases hdigit : st.digit with
  | true => exact Reads.pure _
  | false =>
    have hexp : st.exp = true := by simpa [NumState.IsBare, hdigit] using hbare
    rw [if_neg Bool.false_ne_true, hexp]
    exact Reads.pure _

lemma seen_append_rest {rest : List Char}
    (hst : scanNum tb bitwise int (.start flags) cs = (st, rest)) (hbare : st.IsBare) :
    st.seen ++ rest = cs := by
  have hscan : (scanNum tb bitwise int (.start flags) cs).1.IsBare := by
    rw [hst]
    exact hbare
  have htext := scanNum_seen (fun _ => rfl) hscan
  rwa [hst] at htext

/-- Without a digit and an exponent the text is as it was. -/
lemma reads_parseNumber_bare (hf : flags.IsUngetch) (hb : flags.floatOk = true → 3 ≤ b)
    (hn : b + 1 < n) {rest : List Char}
    (hst : scanNum tb bitwise (!flags.floatOk) (.start flags) cs = (st, rest))
    (hbare : st.IsBare) (hone : st.minus = false ∨ st.dot = false) :
    Reads (parseNumber tb bitwise fl flags true cs.head? : Scanner n Char _) b cs.tail
      (.err .eNone) (b + 2) cs := by
  apply reads_parseNumber hf hb (by omega) hst
  have hseen := seen_append_rest hst hbare
  have hpush {c : Char} {p : Bool} {k : ℕ} {cs : List Char} (hk : p = true → k < n) :
      Reads (ungetIf p (some c) : Scanner n Char Unit) k cs () (if p then k + 1 else k)
        ((if p then [c] else []) ++ cs) := by
    cases p with
    | true => exact Reads.unget_some (hk rfl)
    | false => exact Reads.pure ()
  simp only [atEof, hbare.1, hbare.2, Bool.false_eq_true, if_false, Bool.not_true, Bool.or_false]
  rw [← hseen, NumState.seen, List.append_assoc]
  refine (hpush fun _ => by omega).bind ((hpush fun hminus => ?_).bind
    ((Reads.pure _).mono (Nat.le_refl _) ?_))
  · have hdot : st.dot = false := by simpa [hminus] using hone
    rw [hdot]
    exact hn
  · rcases hone with h | h <;> simp only [h, Bool.false_eq_true, if_false] <;> split_ifs <;> omega

/-- No dot and no exponent where floats are not allowed. -/
def NumState.IsInt (st : NumState) : Prop := st.dot = false ∧ st.float = false

lemma NumState.IsInt.scanNum (h : st.IsInt) :
    (scanNum tb bitwise true st cs).1.IsInt := by
  induction cs generalizing st with
  | nil => exact h
  | cons c cs ih =>
    rw [LambdaMOO.scanNum]
    cases hst : st.next tb true (startsToken tb bitwise cs) c with
    | none => exact h
    | some st' =>
      apply ih
      cases NumState.next_cases hst with
      | plus _ => exact h
      | minus _ => exact h
      | dot _ _ hint _ => cases hint
      | exp _ _ _ hint => cases hint
      | digit _ _ => exact h

/-! ## The value -/

lemma intValue_cases (flags : PnFlags) (ns : List Char) :
    (intValue flags ns : ArithVar t) = .err .eRange ∨
      (intValue flags ns : ArithVar t) = .err .eInvarg ∨
      ∃ i, strtoimax ns = (i, [], false) ∧
        intValue flags ns = .int (BitVec.ofInt t.bits (if flags.nonneg then -i else i)) := by
  obtain ⟨⟨i, p, erange⟩, hi⟩ : ∃ r, strtoimax ns = r := ⟨_, rfl⟩
  simp only [intValue, hi]
  by_cases hrange : (erange || decide (i < (Num.numMin t).toInt) ||
      decide (-(Num.numMin t).toInt - 1 < i)) = true
  · exact Or.inl (if_pos hrange)
  rw [if_neg hrange]
  by_cases hp : p ≠ []
  · exact Or.inr (Or.inl (if_pos hp))
  rw [if_neg hp]
  have he : erange = false := by simp_all
  exact Or.inr (Or.inr ⟨i, by rw [not_not.mp hp, he], rfl⟩)

lemma floatValue_cases (hr : flags.reqInt = false) (ns : List Char) :
    floatValue fl flags ns = .err .eInvarg ∨ floatValue fl flags ns = .err .eFloat ∨
      ∃ d, fl.strtoflnum (if flags.nonneg then ns.tail else ns) = (some d, []) ∧
        floatValue fl flags ns = .float d := by
  obtain ⟨⟨d, p⟩, hd⟩ : ∃ r, fl.strtoflnum (if flags.nonneg then ns.tail else ns) = r := ⟨_, rfl⟩
  simp only [floatValue, hd, hr]
  by_cases hp : p ≠ []
  · exact Or.inl (if_pos hp)
  rw [if_neg hp]
  cases d with
  | none => exact Or.inr (Or.inl rfl)
  | some d => exact Or.inr (Or.inr ⟨d, by rw [not_not.mp hp], rfl⟩)

/-! ## Decimal numbers -/

/-- Whether a number may go on with the first character of the text. -/
def extendsNumber (tb : UtfCtype) (bitwise floatOk : Bool) : List Char → Bool
  | [] => false
  | c :: cs =>
    c.isDigit ||
      floatOk && (c = 'e' || c = 'E' || (c = '.' && !startsToken tb bitwise cs))

/-- The variables behind the digits `ds`. -/
def NumState.afterDigits (st : NumState) (ds : List Char) : NumState :=
  { st with ns := st.ns ++ ds, dfamily := '0'.toNat, digit := true, xsign := true }

lemma toNat_of_isDigit (h : c.isDigit = true) : 48 ≤ c.toNat ∧ c.toNat ≤ 57 := by
  simp only [Char.isDigit, Bool.and_eq_true, decide_eq_true_eq] at h
  exact h

/-- A digit is taken if it is of the family of the digits before it. -/
lemma NumState.next_digit (hd : tb.isDigit c = true)
    (hfamily : st.dfamily ≠ 0 → st.dfamily + tb.digitval c = c.toNat) :
    st.next tb int starts c
      = some { st with dfamily := c.toNat - tb.digitval c, digit := true, xsign := true,
                       ns := st.ns ++ [digitChar tb c] } := by
  have hne {d : Char} (hd' : d.toNat < 128) (hdigit : d.isDigit = false) : c ≠ d := by
    rintro rfl
    rw [tb.isDigit_ascii c hd', hdigit] at hd
    cases hd
  rw [next, if_neg (hne (by decide) (by decide)), if_neg (hne (by decide) (by decide)),
    if_neg (hne (by decide) (by decide)),
    if_neg (not_or.mpr ⟨hne (by decide) (by decide), hne (by decide) (by decide)⟩), if_pos hd]
  dsimp only
  rw [if_neg fun h => h.2 (hfamily h.1), digitChar, if_pos hd]
  congr 2
  split_ifs with hzero
  · rfl
  · have hsum := hfamily hzero
    omega

lemma not_isBare_of_isDigit (hd : tb.isDigit c = true) :
    ¬ (scanNum tb bitwise int (.start flags) (c :: cs)).1.IsBare := by
  intro h
  rw [scanNum, NumState.next_digit hd (fun hzero => absurd rfl hzero)] at h
  exact Bool.noConfusion h.of_scanNum.1

/-- A number takes the first character. -/
lemma scanNum_cons_text {rest : List Char}
    (hst : scanNum tb bitwise int (.start flags) (c :: cs) = (st, rest)) (hbare : ¬ st.IsBare) :
    ∃ text, cs = text ++ rest ∧
      st.ns = (NumState.start flags).ns ++ (c :: text).map (digitChar tb) := by
  rw [scanNum] at hst
  cases hnext : (NumState.start flags).next tb int (startsToken tb bitwise cs) c with
  | none =>
    rw [hnext] at hst
    obtain ⟨rfl, rfl⟩ := Prod.mk.inj hst
    exact absurd ⟨rfl, rfl⟩ hbare
  | some st' =>
    have hst' : scanNum tb bitwise int st' cs = (st, rest) := by rwa [hnext] at hst
    obtain ⟨text, hcs, hns⟩ : ∃ text, cs = text ++ (scanNum tb bitwise int st' cs).2 ∧
        (scanNum tb bitwise int st' cs).1.ns = st'.ns ++ text.map (digitChar tb) :=
      scanNum_text cs st'
    rw [hst'] at hcs hns
    refine ⟨text, hcs, ?_⟩
    rw [hns, NumState.ns_next hnext, List.map_cons, List.append_assoc]
    rfl

lemma NumState.next_ascii_digit (hd : c.isDigit = true)
    (hfamily : st.dfamily = 0 ∨ st.dfamily = '0'.toNat) :
    st.next tb int starts c = some (st.afterDigits [c]) := by
  obtain ⟨hlow, hhigh⟩ := toNat_of_isDigit hd
  have hdigit : tb.isDigit c = true := by rw [tb.isDigit_ascii c (by omega), hd]
  have hzero : '0'.toNat = 48 := rfl
  have hval : tb.digitval c = c.toNat - 48 := tb.digitval_ascii c hd
  have hsum : '0'.toNat + tb.digitval c = c.toNat := by omega
  have hchar : digitChar tb c = c := by
    rw [digitChar, if_pos hdigit, hsum, Char.ofNat_toNat]
  rw [NumState.next_digit hdigit fun h => by omega, hchar, hval, afterDigits]
  congr 2
  omega

lemma scanNum_digits {ds rest : List Char} (hd : ∀ d ∈ ds, d.isDigit = true)
    (hfamily : st.dfamily = 0 ∨ st.dfamily = '0'.toNat) (hne : ds ≠ []) :
    scanNum tb bitwise int st (ds ++ rest) = scanNum tb bitwise int (st.afterDigits ds) rest := by
  induction ds generalizing st with
  | nil => exact absurd rfl hne
  | cons d ds ih =>
    rw [List.cons_append, scanNum, NumState.next_ascii_digit (hd d List.mem_cons_self) hfamily]
    dsimp only
    cases ds with
    | nil => rfl
    | cons d' ds =>
      rw [ih (fun x hx => hd x (List.mem_cons_of_mem d hx)) (Or.inr rfl) (by simp)]
      congr 1
      simp [NumState.afterDigits]

lemma scanNum_stop {rest : List Char} {floatOk : Bool}
    (h : extendsNumber tb bitwise floatOk rest = false) (hfamily : st.dfamily = '0'.toNat)
    (hexp : st.exp = false) (hx : st.xsign = true) :
    scanNum tb bitwise (!floatOk) st rest = (st, rest) := by
  cases rest with
  | nil => rfl
  | cons c cs =>
    have hnone : st.next tb (!floatOk) (startsToken tb bitwise cs) c = none := by
      by_contra hsome
      obtain ⟨st', hst'⟩ := Option.ne_none_iff_exists'.mp hsome
      simp only [extendsNumber, Bool.or_eq_false_iff, Bool.and_eq_false_imp] at h
      obtain ⟨hdigit, hfloat⟩ := h
      cases NumState.next_cases hst' with
      | plus he => simp [hexp] at he
      | minus hx' => simp [hx] at hx'
      | dot _ _ hint hstarts => simp_all
      | exp hc _ _ hint => rcases hc with rfl | rfl <;> simp_all
      | digit hc hf =>
        -- the digit is of the family of '0', and so one of ASCII
        have hsum := hf (by rw [hfamily]; decide)
        have hle := tb.digitval_le c hc
        have hzero : '0'.toNat = 48 := rfl
        have hascii := tb.isDigit_ascii c (by omega)
        rw [hc, hdigit] at hascii
        cases hascii
    rw [scanNum, hnone]

lemma strtoimax_neg_digits {m : ℕ} (hm : (m : Int) ≤ 2 ^ 63) :
    strtoimax ('-' :: Nat.toDigits 10 m) = (-(m : Int), [], false) := by
  cases m with
  | zero => decide
  | succ m =>
    have hmin : intmaxMin ≤ Int.negSucc m := by
      rw [intmaxMin, Int.negSucc_eq]
      omega
    have hmax : Int.negSucc m ≤ intmaxMax :=
      (Int.negSucc_lt_zero m).le.trans (by decide)
    have hdec : strtoimax (decimal (Int.negSucc m) ++ []) = _ := strtoimax_decimal hmin hmax rfl
    rwa [List.append_nil] at hdec

/-- The digits of a number read as that number, up to `NUM_MAX + 1`. -/
lemma intValue_digits {m : ℕ} (hm : (m : Int) ≤ -(Num.numMin t).toInt)
    (hneg : flags.nonneg = true) :
    (intValue flags ('-' :: Nat.toDigits 10 m) : ArithVar t)
      = .int (BitVec.ofInt t.bits m) := by
  have hbits : -(Num.numMin t).toInt ≤ 2 ^ 63 := by
    cases t <;> decide
  have hnum : (Num.numMin t).toInt < 0 := by
    cases t <;> decide
  simp only [intValue, strtoimax_neg_digits (hm.trans hbits), hneg]
  rw [if_neg (by simp only [Bool.false_or, Bool.or_eq_true, decide_eq_true_eq]; omega)]
  simp

end

end LambdaMOO
