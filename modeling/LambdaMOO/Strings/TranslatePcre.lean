import LambdaMOO.Strings.Match
import LambdaMOO.Strings.TranslateYlo
import Mathlib.Data.List.Chain

/-!
# The translation for PCRE

`translate` makes a pattern of MOO into one for PCRE, in a group of its own with a callout behind
it. Its characters are those of the pattern with Unicode, and the bytes without. The rules of
PCRE are those for backslashes, sets, suffixes of quantifiers and groups.
-/

namespace LambdaMOO.Regexp

open Suffixes

/-! ## Tokens of PCRE -/

inductive Quantifier where
  | optional
  | star
  | plus
  deriving DecidableEq, Repr

/-- What a `?` or `+` behind a quantifier makes of it. -/
inductive Mode where
  | greedy
  | lazy
  | possessive
  deriving DecidableEq, Repr

inductive Group where
  | capturing
  | noncapturing
  | lookahead
  | lookbehind
  | other
  deriving DecidableEq, Repr

/-- What can stand in a set. A bracket may start the name of a class. -/
inductive SetItem where
  | char (c : Char)
  | dash
  | bracket
  | escape (c : Char)
  deriving DecidableEq, Repr

/-- What can stand in a pattern of PCRE. A brace may start a quantifier. -/
inductive PcreToken where
  | normal (c : Char)
  | anychar
  | bol
  | eol
  | quantifier (q : Quantifier) (mode : Mode)
  | or
  | openpar (group : Group)
  | closepar
  | memory (n : Nat)
  | set (complement : Bool) (members : List SetItem)
  | escape (c : Char)
  | brace
  | comment
  | callout
  deriving DecidableEq, Repr

/-- A quantifier is no operand of a further one. -/
def PcreToken.role : PcreToken → Role
  | .openpar _ => .opens
  | .closepar => .closes
  | .quantifier .. | .or | .bol | .eol | .brace | .comment | .callout => .other
  | _ => .item

/-! ## Reading a pattern of PCRE -/

/-- Where a reader is: behind a backslash, within the number of a group, behind `(`, `(?`, `(?<`
or `(?C`, within a comment, behind the start of a set, behind some of its members, or behind a
backslash there. -/
inductive PcreState where
  | base
  | quoted
  | number (n : Nat)
  | group
  | special
  | behind
  | callout
  | comment
  | openset
  | inSet (complement first : Bool) (members : List SetItem)
  | setQuoted (complement : Bool) (members : List SetItem)
  deriving DecidableEq, Repr

def pcreBase (c : Char) : List PcreToken × PcreState :=
  match c with
  | '\\' => ([], .quoted)
  | '[' => ([], .openset)
  | '(' => ([], .group)
  | ')' => ([.closepar], .base)
  | '|' => ([.or], .base)
  | '.' => ([.anychar], .base)
  | '^' => ([.bol], .base)
  | '$' => ([.eol], .base)
  | '?' => ([.quantifier .optional .greedy], .base)
  | '*' => ([.quantifier .star .greedy], .base)
  | '+' => ([.quantifier .plus .greedy], .base)
  | '\x7b' => ([.brace], .base)
  | c => ([.normal c], .base)

def setItem (c : Char) : SetItem :=
  match c with
  | '-' => .dash
  | '[' => .bracket
  | c => .char c

/-- The first member of a set may be a closing bracket. -/
def pcreSet (complement first : Bool) (members : List SetItem) (c : Char) :
    List PcreToken × PcreState :=
  if c = ']' ∧ first = false then ([.set complement members], .base)
  else if c = '\\' then ([], .setQuoted complement members)
  else ([], .inSet complement false (members ++ [setItem c]))

/-- The reader of patterns. Quantifiers are without their suffixes. -/
def pcreReader : Transducer PcreState Char PcreToken where
  step
    | .base, c => pcreBase c
    | .quoted, c =>
      if c.isDigit && c != '0' then ([], .number (c.toNat - '0'.toNat))
      else if c.isAlphanum then ([.escape c], .base)
      else ([.normal c], .base)
    | .number n, c =>
      if c.isDigit then ([], .number (10 * n + (c.toNat - '0'.toNat)))
      else (.memory n :: (pcreBase c).1, (pcreBase c).2)
    | .group, c =>
      if c = '?' then ([], .special)
      else if c = '*' then ([.openpar .other], .base)
      else (.openpar .capturing :: (pcreBase c).1, (pcreBase c).2)
    | .special, c =>
      match c with
      | ':' => ([.openpar .noncapturing], .base)
      | '=' => ([.openpar .lookahead], .base)
      | '<' => ([], .behind)
      | '#' => ([], .comment)
      | 'C' => ([], .callout)
      | _ => ([.openpar .other], .base)
    | .behind, c => ([.openpar (if c = '=' then .lookbehind else .other)], .base)
    | .callout, c =>
      if c = ')' then ([.callout], .base)
      else if c.isDigit then ([], .callout)
      else ([.openpar .other], .base)
    | .comment, c => if c = ')' then ([.comment], .base) else ([], .comment)
    | .openset, c => if c = '^' then ([], .inSet true true []) else pcreSet false true [] c
    | .inSet complement first members, c => pcreSet complement first members c
    | .setQuoted complement members, c =>
      ([], .inSet complement false (members ++ [if c.isAlphanum then .escape c else .char c]))
  finish
    | .base => some []
    | .number n => some [.memory n]
    | _ => none

/-- A quantifier takes a `?` or `+` that follows it as its suffix. Comments play no part. -/
def joinSuffixes : List PcreToken → List PcreToken
  | [] => []
  | .comment :: ts => joinSuffixes ts
  | .quantifier q .greedy :: .quantifier .optional .greedy :: ts =>
    .quantifier q .lazy :: joinSuffixes ts
  | .quantifier q .greedy :: .quantifier .plus .greedy :: ts =>
    .quantifier q .possessive :: joinSuffixes ts
  | t :: ts => t :: joinSuffixes ts

/-- The tokens of a pattern of PCRE, unless it ends with a backslash that quotes nothing, or
within a set, a comment or the sign for a group. -/
def pcreTokens (pattern : List Char) : Option (List PcreToken) :=
  (pcreReader.run .base pattern).map joinSuffixes

/-! ## The translation -/

/-- The states of `translate`. -/
inductive TranslateState where
  | base
  | esc
  | csetInit
  | csetInit2
  | cset
  deriving DecidableEq, Repr

def pWord : List Char := "[^\\W_]".toList

def pNonword : List Char := "[\\W_]".toList

def pAlt (a b : List Char) : List Char := "(?:".toList ++ a ++ "|".toList ++ b ++ ")".toList

def pLbehind (p : List Char) : List Char := "(?<=".toList ++ p ++ ")".toList

def pLahead (p : List Char) : List Char := "(?=".toList ++ p ++ ")".toList

def pLookba (b a : List Char) : List Char := pLbehind b ++ pLahead a

def pWordBegin : List Char := pAlt "^".toList (pLbehind pNonword) ++ pLahead pWord

def pWordEnd : List Char := pLbehind pWord ++ pAlt "$".toList (pLahead pNonword)

/-- What is written for a character behind a `%`. The digit is what `%d` prints. -/
def translateEsc (c : Char) : List Char :=
  match c with
  | '\\' | '^' | '$' | '.' | '[' | '?' | '*' | '+' | '\x7b' => ['\\', c]
  | '(' => c :: "(?#)".toList
  | '1' | '2' | '3' | '4' | '5' | '6' | '7' | '8' | '9' => '\\' :: c :: "(?#)".toList
  | 'b' => pAlt pWordBegin pWordEnd
  | 'B' => pAlt (pLookba pWord pWord) (pLookba pNonword pNonword)
  | '<' => pWordBegin
  | '>' => pWordEnd
  | 'w' => pWord
  | 'W' => pNonword
  | c => [c]

/-- The switch of `translate`. -/
def translateStep : TranslateState → Char → List Char × TranslateState
  | .base, c =>
    match c with
    | '\\' | '|' | '(' | ')' | '\x7b' => (['\\', c], .base)
    | '[' => ([c], .csetInit)
    | '%' => ([], .esc)
    | c => ([c], .base)
  | .csetInit, c =>
    match c with
    | '\\' | '[' => (['\\', c], .cset)
    | '^' => ([c], .csetInit2)
    | c => ([c], .cset)
  | .csetInit2, c =>
    match c with
    | '\\' | '[' => (['\\', c], .cset)
    | c => ([c], .cset)
  | .cset, c =>
    match c with
    | '\\' | '[' => (['\\', c], .cset)
    | ']' => ([c], .base)
    | c => ([c], .cset)
  | .esc, c => (translateEsc c, .base)

/-- What `translate` writes behind the loop. -/
def translateEnd : TranslateState → List Char
  | .esc => ")(?C)\\".toList
  | _ => ")(?C)".toList

/-- The loop of `translate` on characters, and what follows. -/
def translateChars : TranslateState → List Char → List Char
  | st, [] => translateEnd st
  | st, c :: p => (translateStep st c).1 ++ translateChars (translateStep st c).2 p

/-- `translate` on characters. -/
def translate (moopat : List Char) : List Char := "(?:".toList ++ translateChars .base moopat

/-- The loop of `translate` on the bytes of a build with Unicode, cut off after `n` turns. -/
def translateLoop : Nat → TranslateState → List UInt8 → Option (List UInt8)
  | 0, _, _ => none
  | n + 1, st, s =>
    let (c, k) := getUtf s
    if c ≠ 0 then
      (translateLoop n (translateStep st (Char.ofNat c)).2 (s.drop k)).map
        ((translateStep st (Char.ofNat c)).1.flatMap String.utf8EncodeChar ++ ·)
    else some ((translateEnd st).flatMap String.utf8EncodeChar)

/-- `translate` of `pattern_pcre.c` in a build with Unicode. -/
def translateBytes (moopat : List UInt8) : Option (List UInt8) :=
  (translateLoop (moopat.length + 1) .base moopat).map (utf8Bytes "(?:" ++ ·)

/-! ## Images -/

/-- A member of a set. -/
def pcreMember (c : Char) : SetItem := if c = '-' then .dash else .char c

def wordSet : PcreToken := .set true [.escape 'W', .char '_']

def nonwordSet : PcreToken := .set false [.escape 'W', .char '_']

def wordBegin : List PcreToken :=
  [.openpar .noncapturing, .bol, .or, .openpar .lookbehind, nonwordSet, .closepar, .closepar,
    .openpar .lookahead, wordSet, .closepar]

def wordEnd : List PcreToken :=
  [.openpar .lookbehind, wordSet, .closepar, .openpar .noncapturing, .eol, .or,
    .openpar .lookahead, nonwordSet, .closepar, .closepar]

/-- What a token of a pattern of MOO is for PCRE, which has no tokens for the edges of words that
MOO knows. -/
def pcreImage : Token → List PcreToken
  | .normal c => [.normal c]
  | .anychar => [.anychar]
  | .bol => [.bol]
  | .eol => [.eol]
  | .optional => [.quantifier .optional .greedy]
  | .star => [.quantifier .star .greedy]
  | .plus => [.quantifier .plus .greedy]
  | .or => [.or]
  | .openpar => [.openpar .capturing]
  | .closepar => [.closepar]
  | .memory n => [.memory n]
  | .set complement members => [.set complement (members.map pcreMember)]
  | .begbuf => [.escape 'A']
  | .endbuf => [.escape 'z']
  | .wordchar => [wordSet]
  | .notwordchar => [nonwordSet]
  | .wordbeg => wordBegin
  | .wordend => wordEnd
  | .wordbound =>
    [.openpar .noncapturing] ++ wordBegin ++ [.or] ++ wordEnd ++ [.closepar]
  | .notwordbound =>
    [.openpar .noncapturing, .openpar .lookbehind, wordSet, .closepar, .openpar .lookahead,
      wordSet, .closepar, .or, .openpar .lookbehind, nonwordSet, .closepar, .openpar .lookahead,
      nonwordSet, .closepar, .closepar]

/-- What `translate` writes for a token. A comment keeps it from what follows. -/
def writtenImage (t : Token) : List PcreToken :=
  match t with
  | .openpar | .memory _ => pcreImage t ++ [.comment]
  | t => pcreImage t

lemma pcreImage_image : Image Token.role PcreToken.role pcreImage where
  opens t h := by
    cases t with
    | openpar => exact ⟨_, rfl, rfl⟩
    | _ => cases h
  closes t h := by
    cases t with
    | closepar => exact ⟨_, rfl, rfl⟩
    | _ => cases h
  other t h := by
    cases t with
    | bol | eol | or => exact ⟨_, rfl, rfl⟩
    | _ => cases h
  level t ho hc := by
    cases t with
    | openpar => exact absurd rfl ho
    | closepar => exact absurd rfl hc
    | wordbeg | wordend | wordbound | notwordbound => exact ⟨fun d => rfl, fun d us => rfl⟩
    | _ => exact Level.singleton (by rintro ⟨⟩) (by rintro ⟨⟩)

lemma whole_pcreImage {t : Token} (h : t.role = .item) (hbeg : t ≠ .wordbeg)
    (hend : t ≠ .wordend) : Whole PcreToken.role (pcreImage t) := by
  intro us
  cases t with
  | wordbeg => exact absurd rfl hbeg
  | wordend => exact absurd rfl hend
  | bol | eol | optional | star | plus | or | openpar | closepar => cases h
  | _ => rfl

/-! ## Reading the translation -/

/-- The state of `translate` at a place in the pattern. -/
def ReadState.translate : ReadState → TranslateState
  | .base => .base
  | .quoted => .esc
  | .openset => .csetInit
  | .complemented => .csetInit2
  | .inSet _ _ => .cset

/-- Where a reader of the translation is. Behind a `%` nothing has been written. -/
def ReadState.pcre : ReadState → PcreState
  | .base | .quoted => .base
  | .openset => .openset
  | .complemented => .inSet true true []
  | .inSet complement members => .inSet complement false (members.map pcreMember)

def translator : Transducer TranslateState Char Char where
  step := translateStep
  finish st := some (translateEnd st)

lemma translator_run (st : TranslateState) (p : List Char) :
    translator.run st p = some (translateChars st p) := by
  induction p generalizing st with
  | nil => rfl
  | cons c p ih =>
    rw [Transducer.run_cons, ih]
    rfl

/-- The characters that a pattern of PCRE or of MOO treats in their own way. -/
def isSpecial (c : Char) : Bool := "\\[]()|.^$?*+-%123456789bB<>wW\x7b".toList.contains c

section

variable {c : Char}

lemma translateStep_base (h : isSpecial c = false) : translateStep .base c = ([c], .base) := by
  dsimp only [translateStep]
  split <;> first | rfl | exact absurd h (by decide)

lemma pcreBase_normal (h : isSpecial c = false) : pcreBase c = ([.normal c], .base) := by
  unfold pcreBase
  split <;> first | rfl | exact absurd h (by decide)

lemma plainOps_normal (h : isSpecial c = false) : plainOps c = .normal c := by
  unfold plainOps
  split <;> first | rfl | exact absurd h (by decide)

lemma translateEsc_normal (h : isSpecial c = false) : translateEsc c = [c] := by
  unfold translateEsc
  split <;> first | rfl | exact absurd h (by decide)

lemma percentOps_normal (h : isSpecial c = false) : percentOps c = .normal c := by
  refine percentOps_of_not_special (Bool.eq_false_iff.mpr fun hylo => ?_)
  have hall : ".*+?[^$|()123456789bB<>wW".toList.all isSpecial := by decide
  have hspecial := List.all_eq_true.mp hall c (List.contains_iff_mem.mp hylo)
  exact absurd h (by rw [hspecial]; decide)

/-- A character that is read and what is read from its translation. -/
def Reads (q : ReadState) (c : Char) : Prop :=
  (translator.step q.translate c).2 = (mooReader.step q c).2.translate ∧
    pcreReader.feed q.pcre (translator.step q.translate c).1
      = ((mooReader.step q c).1.flatMap writtenImage, (mooReader.step q c).2.pcre)

instance (q : ReadState) (c : Char) : Decidable (Reads q c) :=
  inferInstanceAs (Decidable (_ ∧ _))

lemma reads_base (c : Char) : Reads .base c := by
  cases h : isSpecial c with
  | true =>
    have hall : "\\[]()|.^$?*+-%123456789bB<>wW\x7b".toList.all fun c => Reads .base c := by
      decide
    exact of_decide_eq_true (List.all_eq_true.mp hall c (List.contains_iff_mem.mp h))
  | false =>
    have hpercent : c ≠ '%' := fun hc => absurd h (by rw [hc]; decide)
    have hset : c ≠ '[' := fun hc => absurd h (by rw [hc]; decide)
    have hmoo : mooReader.step .base c = ([.normal c], .base) := by
      simp only [mooReader, reader, if_neg hpercent, if_neg hset, plainOps_normal h]
    have hpcre : pcreReader.feed .base [c] = ([.normal c], .base) := by
      rw [Transducer.feed_singleton]
      exact pcreBase_normal h
    rw [Reads, hmoo]
    simp only [translator, ReadState.translate, translateStep_base h, ReadState.pcre, hpcre]
    exact ⟨trivial, rfl⟩

lemma reads_quoted (c : Char) : Reads .quoted c := by
  cases h : isSpecial c with
  | true =>
    have hall : "\\[]()|.^$?*+-%123456789bB<>wW\x7b".toList.all fun c => Reads .quoted c := by
      decide
    exact of_decide_eq_true (List.all_eq_true.mp hall c (List.contains_iff_mem.mp h))
  | false =>
    have hpcre : pcreReader.feed .base [c] = ([.normal c], .base) := by
      rw [Transducer.feed_singleton]
      exact pcreBase_normal h
    rw [Reads, show mooReader.step .quoted c = ([percentOps c], .base) from rfl,
      percentOps_normal h]
    simp only [translator, ReadState.translate, translateStep, translateEsc_normal h,
      ReadState.pcre, hpcre]
    exact ⟨trivial, rfl⟩

lemma translateStep_csetInit (hbackslash : c ≠ '\\') (hset : c ≠ '[') (hcomplement : c ≠ '^') :
    translateStep .csetInit c = ([c], .cset) := by
  dsimp only [translateStep]
  split <;> first | rfl | contradiction

lemma translateStep_csetInit2 (hbackslash : c ≠ '\\') (hset : c ≠ '[') :
    translateStep .csetInit2 c = ([c], .cset) := by
  dsimp only [translateStep]
  split <;> first | rfl | contradiction

lemma translateStep_cset (hbackslash : c ≠ '\\') (hset : c ≠ '[') (hend : c ≠ ']') :
    translateStep .cset c = ([c], .cset) := by
  dsimp only [translateStep]
  split <;> first | rfl | contradiction

lemma setItem_eq (hset : c ≠ '[') : setItem c = pcreMember c := by
  by_cases hdash : c = '-'
  · rw [hdash]
    rfl
  rw [pcreMember, if_neg hdash]
  unfold setItem
  split <;> first | rfl | contradiction

lemma pcreSet_member {complement first : Bool} {members : List SetItem} (hbackslash : c ≠ '\\')
    (hset : c ≠ '[') (hend : c = ']' → first = true) :
    pcreSet complement first members c
      = ([], .inSet complement false (members ++ [pcreMember c])) := by
  have hopen : ¬ (c = ']' ∧ first = false) := fun h => absurd (hend h.1) (by rw [h.2]; decide)
  rw [pcreSet, if_neg hopen, if_neg hbackslash, setItem_eq hset]

lemma reads_openset (c : Char) : Reads .openset c := by
  by_cases hbackslash : c = '\\'
  · rw [hbackslash]
    decide
  by_cases hset : c = '['
  · rw [hset]
    decide
  by_cases hcomplement : c = '^'
  · rw [hcomplement]
    decide
  have hmoo : mooReader.step .openset c = ([], .inSet false [c]) := if_neg hcomplement
  have hpcre : pcreReader.feed .openset [c] = ([], .inSet false false [pcreMember c]) := by
    rw [Transducer.feed_singleton]
    exact (if_neg hcomplement).trans (pcreSet_member hbackslash hset fun _ => rfl)
  rw [Reads, hmoo]
  simp only [translator, ReadState.translate, ReadState.pcre,
    translateStep_csetInit hbackslash hset hcomplement, hpcre]
  exact ⟨trivial, rfl⟩

lemma reads_complemented (c : Char) : Reads .complemented c := by
  by_cases hbackslash : c = '\\'
  · rw [hbackslash]
    decide
  by_cases hset : c = '['
  · rw [hset]
    decide
  have hpcre : pcreReader.feed (.inSet true true []) [c]
      = ([], .inSet true false [pcreMember c]) := by
    rw [Transducer.feed_singleton]
    exact pcreSet_member hbackslash hset fun _ => rfl
  rw [Reads, show mooReader.step .complemented c = ([], .inSet true [c]) from rfl]
  simp only [translator, ReadState.translate, ReadState.pcre,
    translateStep_csetInit2 hbackslash hset, hpcre]
  exact ⟨trivial, rfl⟩

lemma reads_inSet (complement : Bool) (members : List Char) (c : Char) :
    Reads (.inSet complement members) c := by
  by_cases hend : c = ']'
  · rw [hend]
    exact ⟨rfl, rfl⟩
  have hmoo : mooReader.step (.inSet complement members) c
      = ([], .inSet complement (members ++ [c])) := if_neg hend
  have hpcre : pcreReader.feed (.inSet complement false (members.map pcreMember))
      (translateStep .cset c).1
        = ([], .inSet complement false (members.map pcreMember ++ [pcreMember c])) := by
    by_cases hbackslash : c = '\\'
    · rw [hbackslash]
      rfl
    by_cases hset : c = '['
    · rw [hset]
      rfl
    rw [translateStep_cset hbackslash hset hend, Transducer.feed_singleton]
    exact pcreSet_member hbackslash hset fun h => absurd h hend
  have hcset : (translateStep .cset c).2 = .cset := by
    by_cases hbackslash : c = '\\'
    · rw [hbackslash]
      rfl
    by_cases hset : c = '['
    · rw [hset]
      rfl
    rw [translateStep_cset hbackslash hset hend]
  rw [Reads, hmoo]
  simp only [translator, ReadState.translate, ReadState.pcre, hcset, hpcre, List.map_append]
  exact ⟨trivial, rfl⟩

lemma reads (q : ReadState) (c : Char) : Reads q c := by
  cases q with
  | base => exact reads_base c
  | quoted => exact reads_quoted c
  | openset => exact reads_openset c
  | complemented => exact reads_complemented c
  | inSet complement members => exact reads_inSet complement members c

end

/-- The tokens of a translation, before suffixes are joined. -/
lemma pcreReader_translate (p : List Char) :
    pcreReader.run .base (translate p)
      = (mooTokens p).map fun ts =>
          .openpar .noncapturing :: (ts.flatMap writtenImage ++ [.closepar, .callout]) := by
  have hbind : (translator.run .base p).bind (pcreReader.run .base)
      = (mooTokens p).map (·.flatMap writtenImage ++ [.closepar, .callout]) := by
    refine Transducer.run_bind (f := ReadState.translate) (g := ReadState.pcre)
      (fun q c => (reads q c).1) (fun q c _ => (reads q c).2) (fun q => ?_)
      (mooReader.along_true .base p)
    cases q with
    | base | quoted | openset | complemented | inSet => rfl
  have hfeed : pcreReader.feed .base "(?:".toList = ([.openpar .noncapturing], .base) := by
    decide
  rw [translator_run, Option.bind_some] at hbind
  rw [translate, Transducer.run_append, hfeed]
  refine (congrArg _ hbind).trans ?_
  rw [Option.map_map]
  rfl

/-! ## Suffixes -/

section

variable {us : List PcreToken}

/-- A quantifier keeps its mode in front of a token that is no quantifier. -/
lemma joinSuffixes_quantifier {q : Quantifier}
    (h : ∀ r mode, us.head? ≠ some (.quantifier r mode)) :
    joinSuffixes (.quantifier q .greedy :: us) = .quantifier q .greedy :: joinSuffixes us := by
  cases us with
  | nil => rfl
  | cons t us =>
    cases t with
    | quantifier r mode => exact absurd rfl (h r mode)
    | _ => rfl

lemma depthAfter_joinSuffixes (d : Nat) :
    depthAfter PcreToken.role d (joinSuffixes us) = depthAfter PcreToken.role d us := by
  fun_induction joinSuffixes us generalizing d with
  | case1 => rfl
  | case2 ts ih => exact ih d
  | case3 q ts ih => exact ih d
  | case4 q ts ih => exact ih d
  | case5 t ts _ _ _ ih =>
    rw [depthAfter, depthAfter]
    congr 1
    funext e
    exact ih e

end

/-- The operand of each suffix is one for PCRE, too: it is not a suffix, and is not replaced by
two things one after the other. -/
def Apart (t q : Token) : Prop :=
  q.role = .suffix → t.role ≠ .suffix ∧ t ≠ .wordbeg ∧ t ≠ .wordend

instance (t q : Token) : Decidable (Apart t q) := inferInstanceAs (Decidable (_ → _))

section

variable {t : Token} {ts : List Token}

lemma exists_quantifier (h : t.role = .suffix) :
    ∃ q, writtenImage t = [.quantifier q .greedy] ∧ pcreImage t = [.quantifier q .greedy] := by
  cases t with
  | optional | star | plus => exact ⟨_, rfl, rfl⟩
  | _ => cases h

lemma joinSuffixes_written (h : t.role ≠ .suffix) (us : List PcreToken) :
    joinSuffixes (writtenImage t ++ us) = pcreImage t ++ joinSuffixes us := by
  cases t with
  | optional | star | plus => exact absurd rfl h
  | _ => rfl

lemma head?_written (h : t.role ≠ .suffix) (us : List PcreToken) (q : Quantifier) (mode : Mode) :
    (writtenImage t ++ us).head? ≠ some (.quantifier q mode) := by
  cases t with
  | optional | star | plus => exact absurd rfl h
  | _ => rintro ⟨⟩

lemma joinSuffixes_writtenImage (h : ts.IsChain Apart) :
    joinSuffixes (ts.flatMap writtenImage ++ [.closepar, .callout])
      = ts.flatMap pcreImage ++ [.closepar, .callout] := by
  induction ts with
  | nil => rfl
  | cons t ts ih =>
    obtain ⟨hfirst, hrest⟩ := List.isChain_cons.mp h
    rw [List.flatMap_cons, List.flatMap_cons, List.append_assoc, List.append_assoc]
    by_cases hsuffix : t.role = .suffix
    · -- what follows is no quantifier, so that the mode stays
      have hhead : ∀ q mode, (ts.flatMap writtenImage ++ [PcreToken.closepar, .callout]).head?
          ≠ some (.quantifier q mode) := by
        intro q mode
        cases ts with
        | nil => rintro ⟨⟩
        | cons u ts =>
          have hu : u.role ≠ .suffix := fun hu => (hfirst u rfl hu).1 hsuffix
          rw [List.flatMap_cons, List.append_assoc]
          exact head?_written hu _ q mode
      obtain ⟨q, hwritten, himage⟩ := exists_quantifier hsuffix
      rw [hwritten, himage, List.singleton_append, List.singleton_append,
        joinSuffixes_quantifier hhead, ih hrest]
    · rw [joinSuffixes_written hsuffix, ih hrest]

lemma depthAfter_written (d : Nat) :
    depthAfter PcreToken.role d (ts.flatMap writtenImage) = depthAfter Token.role d ts := by
  rw [← pcreImage_image.depthAfter_flatMap]
  induction ts generalizing d with
  | nil => rfl
  | cons t ts ih =>
    have htoken : depthAfter PcreToken.role d (writtenImage t)
        = depthAfter PcreToken.role d (pcreImage t) := by
      cases t with
      | _ => rfl
    rw [List.flatMap_cons, List.flatMap_cons, depthAfter_append, depthAfter_append, htoken]
    congr 1
    funext e
    exact ih e

end

/-! ## Correctness -/

/-- Each suffix has the image of its operand as its operand in the translation. -/
def SameOperands (ts : List Token) : Prop :=
  ∀ pre q post, ts = pre ++ q :: post → q.role = .suffix →
    operand PcreToken.role (.openpar .noncapturing :: pre.flatMap pcreImage)
      = (operand Token.role pre).flatMap pcreImage

/-- A pattern without tokens is refused. One whose groups are balanced is translated to the images
of its tokens, in a group of its own, with the operands that they had. In the translation of
another one the groups are not balanced either. -/
structure PcreRight (pattern : List Char) : Prop where
  refused : mooTokens pattern = none → pcreTokens (translate pattern) = none
  translated : ∀ ts, mooTokens pattern = some ts → IsBalanced Token.role ts →
    pcreTokens (translate pattern)
      = some (.openpar .noncapturing :: (ts.flatMap pcreImage ++ [.closepar, .callout])) ∧
    SameOperands ts
  unbalanced : ∀ ts, mooTokens pattern = some ts → ¬ IsBalanced Token.role ts →
    ∀ us, pcreTokens (translate pattern) = some us → ¬ IsBalanced PcreToken.role us

section

variable {p : List Char} {ts : List Token}

lemma pcreTokens_translate (p : List Char) :
    pcreTokens (translate p) = (mooTokens p).map fun ts =>
      .openpar .noncapturing ::
        joinSuffixes (ts.flatMap writtenImage ++ [.closepar, .callout]) := by
  rw [pcreTokens, pcreReader_translate, Option.map_map]
  rfl

/-- The group around the translation is balanced if it is open again behind the pattern. -/
lemma balanced_translation_iff : IsBalanced PcreToken.role (.openpar .noncapturing ::
      joinSuffixes (ts.flatMap writtenImage ++ [.closepar, .callout]))
    ↔ depthAfter Token.role 1 ts = some 1 := by
  have hdepth : depthAfter PcreToken.role 0 (.openpar .noncapturing ::
      joinSuffixes (ts.flatMap writtenImage ++ [.closepar, .callout]))
        = (depthAfter Token.role 1 ts).bind fun e =>
            depthAfter PcreToken.role e [.closepar, .callout] := by
    rw [← depthAfter_written, ← depthAfter_append]
    exact depthAfter_joinSuffixes 1
  rw [IsBalanced, hdepth, Option.bind_eq_some_iff]
  constructor
  · rintro ⟨e, he, hclose⟩
    cases e with
    | zero => cases hclose
    | succ e =>
      obtain rfl : e = 0 := Option.some_injective _ hclose
      exact he
  · intro h
    exact ⟨1, h, rfl⟩

lemma isChain_of_sameOperands (h : SameOperands ts) : ts.IsChain Apart := by
  rw [List.isChain_iff_forall_rel_of_append_cons_cons]
  rintro t q pre post rfl hq
  have hsame := h (pre ++ [t]) q post (by rw [List.append_assoc]; rfl) hq
  have hback : operandBack PcreToken.role
      ((pcreImage t).reverse ++ ((pre.flatMap pcreImage).reverse ++ [.openpar .noncapturing]))
        = (((operandBack Token.role (t :: pre.reverse)).reverse).flatMap pcreImage).reverse := by
    have hreverse := congrArg List.reverse hsame
    rw [operand, operand, List.reverse_reverse, List.reverse_append, List.reverse_singleton,
      List.reverse_cons, List.flatMap_append, List.flatMap_singleton, List.reverse_append,
      List.append_assoc] at hreverse
    exact hreverse
  refine ⟨fun ht => ?_, ?_, ?_⟩
  · -- behind a quantifier there is no operand
    obtain ⟨r, -, himage⟩ := exists_quantifier ht
    have hnested : operandBack Token.role (t :: pre.reverse)
        = t :: operandBack Token.role pre.reverse := by
      simp only [operandBack, ht]
    rw [hnested, List.reverse_cons, List.flatMap_append, List.flatMap_singleton,
      List.reverse_append, himage] at hback
    exact absurd hback (List.cons_ne_nil _ _).symm
  · rintro rfl
    have hlength : 3 = 10 := congrArg List.length hback
    exact absurd hlength (by decide)
  · rintro rfl
    have hlength : 7 = 10 := congrArg List.length hback
    exact absurd hlength (by decide)

lemma sameOperands_of_isChain (hbalanced : IsBalanced Token.role ts) (h : ts.IsChain Apart) :
    SameOperands ts := by
  rintro pre q post rfl hq
  have hdepth : (depthAfter Token.role 0 pre).isSome := by
    rw [IsBalanced, depthAfter_append] at hbalanced
    obtain ⟨e, he, -⟩ := Option.bind_eq_some_iff.mp hbalanced
    rw [he]
    rfl
  refine pcreImage_image.operand_flatMap rfl hdepth fun t ht => ?_
  obtain ⟨hsuffix, hbeg, hend⟩ := (List.isChain_append.mp h).2.2 t ht q rfl hq
  exact ⟨hsuffix, fun hitem => whole_pcreImage hitem hbeg hend⟩

/-- `translate` is right unless a suffix follows another one or the sign for an edge of a word, or
groups that are not balanced are so together with the group around the translation. -/
lemma pcreRight_iff (p : List Char) :
    PcreRight p ↔ ∀ ts, mooTokens p = some ts →
      (IsBalanced Token.role ts → ts.IsChain Apart) ∧
      (¬ IsBalanced Token.role ts → depthAfter Token.role 1 ts ≠ some 1) := by
  have htokens := pcreTokens_translate p
  constructor
  · intro hright ts hts
    refine ⟨fun hbalanced => isChain_of_sameOperands (hright.translated ts hts hbalanced).2,
      fun hnot hdepth => ?_⟩
    rw [hts] at htokens
    exact hright.unbalanced ts hts hnot _ htokens (balanced_translation_iff.mpr hdepth)
  · intro h
    refine ⟨fun hnone => ?_, fun ts hts hbalanced => ?_, fun ts hts hnot us hus => ?_⟩
    · rw [htokens, hnone]
      rfl
    · have hchain := (h ts hts).1 hbalanced
      refine ⟨?_, sameOperands_of_isChain hbalanced hchain⟩
      rw [htokens, hts, Option.map_some, joinSuffixes_writtenImage hchain]
    · rw [htokens, hts] at hus
      obtain rfl := Option.some_injective _ hus
      exact fun hbalanced => (h ts hts).2 hnot (balanced_translation_iff.mp hbalanced)

end

lemma translateLoop_eq {cs : List Char} (hzero : '\x00' ∉ cs) {n : Nat}
    (hn : (cs.flatMap String.utf8EncodeChar).length < n) (st : TranslateState) :
    translateLoop n st (cs.flatMap String.utf8EncodeChar)
      = some ((translateChars st cs).flatMap String.utf8EncodeChar) := by
  induction cs generalizing n st with
  | nil =>
    obtain ⟨n, rfl⟩ : ∃ m, n = m + 1 := ⟨n - 1, by omega⟩
    rfl
  | cons c cs ih =>
    obtain ⟨n, rfl⟩ : ∃ m, n = m + 1 := ⟨n - 1, by omega⟩
    rw [List.mem_cons, not_or] at hzero
    have hne : c.toNat ≠ 0 := fun hc => hzero.1 (Char.toNat_inj.mp hc).symm
    rw [List.flatMap_cons, List.length_append] at hn
    have hpos : 0 < (String.utf8EncodeChar c).length := by
      rw [String.length_utf8EncodeChar]
      exact Char.utf8Size_pos c
    rw [List.flatMap_cons, translateLoop, getUtf_putUtf (putUtf_toNat c)]
    dsimp only
    rw [if_pos hne, List.drop_left, Char.ofNat_toNat, ih hzero.2 (by omega), Option.map_some,
      translateChars, List.flatMap_append]

/-- On bytes `translate` does what it does on characters. -/
lemma translateBytes_eq (pattern : String) (hzero : '\x00' ∉ pattern.toList) :
    translateBytes (utf8Bytes pattern)
      = some (utf8Bytes (String.ofList (translate pattern.toList))) := by
  have hloop : translateLoop ((utf8Bytes pattern).length + 1) .base (utf8Bytes pattern)
      = some ((translateChars .base pattern.toList).flatMap String.utf8EncodeChar) :=
    translateLoop_eq hzero (Nat.lt_succ_self _) .base
  have htext : utf8Bytes (String.ofList (translate pattern.toList))
      = (translate pattern.toList).flatMap String.utf8EncodeChar :=
    congrArg (List.flatMap String.utf8EncodeChar) String.toList_ofList
  rw [translateBytes, hloop, htext, Option.map_some, translate, List.flatMap_append]
  rfl

/-- Both translations are right but for three slips. `translate_pattern` copies a backslash that
is quoted, unless it refuses the pattern. `translate` does not keep a suffix from the one in
front of it, and writes two things in front of it for the edge of a word; and groups that are not
balanced may be so with the group around the translation. -/
theorem translations_right_iff (p : List Char) :
    (YloRight p ↔ ((mooTokens p).isSome → mooReader.Along KeepsBackslash .base p)) ∧
    (PcreRight p ↔ ∀ ts, mooTokens p = some ts →
      (IsBalanced Token.role ts → ts.IsChain Apart) ∧
      (¬ IsBalanced Token.role ts → depthAfter Token.role 1 ts ≠ some 1)) ∧
    ∀ pattern : String, '\x00' ∉ pattern.toList → translateBytes (utf8Bytes pattern)
      = some (utf8Bytes (String.ofList (translate pattern.toList))) :=
  ⟨yloRight_iff p, pcreRight_iff p, translateBytes_eq⟩

/-- The translations of `a%(b%|[^]%\]%)%1` are right. -/
theorem translations_right_iff_groups :
    YloRight "a%(b%|[^]%\\]%)%1".toList ∧ PcreRight "a%(b%|[^]%\\]%)%1".toList ∧
      translateBytes (utf8Bytes "%w")
        = some (utf8Bytes (String.ofList (translate "%w".toList))) := by
  obtain ⟨hylo, hpcre, -⟩ := translations_right_iff "a%(b%|[^]%\\]%)%1".toList
  have hall : ∀ ts ∈ mooTokens "a%(b%|[^]%\\]%)%1".toList,
      (IsBalanced Token.role ts → ts.IsChain Apart) ∧
      (¬ IsBalanced Token.role ts → depthAfter Token.role 1 ts ≠ some 1) := by decide
  exact ⟨hylo.mpr fun _ => by decide, hpcre.mpr hall,
    (translations_right_iff []).2.2 "%w" (by decide)⟩

/-- A quoted backslash, a quantifier behind another one or behind the edge of a word, and groups
that are closed before they are opened. -/
theorem not_translations_right :
    ¬ YloRight "%\\w".toList ∧ ¬ PcreRight "a*?".toList ∧ ¬ PcreRight "%<*".toList ∧
      ¬ PcreRight "%)%(".toList := by
  refine ⟨fun h => ?_, fun h => ?_, fun h => ?_, fun h => ?_⟩
  · exact absurd ((yloRight_iff _).mp h (by decide)) (by decide)
  · exact absurd (((pcreRight_iff _).mp h _ rfl).1 (by decide)) (by decide)
  · exact absurd (((pcreRight_iff _).mp h _ rfl).1 (by decide)) (by decide)
  · exact ((pcreRight_iff _).mp h _ rfl).2 (by decide) (by decide)

end LambdaMOO.Regexp
