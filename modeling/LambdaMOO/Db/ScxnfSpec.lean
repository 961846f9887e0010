import LambdaMOO.Db.ScxnfFormat
import Mathlib.Data.List.TakeWhile

/-!
# What `dbio_scxnf` accepts

The documentation of the formats as a grammar: which lines a format takes, how many of its
optional lines and segments, and what the conversions assign. The scanners of the C library
and the end of a line let `dbio_scxnf` take more than that; without these it does what is
documented.
-/

namespace LambdaMOO

namespace Scxnf

/-! ## The grammar -/

/-- `[0-9]+`. -/
def IsDigits (ds : List Char) : Prop := ds ≠ [] ∧ ∀ c ∈ ds, c.isDigit = true

/-- The value of digits. -/
def digitsValue (ds : List Char) : Int := Nat.ofDigitChars 10 ds 0

/-- `-?[0-9]+` and its value. -/
def IsDecimal (d : List Char) (i : Int) : Prop :=
  ∃ ds, IsDigits ds ∧ (d = ds ∧ i = digitsValue ds ∨ d = '-' :: ds ∧ i = -digitsValue ds)

/-- What a number may look like, and whether `%c` may stand at the end of a line. -/
structure Rules where
  number : List Char → Int → Prop
  charAtEnd : Prop

/-- The documented rules. -/
def documented : Rules where
  number := IsDecimal
  charAtEnd := False

/-- `strtoimax` skips white space and takes a plus sign, and `%c` takes the byte that ends a
line. -/
def lenient : Rules where
  number d i := ∃ b d', d = b ++ d' ∧ (∀ c ∈ b, isSpace c = true) ∧
    (IsDecimal d' i ∨ ∃ ds, IsDigits ds ∧ d' = '+' :: ds ∧ i = digitsValue ds)
  charAtEnd := True

/-- A conversion that assigns. -/
def assigns : Fmt → Bool
  | .str => true
  | .char => true
  | .num _ => true
  | _ => false

/-- Nothing is assigned to the conversions of what is skipped. -/
def unassigned (f : List Fmt) : List (Option Field) := List.replicate (f.countP assigns) none

/-- A text does not begin with such a character. -/
def NotBefore (p : Char → Bool) (u : List Char) : Prop := u.head?.any p = false

/-- The line format takes the rest of a line: the segments matched and what is assigned to
each conversion. Numbers and white space are as long as they can be. -/
inductive Matches (R : Rules) : List Fmt → List Char → Nat → List (Option Field) → Prop
  | nil : Matches R [] [] 0 []
  | lit {c : Char} {f : List Fmt} {u : List Char} {n : Nat} {doc : List (Option Field)} :
      Matches R f u n doc → Matches R (.lit c :: f) (c :: u) n doc
  | space {b : List Char} {f : List Fmt} {u : List Char} {n : Nat} {doc : List (Option Field)} :
      (∀ c ∈ b, isSpace c = true) → NotBefore isSpace u → Matches R f u n doc →
      Matches R (.space :: f) (b ++ u) n doc
  | skipped {f : List Fmt} : Matches R (.opt :: f) [] 0 (unassigned f)
  | segment {f : List Fmt} {u : List Char} {n : Nat} {doc : List (Option Field)} :
      u ≠ [] → Matches R f u n doc → Matches R (.opt :: f) u (n + 1) doc
  | str {u : List Char} : Matches R [.str] u 0 [some (.str u)]
  | skipStr {u : List Char} : Matches R [.skipStr] u 0 []
  | skipInt {d : List Char} {i : Int} {f : List Fmt} {u : List Char} {n : Nat}
      {doc : List (Option Field)} :
      IsDecimal d i → NotBefore Char.isDigit u → Matches R f u n doc →
      Matches R (.skipInt :: f) (d ++ u) n doc
  | char {c : Char} {f : List Fmt} {u : List Char} {n : Nat} {doc : List (Option Field)} :
      Matches R f u n doc → Matches R (.char :: f) (c :: u) n (some (.char c) :: doc)
  | num {r : IntRange} {d : List Char} {i : Int} {f : List Fmt} {u : List Char} {n : Nat}
      {doc : List (Option Field)} :
      R.number d i → r.Has i → NotBefore Char.isDigit u → Matches R f u n doc →
      Matches R (.num r :: f) (d ++ u) n (some (.num i) :: doc)
  | charAtEnd {f : List Fmt} {n : Nat} :
      R.charAtEnd → f = List.replicate n .opt ++ [.skipStr] →
      Matches R (.char :: f) [] n [some (.char '\x00')]

/-- Whether the line of a line format is optional. -/
def optionals (f : List Fmt) : Nat := if f.head? = some .opt then 1 else 0

/-- A line format without the mark of an optional line. -/
def lineBody : List Fmt → List Fmt
  | .opt :: f => f
  | f => f

/-- The line formats take lines of the input; at its end only optional ones may be left. -/
inductive Accepts (R : Rules) :
    List (List Fmt) → List (List Char) → Nat → List (Option Field) → Prop
  | done {lines : List (List Char)} : Accepts R [] lines 0 []
  | line {f : List Fmt} {fs : List (List Fmt)} {l : List Char} {lines : List (List Char)}
      {m n : Nat} {a b : List (Option Field)} :
      Matches R (lineBody f) l m a → Accepts R fs lines n b →
      Accepts R (f :: fs) (l :: lines) (optionals f + m + n) (a ++ b)
  | endOfInput {f : List Fmt} {fs : List (List Fmt)} :
      (∀ g ∈ f :: fs, g.head? = some .opt) → Accepts R (f :: fs) [] 0 (unassigned (f :: fs).flatten)

/-- The format goes on to read behind the end of the line. -/
def ReadsOn : List Fmt → Prop
  | [] => False
  | .opt :: f => ReadsOn f
  | .lit _ :: _ => False
  | .newline :: _ => False
  | .skipStr :: _ => False
  | _ :: _ => True

/-- A line format takes the rest of a line up to a `%c` at its end and then reads on. -/
inductive LineOverruns : List Fmt → List Char → Prop
  | here {f : List Fmt} : ReadsOn f → LineOverruns (.char :: f) []
  | lit {c : Char} {f : List Fmt} {u : List Char} :
      LineOverruns f u → LineOverruns (.lit c :: f) (c :: u)
  | space {b : List Char} {f : List Fmt} {u : List Char} :
      (∀ c ∈ b, isSpace c = true) → NotBefore isSpace u → LineOverruns f u →
      LineOverruns (.space :: f) (b ++ u)
  | segment {f : List Fmt} {u : List Char} :
      u ≠ [] → LineOverruns f u → LineOverruns (.opt :: f) u
  | skipInt {d : List Char} {i : Int} {f : List Fmt} {u : List Char} :
      IsDecimal d i → NotBefore Char.isDigit u → LineOverruns f u →
      LineOverruns (.skipInt :: f) (d ++ u)
  | char {c : Char} {f : List Fmt} {u : List Char} :
      LineOverruns f u → LineOverruns (.char :: f) (c :: u)
  | num {r : IntRange} {d : List Char} {i : Int} {f : List Fmt} {u : List Char} :
      lenient.number d i → r.Has i → NotBefore Char.isDigit u → LineOverruns f u →
      LineOverruns (.num r :: f) (d ++ u)

/-- The first line that is not taken leniently is one that the format reads on behind. -/
inductive Overruns : List (List Fmt) → List (List Char) → Prop
  | here {f : List Fmt} {fs : List (List Fmt)} {l : List Char} {lines : List (List Char)} :
      LineOverruns (lineBody f) l → Overruns (f :: fs) (l :: lines)
  | later {f : List Fmt} {fs : List (List Fmt)} {l : List Char} {lines : List (List Char)}
      {n : Nat} {doc : List (Option Field)} :
      Matches lenient (lineBody f) l n doc → Overruns fs lines → Overruns (f :: fs) (l :: lines)

/-- A conversion that nothing is assigned to stands before one that has been assigned. -/
def Misplaced (doc : List (Option Field)) : Prop :=
  ∃ (j k : Nat) (v : Field), j < k ∧ doc[j]? = some none ∧ doc[k]? = some (some v)

/-- The call does what is documented: it returns one plus the segments matched and has stored
through its arguments what the conversions assign, or the input has another form and it
returns 0. -/
def FollowsDocumentation (F : List (List Fmt)) (lines : List (List Char)) : Prop :=
  (∃ n doc fields, Accepts documented F lines n doc ∧
    dbioScxnfLines (formatChars F) lines = .matched (1 + n) fields ∧
    ∀ k : Nat, fields[k]? = doc[k]?.join) ∨
  ((∀ n doc, ¬ Accepts documented F lines n doc) ∧
    dbioScxnfLines (formatChars F) lines = .failed)

/-- The input is taken because of white space or a plus sign before a number or of a `%c` at
the end of a line, or a `%c` at the end of a line makes the format read on behind it, or a
conversion is assigned behind one that has been skipped. -/
def Slips (F : List (List Fmt)) (lines : List (List Char)) : Prop :=
  ((∃ n doc, Accepts lenient F lines n doc) ∧ ∀ n doc, ¬ Accepts documented F lines n doc) ∨
  Overruns F lines ∨
  ∃ n doc, Accepts documented F lines n doc ∧ Misplaced doc

/-! ## Numbers -/

lemma takeWhile_append_of_notBefore {p : Char → Bool} {ds t : List Char}
    (hds : ∀ c ∈ ds, p c = true) (ht : NotBefore p t) :
    (ds ++ t).takeWhile p = ds ∧ (ds ++ t).dropWhile p = t := by
  rw [List.takeWhile_append_of_pos hds, List.dropWhile_append_of_pos hds]
  cases t with
  | nil => simp
  | cons c t =>
    have hc : p c = false := ht
    simp [hc]

lemma notBefore_dropWhile (p : Char → Bool) (u : List Char) : NotBefore p (u.dropWhile p) := by
  unfold NotBefore
  cases h : (u.dropWhile p).head? with
  | none => rfl
  | some c =>
    have := List.head?_dropWhile_not p u
    rw [h] at this
    simpa using this

/-- A sign as `strtoimax` takes it, and whether it is a minus sign. -/
def IsSign (sign : List Char) (neg : Bool) : Prop :=
  sign = [] ∧ neg = false ∨ sign = ['+'] ∧ neg = false ∨ sign = ['-'] ∧ neg = true

lemma exists_sign (s : List Char) :
    ∃ sign, s = sign ++ (takeSign s).2 ∧ IsSign sign (takeSign s).1 := by
  unfold takeSign
  split
  · exact ⟨['-'], rfl, Or.inr (Or.inr ⟨rfl, rfl⟩)⟩
  · exact ⟨['+'], rfl, Or.inr (Or.inl ⟨rfl, rfl⟩)⟩
  · exact ⟨[], rfl, Or.inl ⟨rfl, rfl⟩⟩

lemma takeSign_append {sign ds : List Char} {neg : Bool} (h : IsSign sign neg)
    (hds : IsDigits ds) (t : List Char) : takeSign (sign ++ ds ++ t) = (neg, ds ++ t) := by
  rcases h with ⟨rfl, rfl⟩ | ⟨rfl, rfl⟩ | ⟨rfl, rfl⟩
  · obtain ⟨c, cs, rfl⟩ := List.exists_cons_of_ne_nil hds.1
    exact takeSign_of_isDigit (hds.2 c List.mem_cons_self)
  · rfl
  · rfl

/-- The texts that `strtoimax` takes up to the limits of an `intmax_t`. -/
lemma lenient_number_iff {d : List Char} {i : Int} :
    lenient.number d i ↔ ∃ b sign ds neg, d = b ++ (sign ++ ds) ∧ (∀ c ∈ b, isSpace c = true) ∧
      IsSign sign neg ∧ IsDigits ds ∧ i = if neg then -digitsValue ds else digitsValue ds := by
  constructor
  · rintro ⟨b, d', rfl, hb, ⟨ds, hds, ⟨rfl, rfl⟩ | ⟨rfl, rfl⟩⟩ | ⟨ds, hds, rfl, rfl⟩⟩
    · exact ⟨b, [], d', false, rfl, hb, Or.inl ⟨rfl, rfl⟩, hds, rfl⟩
    · exact ⟨b, ['-'], ds, true, rfl, hb, Or.inr (Or.inr ⟨rfl, rfl⟩), hds, rfl⟩
    · exact ⟨b, ['+'], ds, false, rfl, hb, Or.inr (Or.inl ⟨rfl, rfl⟩), hds, rfl⟩
  · rintro ⟨b, sign, ds, neg, rfl, hb, ⟨rfl, rfl⟩ | ⟨rfl, rfl⟩ | ⟨rfl, rfl⟩, hds, rfl⟩
    · exact ⟨b, _, rfl, hb, Or.inl ⟨ds, hds, Or.inl ⟨rfl, rfl⟩⟩⟩
    · exact ⟨b, _, rfl, hb, Or.inr ⟨ds, hds, rfl, rfl⟩⟩
    · exact ⟨b, _, rfl, hb, Or.inl ⟨ds, hds, Or.inr ⟨rfl, rfl⟩⟩⟩

/-- Blanks before a number are skipped. -/
lemma dropWhile_isSpace_number {b sign ds : List Char} {neg : Bool}
    (hb : ∀ c ∈ b, isSpace c = true) (hsign : IsSign sign neg) (hds : IsDigits ds)
    (t : List Char) : (b ++ (sign ++ ds) ++ t).dropWhile isSpace = sign ++ ds ++ t := by
  rw [List.append_assoc]
  refine (takeWhile_append_of_notBefore hb ?_).2
  rcases hsign with ⟨rfl, rfl⟩ | ⟨rfl, rfl⟩ | ⟨rfl, rfl⟩
  · obtain ⟨c, cs, rfl⟩ := List.exists_cons_of_ne_nil hds.1
    exact not_isSpace_of_isDigit (hds.2 c List.mem_cons_self)
  · rfl
  · rfl

lemma dbioStringToInteger_number {r : IntRange} {b sign ds t : List Char} {neg : Bool}
    (hb : ∀ c ∈ b, isSpace c = true) (hsign : IsSign sign neg) (hds : IsDigits ds)
    (ht : NotBefore Char.isDigit t) {i : Int}
    (hi : i = if neg then -digitsValue ds else digitsValue ds) :
    dbioStringToInteger r (b ++ (sign ++ ds) ++ t) = if r.Has i then some (i, t) else none := by
  obtain ⟨htake, hdrop⟩ := takeWhile_append_of_notBefore hds.2 ht
  have hscan : strtoimax (b ++ (sign ++ ds) ++ t) =
      if i < intmaxMin then (intmaxMin, t, true)
      else if intmaxMax < i then (intmaxMax, t, true)
      else (i, t, false) := by
    rw [strtoimax, dropWhile_isSpace_number hb hsign hds t, takeSign_append hsign hds t]
    dsimp only
    rw [htake, hdrop, if_neg hds.1, hi]
    rfl
  have hlen : t.length ≠ (b ++ (sign ++ ds) ++ t).length := by
    have hpos := List.length_pos_iff.mpr hds.1
    simp only [List.length_append]
    omega
  rw [dbioStringToInteger, hscan]
  by_cases hmin : i < intmaxMin
  · have hno : ¬ r.Has i := fun h => absurd h.1 (Int.not_le.mpr hmin)
    rw [if_pos hmin, if_neg hno]
    rfl
  · by_cases hmax : intmaxMax < i
    · have hno : ¬ r.Has i := fun h => absurd h.2.1 (Int.not_le.mpr hmax)
      rw [if_neg hmin, if_pos hmax, if_neg hno]
      rfl
    · rw [if_neg hmin, if_neg hmax]
      simp only [Bool.false_eq_true, if_false, hlen]
      have hhas : r.Has i ↔ ∀ b ∈ r.bounds, b.1 ≤ i ∧ i ≤ b.2 :=
        ⟨fun h => h.2.2, fun h => ⟨Int.not_lt.mp hmin, Int.not_lt.mp hmax, h⟩⟩
      cases hb : r.bounds with
      | none =>
        rw [if_pos (hhas.mpr (by simp [hb]))]
      | some q =>
        obtain ⟨lo, hi⟩ := q
        have hhas : r.Has i ↔ lo ≤ i ∧ i ≤ hi := by
          rw [hhas, hb]
          simp
        dsimp only
        by_cases hlo : i < lo
        · rw [if_pos hlo, if_neg fun h => absurd (hhas.mp h).1 (Int.not_le.mpr hlo)]
        · by_cases hhi : hi < i
          · rw [if_neg hlo, if_pos hhi, if_neg fun h => absurd (hhas.mp h).2 (Int.not_le.mpr hhi)]
          · rw [if_neg hlo, if_neg hhi,
              if_pos (hhas.mpr ⟨Int.not_lt.mp hlo, Int.not_lt.mp hhi⟩)]

/-- Without digits there is no number. -/
lemma dbioStringToInteger_eq_none {r : IntRange} {s : List Char}
    (h : (takeSign (s.dropWhile isSpace)).2.takeWhile Char.isDigit = []) :
    dbioStringToInteger r s = none := by
  have hscan : strtoimax s = (0, s, false) := by
    rw [strtoimax]
    dsimp only
    rw [if_pos h]
  rw [dbioStringToInteger, hscan]
  simp

lemma dbioStringToInteger_eq_some {r : IntRange} {s t : List Char} {i : Int} :
    dbioStringToInteger r s = some (i, t) ↔
      ∃ d, s = d ++ t ∧ lenient.number d i ∧ r.Has i ∧ NotBefore Char.isDigit t := by
  constructor
  · intro h
    obtain ⟨sign, hs, hsign⟩ := exists_sign (s.dropWhile isSpace)
    by_cases hnone : (takeSign (s.dropWhile isSpace)).2.takeWhile Char.isDigit = []
    · rw [dbioStringToInteger_eq_none hnone] at h
      cases h
    · generalize takeSign (s.dropWhile isSpace) = q at hs hsign hnone
      obtain ⟨neg, u⟩ := q
      dsimp only at hs hsign hnone
      have hb : ∀ c ∈ s.takeWhile isSpace, isSpace c = true := fun c hc => List.mem_takeWhile_imp hc
      have hds : IsDigits (u.takeWhile Char.isDigit) :=
        ⟨hnone, fun c hc => List.mem_takeWhile_imp hc⟩
      have hsplit : s = s.takeWhile isSpace ++ (sign ++ u.takeWhile Char.isDigit)
          ++ u.dropWhile Char.isDigit := by
        rw [List.append_assoc, List.append_assoc, List.takeWhile_append_dropWhile, ← hs,
          List.takeWhile_append_dropWhile]
      obtain ⟨v, hv⟩ : ∃ v, v = if neg then -digitsValue (u.takeWhile Char.isDigit)
          else digitsValue (u.takeWhile Char.isDigit) := ⟨_, rfl⟩
      have hnum := dbioStringToInteger_number (r := r) hb hsign hds
        (notBefore_dropWhile Char.isDigit u) hv
      rw [← hsplit, h] at hnum
      split_ifs at hnum with hi
      obtain ⟨rfl, rfl⟩ := Prod.mk.inj (Option.some.inj hnum)
      exact ⟨_, hsplit, lenient_number_iff.mpr ⟨_, _, _, _, rfl, hb, hsign, hds, hv⟩, hi,
        notBefore_dropWhile Char.isDigit u⟩
  · rintro ⟨d, rfl, hd, hi, ht⟩
    obtain ⟨b, sign, ds, neg, rfl, hb, hsign, hds, heq⟩ := lenient_number_iff.mp hd
    rw [dbioStringToInteger_number hb hsign hds ht heq, if_pos hi]

lemma skipDigits_eq_some {s t : List Char} :
    skipDigits s = some t ↔ ∃ d i, s = d ++ t ∧ IsDecimal d i ∧ NotBefore Char.isDigit t := by
  have hdigits {u : List Char} (h : u.head?.any Char.isDigit) :
      IsDigits (u.takeWhile Char.isDigit) := by
    refine ⟨?_, fun c hc => List.mem_takeWhile_imp hc⟩
    cases u with
    | nil => cases h
    | cons c u =>
      have hc : c.isDigit = true := h
      simp [hc]
  unfold skipDigits
  dsimp only
  constructor
  · intro h
    split_ifs at h with hminus hany hany
    · obtain rfl := Option.some.inj h
      obtain ⟨u, rfl⟩ : ∃ u, s = '-' :: u := ⟨s.tail, List.eq_cons_of_mem_head? hminus⟩
      refine ⟨'-' :: u.takeWhile Char.isDigit, _, ?_, ⟨_, hdigits hany, Or.inr ⟨rfl, rfl⟩⟩,
        notBefore_dropWhile _ _⟩
      rw [List.cons_append, List.tail_cons, List.takeWhile_append_dropWhile]
    · obtain rfl := Option.some.inj h
      exact ⟨s.takeWhile Char.isDigit, _, List.takeWhile_append_dropWhile.symm,
        ⟨_, hdigits hany, Or.inl ⟨rfl, rfl⟩⟩, notBefore_dropWhile _ _⟩
  · rintro ⟨d, i, rfl, ⟨ds, hds, hd⟩, ht⟩
    obtain ⟨-, hdrop⟩ := takeWhile_append_of_notBefore hds.2 ht
    obtain ⟨c, cs, rfl⟩ := List.exists_cons_of_ne_nil hds.1
    have hc : c.isDigit = true := hds.2 c List.mem_cons_self
    rcases hd with ⟨rfl, -⟩ | ⟨rfl, -⟩
    · have hne : c ≠ '-' := by
        rintro rfl
        exact absurd hc (by decide)
      simp only [List.cons_append, List.head?_cons, Option.some.injEq, hne, if_false,
        Option.any_some, hc, if_true]
      rw [← List.cons_append, hdrop]
    · simp only [List.cons_append, List.head?_cons, if_true, List.tail_cons, Option.any_some, hc]
      rw [← List.cons_append, hdrop]

/-! ## One line -/

section

variable {last : Bool} {f : List Fmt} {u : List Char} {n rcount rcount' : Nat}
  {doc : List (Option Field)} {out out' : List Field}

lemma filterMap_unassigned (f : List Fmt) : (unassigned f).filterMap id = [] := by
  rw [List.filterMap_eq_nil_iff]
  intro o ho
  exact List.eq_of_mem_replicate ho

lemma readLine_behind (n : Nat) :
    readLine (List.replicate n .opt ++ [.skipStr]) .behind rcount out
      = .done (rcount + n) out := by
  induction n generalizing rcount with
  | zero => rfl
  | succ n ih =>
    rw [List.replicate_succ, List.cons_append, readLine_opt_behind, ih, Nat.add_assoc, Nat.add_comm 1]

/-- A line that the lenient rules take is taken. -/
lemma Matches.readLine_eq (h : Matches lenient f u n doc) :
    readLine f (.at u) rcount out = .done (rcount + n) (out ++ doc.filterMap id) := by
  induction h generalizing rcount out with
  | nil => simp
  | lit _ ih => rw [readLine_lit, if_pos rfl, ih]
  | space hb hu _ ih => rw [readLine_space, (takeWhile_append_of_notBefore hb hu).2, ih]
  | skipped =>
    rw [readLine_opt_nil, filterMap_unassigned, List.append_nil]
    rfl
  | @segment f u n doc hu _ ih =>
    obtain ⟨c, u, rfl⟩ := List.exists_cons_of_ne_nil hu
    rw [readLine_opt_cons, ih, Nat.add_right_comm]
    rfl
  | str => rfl
  | skipStr => simp
  | skipInt hd hu _ ih =>
    rw [readLine_skipInt, skipDigits_eq_some.mpr ⟨_, _, rfl, hd, hu⟩]
    exact ih
  | char _ ih =>
    rw [readLine_char_cons, ih, List.append_assoc]
    rfl
  | num hd hi hu _ ih =>
    rw [readLine_num, dbioStringToInteger_eq_some.mpr ⟨_, rfl, hd, hi, hu⟩]
    dsimp only
    rw [ih, List.append_assoc]
    rfl
  | charAtEnd _ hf =>
    rw [readLine_char_nil, hf, readLine_behind]
    rfl

lemma ReadsOn.readLine_eq (h : ReadsOn f) : readLine f .behind rcount out = .overrun := by
  induction f generalizing rcount with
  | nil => exact h.elim
  | cons p f ih =>
    cases p with
    | opt => exact ih h
    | lit c => exact h.elim
    | newline => exact h.elim
    | skipStr => exact h.elim
    | _ => rfl

/-- A line that the format reads on behind is not taken. -/
lemma LineOverruns.readLine_eq (h : LineOverruns f u) :
    readLine f (.at u) rcount out = .overrun := by
  induction h generalizing rcount out with
  | here hreads => exact hreads.readLine_eq
  | lit _ ih => rw [readLine_lit, if_pos rfl, ih]
  | space hb hu _ ih => rw [readLine_space, (takeWhile_append_of_notBefore hb hu).2, ih]
  | segment hu _ ih =>
    obtain ⟨c, u, rfl⟩ := List.exists_cons_of_ne_nil hu
    exact ih
  | skipInt hd hu _ ih =>
    rw [readLine_skipInt, skipDigits_eq_some.mpr ⟨_, _, rfl, hd, hu⟩]
    exact ih
  | char _ ih => exact ih
  | num hd hi hu _ ih =>
    rw [readLine_num, dbioStringToInteger_eq_some.mpr ⟨_, rfl, hd, hi, hu⟩]
    exact ih

/-- Behind the end of a line nothing but `%*s` comes to an end. -/
lemma exists_replicate_of_behind (hf : IsLine last f)
    (h : readLine f .behind rcount out = .done rcount' out') :
    ∃ n, f = List.replicate n .opt ++ [.skipStr] := by
  induction f generalizing rcount with
  | nil => cases h
  | cons p f ih =>
    cases p with
    | opt =>
      obtain ⟨n, rfl⟩ := ih hf h
      exact ⟨n + 1, rfl⟩
    | skipStr =>
      obtain rfl : f = [] := hf
      exact ⟨0, rfl⟩
    | _ => cases h

lemma readsOn_of_behind (h : readLine f .behind rcount out = .overrun) : ReadsOn f := by
  induction f generalizing rcount with
  | nil => cases h
  | cons p f ih =>
    cases p with
    | opt => exact ih h
    | lit c => cases h
    | newline => cases h
    | skipStr => cases h
    | _ => trivial

/-- What the rules say of a result. -/
def LineResult.Explained (f : List Fmt) (u : List Char) : LineResult → Prop
  | .done _ _ => ∃ n doc, Matches lenient f u n doc
  | .failed => True
  | .overrun => LineOverruns f u

lemma LineResult.Explained.mono {g : List Fmt} {v : List Char} {r : LineResult}
    (h : r.Explained f u)
    (hm : ∀ n doc, Matches lenient f u n doc → ∃ n doc, Matches lenient g v n doc)
    (ho : LineOverruns f u → LineOverruns g v) : r.Explained g v := by
  cases r with
  | done _ _ =>
    obtain ⟨n, doc, h⟩ := h
    exact hm n doc h
  | failed => trivial
  | overrun => exact ho h

lemma explained_readLine (hf : IsLine last f) :
    (readLine f (.at u) rcount out).Explained f u := by
  induction f generalizing u rcount out with
  | nil =>
    cases u with
    | nil => exact ⟨0, [], .nil⟩
    | cons c u => trivial
  | cons p f ih =>
    cases p with
    | lit c =>
      cases u with
      | nil => trivial
      | cons d u =>
        rw [readLine_lit]
        split_ifs with hc
        · subst hc
          exact (ih hf.2).mono (fun n doc h => ⟨n, doc, h.lit⟩) .lit
        · trivial
    | space =>
      have hb : ∀ c ∈ u.takeWhile isSpace, isSpace c = true := fun c hc => List.mem_takeWhile_imp hc
      have hu := notBefore_dropWhile isSpace u
      have ih : (readLine f (.at (u.dropWhile isSpace)) rcount out).Explained f
          (u.dropWhile isSpace) := ih hf
      have hrest := ih.mono (fun n doc h => ⟨n, doc, .space hb hu h⟩) (.space hb hu)
      rwa [List.takeWhile_append_dropWhile] at hrest
    | newline => exact hf.elim
    | opt =>
      cases u with
      | nil => exact ⟨0, _, .skipped⟩
      | cons c u =>
        exact (ih (u := c :: u) hf).mono (fun n doc h => ⟨n + 1, doc, h.segment (by simp)⟩)
          (.segment (by simp))
    | str =>
      obtain ⟨-, rfl⟩ := hf
      exact ⟨0, _, .str⟩
    | skipStr =>
      obtain rfl : f = [] := hf
      exact ⟨0, _, .skipStr⟩
    | skipInt =>
      rw [readLine_skipInt]
      cases hs : skipDigits u with
      | none => trivial
      | some t =>
        obtain ⟨d, i, rfl, hd, ht⟩ := skipDigits_eq_some.mp hs
        exact (ih hf).mono (fun n doc h => ⟨n, doc, .skipInt hd ht h⟩) (.skipInt hd ht)
    | char =>
      cases u with
      | nil =>
        rw [readLine_char_nil]
        cases hr : readLine f .behind rcount (out ++ [.char '\x00']) with
        | done rcount' out' =>
          obtain ⟨n, rfl⟩ := exists_replicate_of_behind (show IsLine last f from hf) hr
          exact ⟨n, _, .charAtEnd trivial rfl⟩
        | failed => trivial
        | overrun => exact .here (readsOn_of_behind hr)
      | cons c u =>
        exact (ih (u := u) hf).mono (fun n doc h => ⟨n, _, h.char⟩) .char
    | num r =>
      rw [readLine_num]
      cases hs : dbioStringToInteger r u with
      | none => trivial
      | some q =>
        obtain ⟨i, t⟩ := q
        obtain ⟨d, rfl, hd, hi, ht⟩ := dbioStringToInteger_eq_some.mp hs
        exact (ih hf).mono (fun n doc h => ⟨n, _, .num hd hi ht h⟩) (.num hd hi ht)

/-! ## All lines -/

variable {F : List (List Fmt)} {lines : List (List Char)}

lemma readFirst_eq (f : List Fmt) (l : List Char) :
    readFirst f l rcount out = readLine (lineBody f) (.at l) (rcount + optionals f) out := by
  by_cases hopt : f.head? = some .opt
  · obtain ⟨g, rfl⟩ : ∃ g, f = .opt :: g := ⟨f.tail, List.eq_cons_of_mem_head? hopt⟩
    rfl
  · have hbody : lineBody f = f := by
      unfold lineBody
      split
      · exact absurd rfl hopt
      · rfl
    rw [readFirst_of_head?_ne hopt, hbody, optionals, if_neg hopt, Nat.add_zero]

lemma IsLine.lineBody (hf : IsLine last f) : IsLine last (lineBody f) := by
  by_cases hopt : f.head? = some .opt
  · obtain ⟨g, rfl⟩ : ∃ g, f = .opt :: g := ⟨f.tail, List.eq_cons_of_mem_head? hopt⟩
    exact hf
  · unfold Scxnf.lineBody
    split
    · exact absurd rfl hopt
    · exact hf

lemma Accepts.readLines_eq (h : Accepts lenient F lines n doc) :
    readLines F lines rcount out = .matched (rcount + n) (out ++ doc.filterMap id) := by
  induction h generalizing rcount out with
  | done => simp [readLines]
  | line hm _ ih =>
    rw [readLines, readFirst_eq, hm.readLine_eq]
    dsimp only
    rw [ih, List.filterMap_append, List.append_assoc, Nat.add_assoc, Nat.add_assoc, Nat.add_assoc]
  | endOfInput hopt =>
    rw [readLines, if_pos, filterMap_unassigned, List.append_nil]
    · rfl
    · rw [List.all_eq_true]
      exact fun g hg => decide_eq_true (hopt g hg)

lemma Overruns.readLines_eq (h : Overruns F lines) : readLines F lines rcount out = .overrun := by
  induction h generalizing rcount out with
  | here ho => rw [readLines, readFirst_eq, ho.readLine_eq]
  | later hm _ ih =>
    rw [readLines, readFirst_eq, hm.readLine_eq]
    exact ih

/-- What the rules say of a result. -/
def Result.Explained (F : List (List Fmt)) (lines : List (List Char)) : Result → Prop
  | .matched _ _ => ∃ n doc, Accepts lenient F lines n doc
  | .failed => True
  | .overrun => Overruns F lines
  | .panics => False

lemma explained_readLines (hF : ∀ f ∈ F, ∃ last, IsLine last f) :
    (readLines F lines rcount out).Explained F lines := by
  induction F generalizing lines rcount out with
  | nil => exact ⟨0, [], .done⟩
  | cons f fs ih =>
    cases lines with
    | nil =>
      rw [readLines]
      split_ifs with hall
      · refine ⟨0, _, .endOfInput ?_⟩
        intro g hg
        exact of_decide_eq_true (List.all_eq_true.mp hall g hg)
      · trivial
    | cons l lines =>
      obtain ⟨last, hf⟩ := hF f List.mem_cons_self
      have hline : (readLine (lineBody f) (.at l) (rcount + optionals f) out).Explained
          (lineBody f) l := explained_readLine hf.lineBody
      rw [readLines, readFirst_eq]
      cases hr : readLine (lineBody f) (.at l) (rcount + optionals f) out with
      | done rcount' out' =>
        rw [hr] at hline
        obtain ⟨m, a, hm⟩ := hline
        have hrest : (readLines fs lines rcount' out').Explained fs lines :=
          ih fun g hg => hF g (List.mem_cons_of_mem _ hg)
        dsimp only
        cases hs : readLines fs lines rcount' out' with
        | matched _ _ =>
          rw [hs] at hrest
          obtain ⟨n, b, hn⟩ := hrest
          exact ⟨_, _, .line hm hn⟩
        | failed => trivial
        | overrun =>
          rw [hs] at hrest
          exact .later hm hrest
        | panics =>
          rw [hs] at hrest
          exact hrest.elim
      | failed => trivial
      | overrun =>
        rw [hr] at hline
        exact .here hline

end

/-! ## The documentation -/

lemma IsDecimal.lenient {d : List Char} {i : Int} (h : IsDecimal d i) :
    Scxnf.lenient.number d i :=
  ⟨[], d, rfl, by simp, Or.inl h⟩

lemma Matches.lenient {f : List Fmt} {u : List Char} {n : Nat} {doc : List (Option Field)}
    (h : Matches documented f u n doc) : Matches Scxnf.lenient f u n doc := by
  induction h with
  | nil => exact .nil
  | lit _ ih => exact .lit ih
  | space hb hu _ ih => exact .space hb hu ih
  | skipped => exact .skipped
  | segment hu _ ih => exact .segment hu ih
  | str => exact .str
  | skipStr => exact .skipStr
  | skipInt hd hu _ ih => exact .skipInt hd hu ih
  | char _ ih => exact .char ih
  | num hd hi hu _ ih => exact .num (IsDecimal.lenient hd) hi hu ih
  | charAtEnd h _ => exact h.elim

lemma Accepts.lenient {F : List (List Fmt)} {lines : List (List Char)} {n : Nat}
    {doc : List (Option Field)} (h : Accepts documented F lines n doc) :
    Accepts Scxnf.lenient F lines n doc := by
  induction h with
  | done => exact .done
  | line hm _ ih => exact .line hm.lenient ih
  | endOfInput hopt => exact .endOfInput hopt

/-- What is assigned does not depend on how the line is taken apart. -/
lemma Matches.unique {f : List Fmt} {u w : List Char} {n n' : Nat} {doc doc' : List (Option Field)}
    (h : Matches Scxnf.lenient f u n doc) (h' : Matches Scxnf.lenient f w n' doc') (hw : w = u) :
    doc = doc' := by
  induction h generalizing w n' doc' with
  | nil =>
    cases h'
    rfl
  | lit _ ih =>
    cases h' with
    | lit h' => exact ih h' (List.cons.inj hw).2
  | space hb hu _ ih =>
    cases h' with
    | space hb' hu' h' =>
      refine ih h' ?_
      rw [← (takeWhile_append_of_notBefore hb hu).2, ← (takeWhile_append_of_notBefore hb' hu').2, hw]
  | skipped =>
    cases h' with
    | skipped => rfl
    | segment hu _ => exact absurd hw hu
  | segment hu _ ih =>
    cases h' with
    | skipped => exact absurd hw.symm hu
    | segment _ h' => exact ih h' hw
  | str =>
    cases h'
    rw [hw]
  | skipStr =>
    cases h'
    rfl
  | skipInt hd hu _ ih =>
    cases h' with
    | skipInt hd' hu' h' =>
      have heq := skipDigits_eq_some.mpr ⟨_, _, rfl, hd, hu⟩
      have heq' := skipDigits_eq_some.mpr ⟨_, _, rfl, hd', hu'⟩
      rw [hw, heq] at heq'
      exact ih h' (Option.some.inj heq').symm
  | char _ ih =>
    cases h' with
    | char h' =>
      obtain ⟨hc, hu⟩ := List.cons.inj hw
      rw [ih h' hu, hc]
    | charAtEnd _ _ => cases hw
  | num hd hi hu _ ih =>
    cases h' with
    | num hd' hi' hu' h' =>
      have heq := dbioStringToInteger_eq_some.mpr ⟨_, rfl, hd, hi, hu⟩
      have heq' := dbioStringToInteger_eq_some.mpr ⟨_, rfl, hd', hi', hu'⟩
      rw [hw, heq] at heq'
      obtain ⟨rfl, hrest⟩ := Prod.mk.inj (Option.some.inj heq')
      rw [ih h' hrest.symm]
  | charAtEnd _ _ =>
    cases h' with
    | char _ => cases hw
    | charAtEnd _ _ => rfl

lemma Accepts.unique {F : List (List Fmt)} {lines : List (List Char)} {n n' : Nat}
    {doc doc' : List (Option Field)} (h : Accepts Scxnf.lenient F lines n doc)
    (h' : Accepts Scxnf.lenient F lines n' doc') : doc = doc' := by
  induction h generalizing n' doc' with
  | done =>
    cases h'
    rfl
  | line hm _ ih =>
    cases h' with
    | line hm' hrest => rw [hm.unique hm' rfl, ih hrest]
  | endOfInput _ =>
    cases h'
    rfl

/-- The arguments are used in turn, which is in place unless one has been passed over. -/
lemma getElem?_filterMap_iff (doc : List (Option Field)) :
    (∀ k : Nat, (doc.filterMap id)[k]? = doc[k]?.join) ↔ ¬ Misplaced doc := by
  induction doc with
  | nil =>
    have hnot : ¬ Misplaced [] := by
      rintro ⟨j, k, v, -, h, -⟩
      cases h
    simp [hnot]
  | cons o doc ih =>
    cases o with
    | some v =>
      have hstep : Misplaced (some v :: doc) ↔ Misplaced doc := by
        constructor
        · rintro ⟨j, k, w, hjk, hj, hk⟩
          cases j with
          | zero => cases hj
          | succ j =>
            cases k with
            | zero => exact absurd hjk (Nat.not_lt_zero _)
            | succ k => exact ⟨j, k, w, Nat.lt_of_succ_lt_succ hjk, hj, hk⟩
        · rintro ⟨j, k, w, hjk, hj, hk⟩
          exact ⟨j + 1, k + 1, w, Nat.succ_lt_succ hjk, hj, hk⟩
      have hcons : (some v :: doc).filterMap id = v :: doc.filterMap id := rfl
      rw [hstep, ← ih, hcons]
      constructor
      · intro h k
        exact h (k + 1)
      · intro h k
        cases k with
        | zero => rfl
        | succ k => exact h k
    | none =>
      have hcons : (none :: doc).filterMap id = doc.filterMap id := rfl
      rw [hcons]
      constructor
      · rintro h ⟨j, k, v, -, -, hk⟩
        -- nothing is stored at all
        have hnil : doc.filterMap id = [] := by
          have hzero := h 0
          rw [← List.head?_eq_getElem?] at hzero
          exact List.head?_eq_none_iff.mp hzero
        have hv := h k
        rw [hnil, hk] at hv
        cases hv
      · intro h
        have hnone : ∀ o ∈ doc, o = none := by
          intro o ho
          cases o with
          | none => rfl
          | some v =>
            obtain ⟨k, hk⟩ := List.getElem?_of_mem ho
            exact absurd ⟨0, k + 1, v, Nat.succ_pos k, rfl, hk⟩ h
        have hnil : doc.filterMap id = [] := List.filterMap_eq_nil_iff.mpr hnone
        intro k
        rw [hnil]
        cases k with
        | zero => rfl
        | succ k =>
          rw [List.getElem?_cons_succ]
          cases hk : doc[k]? with
          | none => rfl
          | some o => rw [hnone o (List.mem_of_getElem? hk)]; rfl

lemma IsFormat.isLine {F : List (List Fmt)} (hF : IsFormat F) :
    ∀ f ∈ F, ∃ last, IsLine last f := by
  induction F with
  | nil => exact hF.elim
  | cons f fs ih =>
    cases fs with
    | nil =>
      intro g hg
      obtain rfl := List.mem_singleton.mp hg
      exact ⟨true, hF⟩
    | cons f' fs =>
      obtain ⟨hf, hF⟩ := hF
      intro g hg
      rcases List.mem_cons.mp hg with rfl | hg
      · exact ⟨false, hf⟩
      · exact ih hF g hg

end Scxnf

end LambdaMOO
