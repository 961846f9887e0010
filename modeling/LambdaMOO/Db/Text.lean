import LambdaMOO.Structures
import LambdaMOO.Lib.Reader

/-!
# The text of a database file

The primitive readers and writers of `db_io.c`: decimal numbers with their range checks,
whole lines, and `dbio_scxnf`. What the readers log about a failure is left out.
-/

namespace LambdaMOO

open Reader

variable {σ : Type}

/-- The text `printf` makes of a number under `%d` and its relatives. -/
def decimal : Int → List Char
  | .ofNat n => Nat.toDigits 10 n
  | .negSucc n => '-' :: Nat.toDigits 10 (n + 1)

/-- `isspace`. -/
def isSpace (c : Char) : Bool :=
  c = ' ' || c = '\t' || c = '\n' || c = '\x0b' || c = '\x0c' || c = '\r'

def intmaxMin : Int := -2 ^ 63
def intmaxMax : Int := 2 ^ 63 - 1

/-- The sign in front of a number and the text behind it. -/
def takeSign : List Char → Bool × List Char
  | '-' :: t => (true, t)
  | '+' :: t => (false, t)
  | t => (false, t)

/-- `strtoimax(s, &end, 10)`: the number, the text from `end` on, and whether `errno` is
`ERANGE`. Without a digit nothing is read. -/
def strtoimax (s : List Char) : Int × List Char × Bool :=
  let (neg, t) := takeSign (s.dropWhile isSpace)
  let digits := t.takeWhile Char.isDigit
  let n : Int := Nat.ofDigitChars 10 digits 0
  let i := if neg then -n else n
  if digits = [] then (0, s, false)
  else if i < intmaxMin then (intmaxMin, t.dropWhile Char.isDigit, true)
  else if intmaxMax < i then (intmaxMax, t.dropWhile Char.isDigit, true)
  else (i, t.dropWhile Char.isDigit, false)

/-- `enum dbio_intrange`. -/
inductive IntRange where
  | num | unum | task | intmax | int16 | uint16 | int | uint | err
  deriving DecidableEq, Repr

namespace IntRange

/-- The bounds of `dbio_intranges`; none where `skip` is set. A `Num` has 64 bits, so it is
an `intmax_t`. -/
def bounds : IntRange → Option (Int × Int)
  | .num => none
  | .unum => some (0, intmaxMax)
  | .task => some (0, 2 ^ 31 - 1)
  | .intmax => none
  | .int16 => some (-2 ^ 15, 2 ^ 15 - 1)
  | .uint16 => some (0, 2 ^ 16 - 1)
  | .int => some (-2 ^ 31, 2 ^ 31 - 1)
  | .uint => some (0, 2 ^ 32 - 1)
  | .err => some (0, 15)

/-- The numbers a reader for the range accepts. -/
def Has (r : IntRange) (i : Int) : Prop :=
  intmaxMin ≤ i ∧ i ≤ intmaxMax ∧ ∀ b ∈ r.bounds, b.1 ≤ i ∧ i ≤ b.2

instance (r : IntRange) (i : Int) : Decidable (r.Has i) := by
  unfold Has
  infer_instance

/-- Below a natural number of a range all are in it. -/
lemma Has.of_le {r : IntRange} {i j : Nat} (hj : r.Has j) (h : i ≤ j) : r.Has i := by
  obtain ⟨hmin, hmax, hb⟩ := hj
  have hneg : intmaxMin ≤ 0 := by decide
  refine ⟨by omega, by omega, fun b hbs => ?_⟩
  have hlow : b.1 ≤ 0 := by
    cases r <;> simp only [bounds, Option.mem_def, reduceCtorEq, Option.some.injEq] at hbs <;>
      (subst hbs; decide)
  have := (hb b hbs).2
  exact ⟨by omega, by omega⟩

end IntRange

/-- `dbio_string_to_integer`: the number and the text behind it, nothing where
`dbio_last_error` is set. -/
def dbioStringToInteger (range : IntRange) (s : List Char) : Option (Int × List Char) :=
  let (i, t, erange) := strtoimax s
  if erange then none
  else if t.length = s.length then none
  else
    match range.bounds with
    | none => some (i, t)
    | some (min, max) => if i < min then none else if max < i then none else some (i, t)

/-- `dbio_read_integer`: one line that is a number and nothing else. -/
def dbioReadInteger (range : IntRange) : Reader σ Int := do
  let s ← line
  lift <| do
    let (i, t) ← dbioStringToInteger range s
    if (s.head?.any isSpace) || t ≠ [] then none else some i

/-- `dbio_read_objid`. -/
def dbioReadObjid : Reader σ Int := dbioReadInteger .num

/-- `dbio_read_string_intern`. -/
def dbioReadString : Reader σ String := do
  let s ← line
  pure (String.ofList s)

/-- `dbio_skip_lines(1, ..)`. -/
def dbioSkipLine : Reader σ Unit := do
  let _ ← line
  pure ()

/-! ## `dbio_scxnf` -/

/-- A piece of a format: a character, a space, `\n`, `\v`, `%ms`, `%*s`, `%*d`, `%c`, or a
number of a range. -/
inductive Fmt where
  | lit (c : Char)
  | space
  | newline
  | opt
  | str
  | skipStr
  | skipInt
  | char
  | num (range : IntRange)
  deriving DecidableEq, Repr

/-- What a conversion assigns. -/
inductive Field where
  | num (i : Int)
  | char (c : Char)
  | str (s : List Char)
  deriving DecidableEq, Repr

/-- The text of a format without conversions. -/
def Fmt.text (s : String) : List Fmt :=
  s.toList.map fun c => if c = ' ' then .space else .lit c

/-- `dbio_read_line`: at the end of the input there is no line. -/
def nextLine : Reader σ (Option (List Char)) := fun (input, s) =>
  match line (input, s) with
  | none => some (none, ([], s))
  | some (l, rest) => some (some l, rest)

/-- At the end of the input: every line format from here on is optional. -/
def allOptional : List Fmt → Bool
  | [] => false
  | .opt :: fc => !fc.contains .newline || allOptional ((fc.dropWhile (· ≠ .newline)).tail)
  | _ :: _ => false
termination_by fc => fc.length
decreasing_by
  have := (List.dropWhile_suffix (l := fc) (· ≠ Fmt.newline)).length_le
  grind

/-- The digits `%*d` skips. -/
def skipDigits (lc : List Char) : Option (List Char) :=
  let t := if lc.head? = some '-' then lc.tail else lc
  if t.head?.any Char.isDigit then some (t.dropWhile Char.isDigit) else none

/-- The labels `nextline` and `state1`: `fc` is the rest of the format, `lc` the rest of the
line, `rcount` the segments matched so far. While `skip` is set, an optional segment that
the line does not have is passed over. -/
def scanFormat : Bool → List Fmt → List Char → Nat → List Field → Reader σ (Nat × List Field)
  | true, [], _, rcount, out => pure (rcount, out.reverse)
  | false, [], lc, rcount, out => lift (if lc = [] then some (rcount, out.reverse) else none)
  | skip, .newline :: .opt :: fc, lc, rcount, out => do
    lift (if skip ∨ lc = [] then some () else none)
    match ← nextLine with
    | none => lift (if allOptional (.opt :: fc) then some (rcount, out.reverse) else none)
    | some l => scanFormat false fc l (rcount + 1) out
  | skip, .newline :: fc, lc, rcount, out => do
    lift (if skip ∨ lc = [] then some () else none)
    match ← nextLine with
    | none => lift (if allOptional fc then some (rcount, out.reverse) else none)
    | some l => scanFormat false fc l rcount out
  | true, _ :: fc, lc, rcount, out => scanFormat true fc lc rcount out
  | false, .opt :: fc, [], rcount, out => scanFormat true fc [] rcount out
  | false, .opt :: fc, lc, rcount, out => scanFormat false fc lc (rcount + 1) out
  | false, .space :: fc, lc, rcount, out => scanFormat false fc (lc.dropWhile isSpace) rcount out
  | false, .lit c :: fc, lc, rcount, out => do
    lift (if lc.head? = some c then some () else none)
    scanFormat false fc lc.tail rcount out
  | false, .str :: _, lc, rcount, out => pure (rcount, (Field.str lc :: out).reverse)
  | false, .skipStr :: fc, _, rcount, out => scanFormat true fc [] rcount out
  | false, .skipInt :: fc, lc, rcount, out => do
    let t ← lift (skipDigits lc)
    scanFormat false fc t rcount out
  | false, .char :: fc, lc, rcount, out => do
    let c ← lift lc.head?
    scanFormat false fc lc.tail rcount (.char c :: out)
  | false, .num range :: fc, lc, rcount, out => do
    let (i, t) ← lift (dbioStringToInteger range lc)
    scanFormat false fc t rcount (.num i :: out)

/-- `dbio_scxnf`: one plus the number of optional segments matched, and the fields. -/
def dbioScxnf (format : List Fmt) : Reader σ (Nat × List Field) :=
  scanFormat true (.newline :: format) [] 1 []

/-! ## Numbers and lines are read as they were written -/

lemma isDigit_of_mem_toDigits {c : Char} {n : Nat} (hc : c ∈ Nat.toDigits 10 n) :
    c.isDigit = true :=
  Nat.isDigit_of_mem_toDigits (by simp) (by simp) hc

lemma not_isSpace_of_isDigit {c : Char} (h : c.isDigit = true) : isSpace c = false := by
  by_contra hs
  simp only [isSpace, Bool.not_eq_false, Bool.or_eq_true, decide_eq_true_eq] at hs
  rcases hs with ((((rfl | rfl) | rfl) | rfl) | rfl) | rfl <;> simp [Char.isDigit] at h

lemma newline_notMem_decimal (i : Int) : '\n' ∉ decimal i := by
  intro h
  cases i with
  | ofNat n => simpa [Char.isDigit] using isDigit_of_mem_toDigits h
  | negSucc n =>
    rcases List.mem_cons.mp h with h | h
    · simp at h
    · simpa [Char.isDigit] using isDigit_of_mem_toDigits h

lemma takeSign_of_isDigit {c : Char} {t : List Char} (h : c.isDigit = true) :
    takeSign (c :: t) = (false, c :: t) := by
  unfold takeSign
  split
  · simp_all [Char.isDigit]
  · simp_all [Char.isDigit]
  · rfl

/-- The first character of a number is its sign or a digit. -/
lemma decimal_ne_nil (i : Int) : decimal i ≠ [] := by
  cases i with
  | ofNat n => exact Nat.toDigits_ne_nil
  | negSucc n => simp [decimal]

lemma head_decimal_not_isSpace (i : Int) : (decimal i).head?.any isSpace = false := by
  cases i with
  | ofNat n =>
    obtain ⟨c, t, hct⟩ := List.exists_cons_of_ne_nil (Nat.toDigits_ne_nil (n := n) (b := 10))
    have hc : c ∈ Nat.toDigits 10 n := hct ▸ List.mem_cons_self
    simp only [decimal, hct, List.head?_cons, Option.any_some]
    exact not_isSpace_of_isDigit (isDigit_of_mem_toDigits hc)
  | negSucc n => rfl

lemma strtoimax_digits {n : Nat} {rest : List Char} (hr : rest.head?.any Char.isDigit = false) :
    (Nat.toDigits 10 n ++ rest).takeWhile Char.isDigit = Nat.toDigits 10 n ∧
      (Nat.toDigits 10 n ++ rest).dropWhile Char.isDigit = rest := by
  have hall : ∀ c ∈ Nat.toDigits 10 n, c.isDigit = true := fun c hc => isDigit_of_mem_toDigits hc
  rw [List.takeWhile_append_of_pos hall, List.dropWhile_append_of_pos hall]
  cases rest with
  | nil => simp
  | cons c rest =>
    simp only [List.head?_cons, Option.any_some] at hr
    simp [hr]

lemma strtoimax_decimal {i : Int} {rest : List Char} (hmin : intmaxMin ≤ i) (hmax : i ≤ intmaxMax)
    (hr : rest.head?.any Char.isDigit = false) :
    strtoimax (decimal i ++ rest) = (i, rest, false) := by
  cases i with
  | ofNat n =>
    obtain ⟨c, t, hct⟩ := List.exists_cons_of_ne_nil (Nat.toDigits_ne_nil (n := n) (b := 10))
    have hc : c.isDigit = true := isDigit_of_mem_toDigits (hct ▸ List.mem_cons_self)
    have hs : takeSign ((Nat.toDigits 10 n ++ rest).dropWhile isSpace)
        = (false, Nat.toDigits 10 n ++ rest) := by
      rw [hct, List.cons_append, List.dropWhile_cons_of_neg (by simp [not_isSpace_of_isDigit hc]),
        takeSign_of_isDigit hc]
    obtain ⟨htake, hdrop⟩ := strtoimax_digits (n := n) hr
    simp only [strtoimax, decimal, hs, htake, hdrop, Nat.toDigits_ne_nil, if_false,
      Nat.ofDigitChars_ten_toDigits, Bool.false_eq_true]
    rw [Int.ofNat_eq_natCast] at hmin hmax ⊢
    rw [if_neg (Int.not_lt.mpr hmin), if_neg (Int.not_lt.mpr hmax)]
  | negSucc n =>
    have hs : takeSign (('-' :: Nat.toDigits 10 (n + 1) ++ rest).dropWhile isSpace)
        = (true, Nat.toDigits 10 (n + 1) ++ rest) := by
      rw [List.cons_append, List.dropWhile_cons_of_neg (by decide)]
      rfl
    obtain ⟨htake, hdrop⟩ := strtoimax_digits (n := n + 1) hr
    have hneg : -((n + 1 : Nat) : Int) = Int.negSucc n := rfl
    simp only [strtoimax, decimal, hs, htake, hdrop, Nat.toDigits_ne_nil, if_false,
      Nat.ofDigitChars_ten_toDigits, if_true, hneg]
    rw [if_neg (Int.not_lt.mpr hmin), if_neg (Int.not_lt.mpr hmax)]

lemma dbioStringToInteger_decimal {range : IntRange} {i : Int} {rest : List Char}
    (h : range.Has i) (hr : rest.head?.any Char.isDigit = false) :
    dbioStringToInteger range (decimal i ++ rest) = some (i, rest) := by
  obtain ⟨hmin, hmax, hb⟩ := h
  have hlen : rest.length ≠ (decimal i ++ rest).length := by
    have := List.length_pos_iff.mpr (decimal_ne_nil i)
    rw [List.length_append]
    omega
  simp only [dbioStringToInteger, strtoimax_decimal hmin hmax hr, hlen, if_false,
    Bool.false_eq_true]
  cases hbs : range.bounds with
  | none => rfl
  | some b =>
    obtain ⟨hlo, hhi⟩ := hb b hbs
    simp only
    rw [if_neg (Int.not_lt.mpr hlo), if_neg (Int.not_lt.mpr hhi)]

lemma takes_dbioReadInteger {range : IntRange} {i : Int} (h : range.Has i) (s : σ) :
    Takes (dbioReadInteger range) s (decimal i ++ ['\n']) i s := by
  refine (Takes.line (newline_notMem_decimal i)).bind_last (Takes.lift ?_)
  have hi : dbioStringToInteger range (decimal i) = some (i, []) := by
    rw [← List.append_nil (decimal i)]
    exact dbioStringToInteger_decimal h rfl
  simp [hi, head_decimal_not_isSpace]

lemma takes_dbioReadString {t : String} (h : '\n' ∉ t.toList) (s : σ) :
    Takes dbioReadString s (t.toList ++ ['\n']) t s := by
  refine (Takes.line h).bind_last ?_
  rw [String.ofList_toList]
  exact Takes.pure _ s

lemma takes_dbioSkipLine {t : List Char} (h : '\n' ∉ t) (s : σ) :
    Takes dbioSkipLine s (t ++ ['\n']) () s :=
  (Takes.line h).bind_last (Takes.pure _ s)

/-! ## Formats -/

lemma takes_nextLine {u : List Char} (h : '\n' ∉ u) (s : σ) :
    Takes nextLine s (u ++ ['\n']) (some u) s := by
  intro rest
  simp only [nextLine, Takes.line h rest]

/-- A line of a format that is not optional. -/
lemma takes_scanFormat_newline {fc : List Fmt} {u lc : List Char} {skip : Bool} {n : Nat}
    {out : List Field} {a : Nat × List Field} {t : List Char} {s : σ}
    (hfc : ∀ fc', fc ≠ .opt :: fc') (hu : '\n' ∉ u) (hskip : skip = true ∨ lc = [])
    (h : Takes (scanFormat false fc u n out) s t a s) :
    Takes (scanFormat skip (.newline :: fc) lc n out) s (u ++ ['\n'] ++ t) a s := by
  have heq : scanFormat skip (.newline :: fc) lc n out = (do
      lift (if skip ∨ lc = [] then some () else none)
      match ← nextLine with
      | none => lift (if allOptional fc then some (n, out.reverse) else none)
      | some l => scanFormat false fc l n out : Reader σ (Nat × List Field)) := by
    cases fc with
    | nil => cases skip <;> rfl
    | cons f fc => cases f <;> first | exact absurd rfl (hfc fc) | (cases skip <;> rfl)
  rw [heq, if_pos hskip, lift_some, pure_bind]
  exact (takes_nextLine hu s).bind h

/-- A format of one line. -/
lemma takes_dbioScxnf {fc : List Fmt} {u : List Char} {a : Nat × List Field}
    (hfc : ∀ fc', fc ≠ .opt :: fc') (hu : '\n' ∉ u)
    (h : scanFormat (σ := σ) false fc u 1 [] = pure a) (s : σ) :
    Takes (dbioScxnf fc) s (u ++ ['\n']) a s := by
  have ht : Takes (scanFormat false fc u 1 []) s [] a s := by
    rw [h]
    exact Takes.pure a s
  have hline : Takes (dbioScxnf fc) s (u ++ ['\n'] ++ []) a s :=
    takes_scanFormat_newline hfc hu (Or.inl rfl) ht
  rwa [List.append_nil] at hline

lemma dropWhile_isSpace_decimal (i : Int) (rest : List Char) :
    (decimal i ++ rest).dropWhile isSpace = decimal i ++ rest := by
  obtain ⟨c, t, hct⟩ := List.exists_cons_of_ne_nil (decimal_ne_nil i)
  have hc := head_decimal_not_isSpace i
  rw [hct] at hc ⊢
  rw [List.cons_append, List.dropWhile_cons_of_neg]
  simpa using hc

lemma scanFormat_num {range : IntRange} {i : Int} {rest : List Char} {fc : List Fmt} {n : Nat}
    {out : List Field} (h : range.Has i) (hr : rest.head?.any Char.isDigit = false) :
    (scanFormat false (.num range :: fc) (decimal i ++ rest) n out : Reader σ _)
      = scanFormat false fc rest n (.num i :: out) := by
  simp only [scanFormat, dbioStringToInteger_decimal h hr, lift_some, pure_bind]

end LambdaMOO
