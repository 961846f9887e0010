import LambdaMOO.Db.Scxnf

/-!
# Documented formats

The formats that the documentation of `dbio_scxnf` allows are lists of line formats, made of
pieces. On such a format `dbio_scxnf` goes from piece to piece and from line to line.
-/

namespace LambdaMOO

namespace Scxnf

/-- A character that stands for itself. -/
def IsPlain (c : Char) : Prop := c = '\t' ∨ ' ' < c ∧ c ≠ '%' ∧ c ≠ '\x7f'

instance (c : Char) : Decidable (IsPlain c) := inferInstanceAs (Decidable (_ ∨ _))

/-- The characters of a piece. -/
def pieceChars : Fmt → List Char
  | .lit c => [c]
  | .space => [' ']
  | .newline => ['\n']
  | .opt => ['\x0b']
  | .str => ['%', 'm', 's']
  | .skipStr => ['%', '*', 's']
  | .skipInt => ['%', '*', 'd']
  | .char => ['%', 'c']
  | .num r => '%' :: r.cspec

def lineChars (f : List Fmt) : List Char := f.flatMap pieceChars

/-- The format string for the line formats. -/
def formatChars : List (List Fmt) → List Char
  | [] => []
  | [f] => lineChars f
  | f :: fs => lineChars f ++ '\n' :: formatChars fs

/-- A line format. `%*s` stands at its end, and `%ms` at the end of the last one. -/
def IsLine (last : Bool) : List Fmt → Prop
  | [] => True
  | .lit c :: f => IsPlain c ∧ IsLine last f
  | .newline :: _ => False
  | .str :: f => last = true ∧ f = []
  | .skipStr :: f => f = []
  | _ :: f => IsLine last f

/-- A format that is documented. -/
def IsFormat : List (List Fmt) → Prop
  | [] => False
  | [f] => IsLine true f
  | f :: fs => IsLine false f ∧ IsFormat fs

/-! ## One line -/

/-- How a line format ends. -/
inductive LineResult where
  | done (rcount : Nat) (out : List Field)
  | failed
  | overrun
  deriving DecidableEq, Repr

/-- The line format from `lc` on. -/
def readLine : List Fmt → Cursor → Nat → List Field → LineResult
  | [], .at [], rcount, out => .done rcount out
  | [], _, _, _ => .failed
  | .opt :: _, .at [], rcount, out => .done rcount out
  | .opt :: f, lc, rcount, out => readLine f lc (rcount + 1) out
  | .lit c :: f, .at (d :: lc), rcount, out =>
    if d = c then readLine f (.at lc) rcount out else .failed
  | .lit _ :: _, _, _, _ => .failed
  | .newline :: _, _, _, _ => .failed
  | .skipStr :: _, _, rcount, out => .done rcount out
  | _ :: _, .behind, _, _ => .overrun
  | .space :: f, .at lc, rcount, out => readLine f (.at (lc.dropWhile isSpace)) rcount out
  | .str :: _, .at lc, rcount, out => .done rcount (out ++ [.str lc])
  | .skipInt :: f, .at lc, rcount, out =>
    match skipDigits lc with
    | none => .failed
    | some lc => readLine f (.at lc) rcount out
  | .char :: f, .at [], rcount, out => readLine f .behind rcount (out ++ [.char '\x00'])
  | .char :: f, .at (c :: lc), rcount, out => readLine f (.at lc) rcount (out ++ [.char c])
  | .num r :: f, .at lc, rcount, out =>
    match dbioStringToInteger r lc with
    | none => .failed
    | some (i, lc) => readLine f (.at lc) rcount (out ++ [.num i])

section

variable {f : List Fmt} {lc : List Char} {c d : Char} {r : IntRange} {rcount : Nat}
  {out : List Field}

@[simp] lemma readLine_nil : readLine [] (.at []) rcount out = .done rcount out := rfl

@[simp] lemma readLine_opt_nil : readLine (.opt :: f) (.at []) rcount out = .done rcount out := rfl

lemma readLine_opt_cons :
    readLine (.opt :: f) (.at (c :: lc)) rcount out = readLine f (.at (c :: lc)) (rcount + 1) out :=
  rfl

lemma readLine_opt_behind :
    readLine (.opt :: f) .behind rcount out = readLine f .behind (rcount + 1) out := rfl

lemma readLine_lit : readLine (.lit c :: f) (.at (d :: lc)) rcount out
    = if d = c then readLine f (.at lc) rcount out else .failed := rfl

lemma readLine_space : readLine (.space :: f) (.at lc) rcount out
    = readLine f (.at (lc.dropWhile isSpace)) rcount out := by
  cases lc <;> rfl

@[simp] lemma readLine_str :
    readLine (.str :: f) (.at lc) rcount out = .done rcount (out ++ [.str lc]) := by
  cases lc <;> rfl

@[simp] lemma readLine_str_behind : readLine (.str :: f) .behind rcount out = .overrun := rfl

@[simp] lemma readLine_skipStr (cur : Cursor) :
    readLine (.skipStr :: f) cur rcount out = .done rcount out := by
  rcases cur with ⟨_ | _⟩ | _ <;> rfl

lemma readLine_skipInt : readLine (.skipInt :: f) (.at lc) rcount out =
    match skipDigits lc with
    | none => .failed
    | some lc => readLine f (.at lc) rcount out := by
  cases lc <;> rfl

lemma readLine_char_nil : readLine (.char :: f) (.at []) rcount out
    = readLine f .behind rcount (out ++ [.char '\x00']) := rfl

lemma readLine_char_cons : readLine (.char :: f) (.at (c :: lc)) rcount out
    = readLine f (.at lc) rcount (out ++ [.char c]) := rfl

lemma readLine_num : readLine (.num r :: f) (.at lc) rcount out =
    match dbioStringToInteger r lc with
    | none => .failed
    | some (i, lc) => readLine f (.at lc) rcount (out ++ [.num i]) := by
  cases lc <;> rfl

end

/-- What follows a line format: nothing, or a newline and the format of the next line. -/
def LineResult.goOn (r : LineResult) (tail : List Char) (lines : List (List Char)) : Result :=
  match r with
  | .done rcount out =>
    match tail with
    | [] => .matched rcount out
    | _ :: fc => nextline fc lines rcount out
  | .failed => .failed
  | .overrun => .overrun

/-- The end of the format or of a line format. -/
def IsTail (last : Bool) (tail : List Char) : Prop :=
  if last then tail = [] else ∃ fc, tail = '\n' :: fc

section

variable {fc : List Char} {lc : List Char} {lines : List (List Char)} {rcount : Nat}
  {out : List Field}

lemma IsPlain.ne {c : Char} (h : IsPlain c) : c ≠ ' ' ∧ c ≠ '\x0b' ∧ c ≠ '%' ∧ c ≠ '\n' := by
  rcases h with rfl | ⟨hlt, h₁, -⟩
  · decide
  · refine ⟨?_, ?_, h₁, ?_⟩
    · rintro rfl
      exact absurd hlt (by decide)
    · rintro rfl
      exact absurd hlt (by decide)
    · rintro rfl
      exact absurd hlt (by decide)

/-! ### Pieces in the format string -/

lemma state1_end : state1 fc (.at []) lines rcount out = goOn (atLineEnd fc) lines rcount out := by
  rw [state1, if_pos rfl]

/-- Away from the end of the line, at a character that begins no optional segment. -/
lemma state1_inLine {c : Char} (hc : c ≠ '\x0b') {cur : Cursor} (hcur : cur ≠ .at []) :
    state1 (c :: fc) cur lines rcount out = goOn (inLine (c :: fc) cur) lines rcount out := by
  rw [state1, if_neg hcur, List.takeWhile_cons_of_neg (by simpa using hc),
    List.dropWhile_cons_of_neg (by simpa using hc)]
  rfl

lemma state1_opt {cur : Cursor} (hcur : cur ≠ .at []) :
    state1 ('\x0b' :: fc) cur lines rcount out = state1 fc cur lines (rcount + 1) out := by
  rw [state1, state1, if_neg hcur, if_neg hcur, List.takeWhile_cons_of_pos (by simp),
    List.dropWhile_cons_of_pos (by simp)]
  dsimp only
  rw [List.length_cons, Nat.add_assoc, Nat.add_comm 1]

lemma atLineEnd_opt :
    atLineEnd ('\x0b' :: fc) =
      match skipFormat fc with
      | none => .done []
      | some fc => .nextline fc := by
  rw [atLineEnd, List.dropWhile_cons_of_neg (by simp)]
  rfl

lemma state1_plain_end {c : Char} (hc : IsPlain c) :
    state1 (c :: fc) (.at []) lines rcount out = .failed := by
  obtain ⟨h₁, h₂, h₃, h₄⟩ := hc.ne
  have hend : atLineEnd (c :: fc) = .failed := by
    rw [atLineEnd, List.dropWhile_cons_of_neg (by simpa using h₁)]
    split <;> simp_all
  rw [state1_end, hend, goOn]

lemma inLine_plain {c : Char} (hc : IsPlain c) (cur : Cursor) :
    inLine (c :: fc) cur =
      match cur with
      | .at (d :: lc) => if d = c then .state1 fc (.at lc) [] else .failed
      | _ => .failed := by
  obtain ⟨h₁, h₂, h₃, h₄⟩ := hc.ne
  unfold inLine
  split
  · simp_all
  · simp_all
  · simp_all
  · simp_all
  · rename_i heq
    obtain ⟨rfl, rfl⟩ := List.cons.inj heq
    cases cur with
    | behind => rfl
    | «at» lc => cases lc <;> rfl

lemma state1_space_end :
    state1 (' ' :: fc) (.at []) lines rcount out = state1 fc (.at []) lines rcount out := by
  rw [state1_end, state1_end, atLineEnd, List.dropWhile_cons_of_pos (by simp), atLineEnd]

/-- A conversion is the same at the end of a line and before it. -/
lemma state1_percent (cur : Cursor) :
    state1 ('%' :: fc) cur lines rcount out = goOn (convspec fc cur) lines rcount out := by
  by_cases hcur : cur = .at []
  · subst hcur
    rw [state1_end, atLineEnd, List.dropWhile_cons_of_neg (by simp)]
    rfl
  · rw [state1_inLine (by decide) hcur]
    rfl

/-- The first specification that fits is the one that is meant. -/
lemma find_cspec (r : IntRange) (hr : fc.head? ≠ some '\x08') :
    dbioScanfmts.find? (fun q => q.cspec.isPrefixOf (r.cspec ++ fc)) = some r := by
  cases r with
  | int =>
    cases fc with
    | nil => decide
    | cons c fc =>
      have hc : ('\x08' == c) = false := by
        rw [beq_eq_false_iff_ne]
        rintro rfl
        exact hr rfl
      simp [dbioScanfmts, IntRange.cspec, List.isPrefixOf, hc]
  | _ => simp [dbioScanfmts, IntRange.cspec, List.isPrefixOf]

lemma convNum_cspec (r : IntRange) (hr : fc.head? ≠ some '\x08') (cur : Cursor) :
    convNum (r.cspec ++ fc) cur =
      match cur with
      | .behind => .overrun
      | .at lc =>
        match dbioStringToInteger r lc with
        | none => .failed
        | some (i, lc) => .state1 fc (.at lc) [.num i] := by
  rw [convNum, find_cspec r hr]
  cases cur with
  | behind => rfl
  | «at» lc =>
    dsimp only
    cases dbioStringToInteger r lc with
    | none => rfl
    | some q =>
      dsimp only
      rw [List.drop_left]

lemma convspec_num (r : IntRange) (cur : Cursor) :
    convspec (r.cspec ++ fc) cur = convNum (r.cspec ++ fc) cur := by
  cases r <;> rfl

/-! ### A line format in the format string -/

lemma lineChars_cons (p : Fmt) (f : List Fmt) : lineChars (p :: f) = pieceChars p ++ lineChars f :=
  List.flatMap_cons

/-- No specification goes on behind the one that is meant. -/
lemma head?_lineChars {last : Bool} {f : List Fmt} {tail : List Char} (hf : IsLine last f)
    (ht : IsTail last tail) : (lineChars f ++ tail).head? ≠ some '\x08' := by
  cases f with
  | nil =>
    cases last with
    | true =>
      obtain rfl : tail = [] := ht
      simp [lineChars]
    | false =>
      obtain ⟨fc, rfl⟩ : ∃ fc, tail = '\n' :: fc := ht
      simp [lineChars]
  | cons p f =>
    cases p with
    | lit c =>
      rw [lineChars_cons, pieceChars]
      rintro h
      obtain rfl : c = '\x08' := Option.some.inj h
      exact absurd hf.1 (by decide)
    | _ => simp [lineChars_cons, pieceChars]

lemma newline_notMem_lineChars {last : Bool} {f : List Fmt} (hf : IsLine last f) :
    '\n' ∉ lineChars f := by
  induction f with
  | nil => simp [lineChars]
  | cons p f ih =>
    rw [lineChars_cons, List.mem_append, not_or]
    cases p with
    | lit c => exact ⟨fun h => hf.1.ne.2.2.2 (List.mem_singleton.mp h).symm, ih hf.2⟩
    | newline => exact hf.elim
    | str =>
      obtain ⟨-, rfl⟩ := hf
      exact ⟨by decide, by simp [lineChars]⟩
    | skipStr =>
      obtain rfl : f = [] := hf
      exact ⟨by decide, by simp [lineChars]⟩
    | num r => exact ⟨by cases r <;> decide, ih hf⟩
    | _ => exact ⟨by decide, ih hf⟩

lemma skipFormat_lineChars {last : Bool} {f : List Fmt} {tail : List Char} (hf : IsLine last f)
    (ht : IsTail last tail) :
    skipFormat (lineChars f ++ tail) = if last then none else some tail.tail := by
  have hpass : ∀ c ∈ lineChars f, decide (c ≠ '\n') = true := by
    intro c hc
    apply decide_eq_true
    rintro rfl
    exact newline_notMem_lineChars hf hc
  rw [skipFormat, List.dropWhile_append_of_pos hpass]
  cases last with
  | true =>
    obtain rfl : tail = [] := ht
    rfl
  | false =>
    obtain ⟨fc, rfl⟩ : ∃ fc, tail = '\n' :: fc := ht
    rfl

/-- `dbio_scxnf` follows the pieces of a line format. -/
lemma state1_lineChars {last : Bool} {f : List Fmt} (hf : IsLine last f) {tail : List Char}
    (ht : IsTail last tail) (cur : Cursor) :
    state1 (lineChars f ++ tail) cur lines rcount out
      = (readLine f cur rcount out).goOn tail lines := by
  induction f generalizing cur rcount out with
  | nil =>
    by_cases hcur : cur = .at []
    · subst hcur
      rw [state1_end]
      cases last with
      | true =>
        obtain rfl : tail = [] := ht
        simp [lineChars, atLineEnd, goOn, LineResult.goOn]
      | false =>
        obtain ⟨fc, rfl⟩ : ∃ fc, tail = '\n' :: fc := ht
        simp [lineChars, atLineEnd, goOn, LineResult.goOn]
    · have hread : readLine [] cur rcount out = .failed := by
        cases cur with
        | behind => rfl
        | «at» lc =>
          cases lc with
          | nil => exact absurd rfl hcur
          | cons d lc => rfl
      rw [hread, LineResult.goOn, state1, if_neg hcur]
      cases last with
      | true =>
        obtain rfl : tail = [] := ht
        simp [lineChars, inLine, goOn]
      | false =>
        obtain ⟨fc, rfl⟩ : ∃ fc, tail = '\n' :: fc := ht
        simp [lineChars, inLine, goOn]
  | cons p f ih =>
    rw [lineChars_cons, List.append_assoc]
    cases p with
    | lit c =>
      obtain ⟨hc, hf⟩ := hf
      rw [pieceChars, List.singleton_append]
      by_cases hcur : cur = .at []
      · subst hcur
        rw [state1_plain_end hc]
        rfl
      · rw [state1_inLine hc.ne.2.1 hcur, inLine_plain hc]
        cases cur with
        | behind =>
          rw [goOn]
          rfl
        | «at» lc =>
          cases lc with
          | nil => exact absurd rfl hcur
          | cons d lc =>
            dsimp only
            rw [readLine_lit]
            split_ifs
            · rw [goOn, List.append_nil]
              exact ih hf _
            · rw [goOn]
              rfl
    | space =>
      rw [pieceChars, List.singleton_append]
      cases cur with
      | behind =>
        rw [state1_inLine (by decide) (by simp), inLine, goOn]
        rfl
      | «at» lc =>
        cases lc with
        | nil =>
          rw [state1_space_end]
          exact ih hf _
        | cons d lc =>
          rw [state1_inLine (by decide) (by simp), inLine, goOn, List.append_nil]
          exact ih hf _
    | newline => exact hf.elim
    | opt =>
      rw [pieceChars, List.singleton_append]
      by_cases hcur : cur = .at []
      · subst hcur
        rw [state1_end, atLineEnd_opt, skipFormat_lineChars (show IsLine last f from hf) ht]
        cases last with
        | true =>
          obtain rfl : tail = [] := ht
          simp [goOn, LineResult.goOn]
        | false =>
          obtain ⟨fc, rfl⟩ : ∃ fc, tail = '\n' :: fc := ht
          simp [goOn, LineResult.goOn]
      · have hread : readLine (.opt :: f) cur rcount out = readLine f cur (rcount + 1) out := by
          cases cur with
          | behind => rfl
          | «at» lc =>
            cases lc with
            | nil => exact absurd rfl hcur
            | cons d lc => rfl
        rw [state1_opt hcur, hread]
        exact ih hf _
    | str =>
      obtain ⟨rfl, rfl⟩ := hf
      obtain rfl : tail = [] := ht
      have hconv : convspec ['m', 's'] cur =
          match cur with
          | .behind => .overrun
          | .at lc => .done [.str lc] := rfl
      rw [pieceChars, lineChars, List.flatMap_nil, List.append_nil, List.append_nil,
        state1_percent, hconv]
      cases cur <;> simp [goOn, LineResult.goOn]
    | skipStr =>
      obtain rfl : f = [] := hf
      rw [pieceChars, lineChars, List.flatMap_nil, List.nil_append, List.cons_append,
        List.cons_append, List.cons_append, List.nil_append, state1_percent]
      cases last with
      | true =>
        obtain rfl : tail = [] := ht
        simp [convspec, goOn, LineResult.goOn]
      | false =>
        obtain ⟨fc, rfl⟩ : ∃ fc, tail = '\n' :: fc := ht
        simp [convspec, goOn, LineResult.goOn]
    | skipInt =>
      have hconv (fc : List Char) : convspec ('*' :: 'd' :: fc) cur =
          match cur with
          | .behind => .overrun
          | .at lc =>
            match skipDigits lc with
            | none => .failed
            | some lc => .state1 fc (.at lc) [] := rfl
      rw [pieceChars, List.cons_append, List.cons_append, List.cons_append, List.nil_append,
        state1_percent, hconv]
      cases cur with
      | behind =>
        rw [goOn]
        rfl
      | «at» lc =>
        dsimp only
        rw [readLine_skipInt]
        cases skipDigits lc with
        | none =>
          rw [goOn]
          rfl
        | some lc =>
          rw [goOn, List.append_nil]
          exact ih hf _
    | char =>
      have hconv (fc : List Char) : convspec ('c' :: fc) cur = convChar fc cur := rfl
      rw [pieceChars, List.cons_append, List.cons_append, List.nil_append, state1_percent, hconv]
      cases cur with
      | behind =>
        rw [convChar, goOn]
        rfl
      | «at» lc =>
        cases lc with
        | nil =>
          rw [convChar, goOn, readLine_char_nil]
          exact ih hf _
        | cons c lc =>
          rw [convChar, goOn, readLine_char_cons]
          exact ih hf _
    | num r =>
      have hhead := head?_lineChars (show IsLine last f from hf) ht
      rw [pieceChars, List.cons_append, state1_percent, convspec_num, convNum_cspec r hhead]
      cases cur with
      | behind =>
        rw [goOn]
        rfl
      | «at» lc =>
        dsimp only
        rw [readLine_num]
        cases dbioStringToInteger r lc with
        | none =>
          rw [goOn]
          rfl
        | some q =>
          rw [goOn]
          exact ih hf _

/-! ## All lines -/

/-- A line format on a line; its first piece may say that the line is optional. -/
def readFirst (f : List Fmt) (l : List Char) (rcount : Nat) (out : List Field) : LineResult :=
  match f with
  | .opt :: f => readLine f (.at l) (rcount + 1) out
  | f => readLine f (.at l) rcount out

/-- The line formats on the lines of the input. -/
def readLines : List (List Fmt) → List (List Char) → Nat → List Field → Result
  | [], _, rcount, out => .matched rcount out
  | f :: fs, [], rcount, out =>
    if (f :: fs).all fun g => g.head? = some .opt then .matched rcount out else .failed
  | f :: fs, l :: lines, rcount, out =>
    match readFirst f l rcount out with
    | .done rcount out => readLines fs lines rcount out
    | .failed => .failed
    | .overrun => .overrun

/-- Only an optional line begins with the character for it. -/
lemma head?_lineChars_opt {last : Bool} {f : List Fmt} {tail : List Char} (hf : IsLine last f)
    (ht : IsTail last tail) (hopt : f.head? ≠ some .opt) :
    (lineChars f ++ tail).head? ≠ some '\x0b' := by
  cases f with
  | nil =>
    cases last with
    | true =>
      obtain rfl : tail = [] := ht
      simp [lineChars]
    | false =>
      obtain ⟨fc, rfl⟩ : ∃ fc, tail = '\n' :: fc := ht
      simp [lineChars]
  | cons p f =>
    cases p with
    | opt => exact absurd rfl hopt
    | lit c =>
      rw [lineChars_cons, pieceChars]
      intro h
      exact hf.1.ne.2.1 (Option.some.inj h)
    | _ => simp [lineChars_cons, pieceChars]

lemma nextline_of_head?_ne {l : List Char} (h : fc.head? ≠ some '\x0b') :
    nextline fc (l :: lines) rcount out = state1 fc (.at l) lines rcount out := by
  rw [nextline]
  rintro fc' rfl
  exact h rfl

lemma readFirst_of_head?_ne {f : List Fmt} {l : List Char} (h : f.head? ≠ some .opt) :
    readFirst f l rcount out = readLine f (.at l) rcount out := by
  unfold readFirst
  split
  · exact absurd rfl h
  · rfl

lemma nextline_lineChars {last : Bool} {f : List Fmt} (hf : IsLine last f) {tail : List Char}
    (ht : IsTail last tail) (l : List Char) :
    nextline (lineChars f ++ tail) (l :: lines) rcount out
      = (readFirst f l rcount out).goOn tail lines := by
  by_cases hopt : f.head? = some .opt
  · obtain ⟨f, rfl⟩ : ∃ g, f = .opt :: g := ⟨f.tail, List.eq_cons_of_mem_head? hopt⟩
    rw [lineChars_cons, pieceChars, List.singleton_append, List.cons_append, nextline]
    exact state1_lineChars (show IsLine last f from hf) ht _
  · rw [nextline_of_head?_ne (head?_lineChars_opt hf ht hopt), state1_lineChars hf ht,
      readFirst_of_head?_ne hopt]

lemma allOptionalLines_opt :
    allOptionalLines ('\x0b' :: fc) = ((skipFormat fc).map allOptionalLines).getD true := by
  rw [allOptionalLines]
  split
  · rename_i h
    rw [h]
    rfl
  · rename_i fc' h
    rw [h]
    rfl

lemma allOptionalLines_lineChars {last : Bool} {f : List Fmt} (hf : IsLine last f)
    {tail : List Char} (ht : IsTail last tail) :
    allOptionalLines (lineChars f ++ tail)
      = (decide (f.head? = some .opt) && (last || allOptionalLines tail.tail)) := by
  by_cases hopt : f.head? = some .opt
  · obtain ⟨f, rfl⟩ : ∃ g, f = .opt :: g := ⟨f.tail, List.eq_cons_of_mem_head? hopt⟩
    rw [lineChars_cons, pieceChars, List.singleton_append, List.cons_append, allOptionalLines_opt,
      skipFormat_lineChars (show IsLine last f from hf) ht]
    cases last <;> rfl
  · rw [allOptionalLines, decide_eq_false hopt, Bool.false_and]
    intro fc' h
    exact head?_lineChars_opt hf ht hopt (by rw [h]; rfl)

lemma formatChars_single (f : List Fmt) : formatChars [f] = lineChars f ++ [] :=
  (List.append_nil _).symm

lemma formatChars_cons (f g : List Fmt) (fs : List (List Fmt)) :
    formatChars (f :: g :: fs) = lineChars f ++ '\n' :: formatChars (g :: fs) := rfl

lemma allOptionalLines_formatChars {F : List (List Fmt)} (hF : IsFormat F) :
    allOptionalLines (formatChars F) = F.all fun g => g.head? = some .opt := by
  induction F with
  | nil => exact hF.elim
  | cons f fs ih =>
    cases fs with
    | nil =>
      rw [formatChars_single, allOptionalLines_lineChars hF (rfl : IsTail true [])]
      simp
    | cons g fs =>
      obtain ⟨hf, hF⟩ := hF
      rw [formatChars_cons, allOptionalLines_lineChars hf ⟨_, rfl⟩, List.all_cons, ← ih hF]
      rfl

/-- `dbio_scxnf` follows the line formats. -/
lemma nextline_formatChars {F : List (List Fmt)} (hF : IsFormat F) :
    nextline (formatChars F) lines rcount out = readLines F lines rcount out := by
  induction F generalizing lines rcount out with
  | nil => exact hF.elim
  | cons f fs ih =>
    cases lines with
    | nil => rw [nextline, allOptionalLines_formatChars hF, readLines]
    | cons l lines =>
      rw [readLines]
      cases fs with
      | nil =>
        rw [formatChars_single, nextline_lineChars hF (rfl : IsTail true [])]
        cases readFirst f l rcount out <;> simp [LineResult.goOn, readLines]
      | cons g fs =>
        obtain ⟨hf, hF⟩ := hF
        rw [formatChars_cons, nextline_lineChars hf ⟨_, rfl⟩]
        cases readFirst f l rcount out with
        | done rcount out => exact ih hF
        | failed => rfl
        | overrun => rfl

end

end Scxnf

end LambdaMOO
