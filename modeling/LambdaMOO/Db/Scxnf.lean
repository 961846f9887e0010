import LambdaMOO.Db.Text

/-!
# `dbio_scxnf` on the characters of a format

The labels of `dbio_scxnf` as they go through the format string and the lines of the input.
What lies behind the end of a line is not part of the model: a scan that comes to read there
has no result.
-/

namespace LambdaMOO

namespace IntRange

/-- The conversion specifications of `DBIO_INT_TYPE_LIST`. -/
def cspec : IntRange → List Char
  | .num => ['l', 'd', '\x07']
  | .unum => ['l', 'u', '\x07']
  | .task => ['d', '\x08']
  | .intmax => ['j', 'd']
  | .int16 => ['h', 'd']
  | .uint16 => ['h', 'u']
  | .int => ['d']
  | .uint => ['u']
  | .err => ['h', 'h', 'u', '\x07']

end IntRange

/-- `dbio_scanfmts`, in the order of `DBIO_INT_TYPE_LIST`. -/
def dbioScanfmts : List IntRange :=
  [.num, .unum, .task, .intmax, .int16, .uint16, .int, .uint, .err]

namespace Scxnf

/-- What a call returns: `rcount` and the values stored through the arguments in turn, or 0.
`overrun` is a scan that reads behind the end of a line. -/
inductive Result where
  | matched (rcount : Nat) (fields : List Field)
  | failed
  | overrun
  | panics
  deriving DecidableEq, Repr

/-- Where `lc` is: at a rest of the line, or behind the byte that ends it. -/
inductive Cursor where
  | at (lc : List Char)
  | behind
  deriving DecidableEq, Repr

/-- Where the labels go on. -/
inductive Next where
  | done (fields : List Field)
  | nextline (fc : List Char)
  | state1 (fc : List Char) (lc : Cursor) (fields : List Field)
  | failed
  | overrun
  | panics

/-- `do if (!*++fc) goto done; while (*fc != '\n');` on what follows `*fc`: the format behind
the newline, none at `done`. -/
def skipFormat (fc : List Char) : Option (List Char) :=
  match fc.dropWhile (· ≠ '\n') with
  | [] => none
  | _ :: fc => some fc

/-- `%*d` behind the `*`. -/
def convSkip (fc : List Char) (lc : Cursor) : Next :=
  match fc with
  | 'd' :: fc =>
    match lc with
    | .behind => .overrun
    | .at lc =>
      match skipDigits lc with
      | none => .failed
      | some lc => .state1 fc (.at lc) []
  | _ => .panics

/-- `%c` behind the `c`. At the end of the line it stores the byte that ends it. -/
def convChar (fc : List Char) : Cursor → Next
  | .behind => .overrun
  | .at [] => .state1 fc .behind [.char '\x00']
  | .at (c :: lc) => .state1 fc (.at lc) [.char c]

/-- A number that is assigned. -/
def convNum (fc : List Char) (lc : Cursor) : Next :=
  match dbioScanfmts.find? fun r => r.cspec.isPrefixOf fc with
  | none => .panics
  | some r =>
    match lc with
    | .behind => .overrun
    | .at lc =>
      match dbioStringToInteger r lc with
      | none => .failed
      | some (i, lc) => .state1 (fc.drop r.cspec.length) (.at lc) [.num i]

/-- The label `convspec`; `fc` is what follows the `%`. -/
def convspec (fc : List Char) (lc : Cursor) : Next :=
  match fc with
  | '*' :: 'm' :: _ => .panics
  | '*' :: 's' :: fc =>
    match fc with
    | [] => .done []
    | '\n' :: fc => .nextline fc
    | _ => .panics
  | '*' :: fc => convSkip fc lc
  | 'm' :: fc =>
    match fc with
    | ['s'] =>
      match lc with
      | .behind => .overrun
      | .at lc => .done [.str lc]
    | _ => .panics
  | 's' :: _ => .panics
  | 'c' :: fc => convChar fc lc
  | fc => convNum fc lc

/-- The label `state1` at the end of a line. -/
def atLineEnd (fc : List Char) : Next :=
  match fc.dropWhile (· = ' ') with
  | [] => .done []
  | '\x0b' :: fc =>
    match skipFormat fc with
    | none => .done []
    | some fc => .nextline fc
  | '%' :: fc => convspec fc (.at [])
  | '\n' :: fc => .nextline fc
  | _ => .failed

/-- The label `state1` elsewhere, behind the characters that begin optional segments. -/
def inLine (fc : List Char) (lc : Cursor) : Next :=
  match fc with
  | [] => .failed
  | '\n' :: _ => .failed
  | ' ' :: fc =>
    match lc with
    | .behind => .overrun
    | .at lc => .state1 fc (.at (lc.dropWhile isSpace)) []
  | '%' :: fc => convspec fc lc
  | c :: fc =>
    match lc with
    | .at (d :: lc) => if d = c then .state1 fc (.at lc) [] else .failed
    | _ => .failed

/-- One more than what is left of the format. -/
def Next.left : Next → Nat
  | .nextline fc => fc.length + 1
  | .state1 fc _ _ => fc.length + 1
  | _ => 0

lemma left_convSkip (fc : List Char) (lc : Cursor) : (convSkip fc lc).left ≤ fc.length := by
  unfold convSkip
  split
  · cases lc with
    | behind => exact Nat.zero_le _
    | «at» lc =>
      dsimp only
      cases skipDigits lc with
      | none => exact Nat.zero_le _
      | some t => exact Nat.le_refl _
  · exact Nat.zero_le _

lemma left_convChar (fc : List Char) (lc : Cursor) : (convChar fc lc).left ≤ fc.length + 1 := by
  cases lc with
  | behind => exact Nat.zero_le _
  | «at» lc => cases lc <;> exact Nat.le_refl _

lemma left_convNum (fc : List Char) (lc : Cursor) : (convNum fc lc).left ≤ fc.length + 1 := by
  unfold convNum
  cases dbioScanfmts.find? fun r => r.cspec.isPrefixOf fc with
  | none => exact Nat.zero_le _
  | some r =>
    cases lc with
    | behind => exact Nat.zero_le _
    | «at» lc =>
      dsimp only
      cases dbioStringToInteger r lc with
      | none => exact Nat.zero_le _
      | some q =>
        rw [Next.left, List.length_drop]
        exact Nat.succ_le_succ (Nat.sub_le _ _)

lemma left_convspec (fc : List Char) (lc : Cursor) :
    (convspec fc lc).left ≤ fc.length + 1 := by
  unfold convspec
  split
  · exact Nat.zero_le _
  · split
    · exact Nat.zero_le _
    · simp only [Next.left, List.length_cons]
      omega
    · exact Nat.zero_le _
  · exact Nat.le_trans (left_convSkip _ _) (by simp only [List.length_cons]; omega)
  · split
    · cases lc <;> exact Nat.zero_le _
    · exact Nat.zero_le _
  · exact Nat.zero_le _
  · exact Nat.le_trans (left_convChar _ _) (by simp only [List.length_cons]; omega)
  · exact left_convNum _ _

lemma length_skipFormat {fc fc' : List Char} (h : skipFormat fc = some fc') :
    fc'.length < fc.length := by
  unfold skipFormat at h
  have hle := (List.dropWhile_suffix (l := fc) (· ≠ '\n')).length_le
  split at h
  · cases h
  · rename_i c rest hd
    obtain rfl := Option.some.inj h
    rw [hd, List.length_cons] at hle
    omega

lemma left_atLineEnd (fc : List Char) : (atLineEnd fc).left ≤ fc.length := by
  have hle := (List.dropWhile_suffix (l := fc) (· = ' ')).length_le
  unfold atLineEnd
  split
  · exact Nat.zero_le _
  · rename_i fc' hd
    rw [hd, List.length_cons] at hle
    cases hs : skipFormat fc' with
    | none => exact Nat.zero_le _
    | some fc'' =>
      have hlt := length_skipFormat hs
      simp only [Next.left]
      omega
  · rename_i fc' hd
    rw [hd, List.length_cons] at hle
    exact Nat.le_trans (left_convspec _ _) hle
  · rename_i fc' hd
    rw [hd, List.length_cons] at hle
    exact hle
  · exact Nat.zero_le _

lemma left_inLine (fc : List Char) (lc : Cursor) : (inLine fc lc).left ≤ fc.length := by
  unfold inLine
  split
  · exact Nat.zero_le _
  · exact Nat.zero_le _
  · cases lc with
    | behind => exact Nat.zero_le _
    | «at» lc => exact Nat.le_refl _
  · exact left_convspec _ _
  · split
    · split_ifs
      · exact Nat.le_refl _
      · exact Nat.zero_le _
    · exact Nat.zero_le _

/-- The loop at the end of the input: the rest of the format is optional lines. -/
def allOptionalLines : List Char → Bool
  | '\x0b' :: fc =>
    match _h : skipFormat fc with
    | none => true
    | some fc => allOptionalLines fc
  | _ => false
termination_by fc => fc.length
decreasing_by
  have := length_skipFormat _h
  rw [List.length_cons]
  omega

mutual
/-- The label `nextline`. -/
def nextline (fc : List Char) (lines : List (List Char)) (rcount : Nat) (out : List Field) :
    Result :=
  match lines with
  | [] => if allOptionalLines fc then .matched rcount out else .failed
  | l :: lines =>
    match fc with
    | '\x0b' :: fc => state1 fc (.at l) lines (rcount + 1) out
    | fc => state1 fc (.at l) lines rcount out
termination_by 3 * fc.length + 2

/-- The label `state1`. -/
def state1 (fc : List Char) (lc : Cursor) (lines : List (List Char)) (rcount : Nat)
    (out : List Field) : Result :=
  if lc = .at [] then goOn (atLineEnd fc) lines rcount out
  else
    let segments := fc.takeWhile (· = '\x0b')
    goOn (inLine (fc.dropWhile (· = '\x0b')) lc) lines (rcount + segments.length) out
termination_by 3 * fc.length + 1
decreasing_by
  · have := left_atLineEnd fc
    omega
  · have := left_inLine (fc.dropWhile (· = '\x0b')) lc
    have := (List.dropWhile_suffix (l := fc) (· = '\x0b')).length_le
    omega

/-- To the next label. -/
def goOn (next : Next) (lines : List (List Char)) (rcount : Nat) (out : List Field) : Result :=
  match next with
  | .done fields => .matched rcount (out ++ fields)
  | .nextline fc => nextline fc lines rcount out
  | .state1 fc lc fields => state1 fc lc lines rcount (out ++ fields)
  | .failed => .failed
  | .overrun => .overrun
  | .panics => .panics
termination_by 3 * next.left
decreasing_by
  all_goals
    simp only [Next.left]
    omega
end

end Scxnf

/-- `dbio_scxnf`. -/
def dbioScxnfLines (format : List Char) (lines : List (List Char)) : Scxnf.Result :=
  Scxnf.nextline format lines 1 []

end LambdaMOO
