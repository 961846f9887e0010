import LambdaMOO.Parser.Grammar

/-!
# Printing expressions

`unparse_expr` of `unparse.c`. What it prints is a list of tokens with blanks in between, and
the text is that of its chunks.
-/

namespace LambdaMOO

variable {t : IntType}

/-- A token or a blank. -/
inductive Chunk (t : IntType) where
  | tok (token : Token t)
  | blank
  deriving DecidableEq, Repr

/-- What printing depends on: the language that it prints, the names of built-in functions and
of variables, `fully_parenthesize`, `FLOAT_DIGITS` and the function `stream_float_printf`, which
gets a precision. -/
structure Unparser (t : IntType) where
  cfg : LexConfig t
  funcs : Names
  varNames : Names
  fullyParenthesize : Bool
  floatDigits : ℕ
  floatPrintf : ℕ → FlNum → List Char

/-- `name_func_by_num`. -/
def Unparser.nameFuncByNum (u : Unparser t) (n : ℕ) : List Char :=
  u.funcs.getD n "no such function".toList

/-- The loop of `stream_unparse_float`, where `k` turns are left. It ends at the precision with
which the number is read back. -/
def Unparser.printFloat (u : Unparser t) (fnum : FlNum) : ℕ → ℕ → List Char
  | 0, prec => u.floatPrintf prec fnum
  | k + 1, prec =>
    if (u.cfg.fl.strtoflnum (u.floatPrintf prec fnum)).1.any fnum.ceq then u.floatPrintf prec fnum
    else printFloat u fnum k (prec + 1)

/-- `stream_unparse_float`. -/
def Unparser.unparseFloat (u : Unparser t) (fnum : FlNum) : List Char :=
  let s := u.printFloat fnum 4 u.floatDigits
  if s.any fun c => c = '.' || c = 'e' then s else s ++ ['.', '0']

/-- `error_name`. -/
def errorName : ErrorCode → String
  | .eNone => "E_NONE"
  | .eType => "E_TYPE"
  | .eDiv => "E_DIV"
  | .ePerm => "E_PERM"
  | .ePropnf => "E_PROPNF"
  | .eVerbnf => "E_VERBNF"
  | .eVarnf => "E_VARNF"
  | .eInvind => "E_INVIND"
  | .eRecmove => "E_RECMOVE"
  | .eMaxrec => "E_MAXREC"
  | .eRange => "E_RANGE"
  | .eArgs => "E_ARGS"
  | .eNacc => "E_NACC"
  | .eInvarg => "E_INVARG"
  | .eQuota => "E_QUOTA"
  | .eFloat => "E_FLOAT"

/-- A character of a string: a backslash stands in front of a quote and of a backslash. -/
def escapeChar (c : Char) : List Char := if c = '"' ∨ c = '\\' then ['\\', c] else [c]

/-- The characters of a token. The integer of a token has no sign. -/
def Unparser.tokenText (u : Unparser t) : Token t → List Char
  | .tINTEGER num => Nat.toDigits 10 num.toNat
  | .tOBJECT obj => '#' :: decimal obj.toInt
  | .tFLOAT fnum => u.unparseFloat fnum
  | .tSTRING s => '"' :: s.flatMap escapeChar ++ ['"']
  | .tID s => s
  | .tERROR err => (errorName err).toList
  | .keyword .tIN => ['i', 'n']
  | .keyword .tANY => ['A', 'N', 'Y']
  | token => token.text.getD []

def Unparser.chunkText (u : Unparser t) : Chunk t → List Char
  | .tok token => u.tokenText token
  | .blank => [' ']

/-- The text that is printed. -/
def Unparser.text (u : Unparser t) (ps : List (Chunk t)) : List Char := ps.flatMap u.chunkText

def Chunk.token? : Chunk t → Option (Token t)
  | .tok token => some token
  | .blank => none

/-- The tokens that are printed. -/
def tokensOf (ps : List (Chunk t)) : List (Token t) := ps.filterMap Chunk.token?

/-- `unparse_value` of a literal. A sign is a token of its own. -/
def literalChunks : Literal → List (Chunk t)
  | .int i =>
    if i < 0 then [.tok (.chr '-'), .tok (.tINTEGER (BitVec.ofInt t.bits (-i)))]
    else [.tok (.tINTEGER (BitVec.ofInt t.bits i))]
  | .obj i => [.tok (.tOBJECT (BitVec.ofInt t.bits i))]
  | .str s => [.tok (.tSTRING s.toList)]
  | .err err => [.tok (.tERROR err)]
  | .float f =>
    if f.neg then [.tok (.chr '-'), .tok (.tFLOAT f.negate)] else [.tok (.tFLOAT f)]

/-! ## Precedences -/

def BinOp.prec : BinOp → ℕ
  | .eq | .ne | .lt | .le | .gt | .ge | .isIn => 4
  | .bitor => 5
  | .bitxor => 6
  | .bitand => 7
  | .shl | .shr | .lshr => 8
  | .plus | .minus => 9
  | .times | .divide | .mod => 10
  | .exp => 11

/-- `expr_prec`. -/
def Expr.prec : Expr → ℕ
  | .scatter _ => 0
  | .asgn _ _ => 1
  | .cond _ _ _ => 2
  | .logical _ _ _ => 3
  | .binary op _ _ => op.prec
  | .unary _ _ => 12
  | .prop _ _ | .verb _ _ _ | .index _ _ | .range _ _ _ => 13
  | .var _ | .id _ | .list _ | .call _ _ | .length | .catchExpr _ _ _ => 14

/-- `expr_prec[EXPR_PROP]`. -/
def propPrec : ℕ := 13

/-- `ok_identifier`, which looks at bytes: those of other characters are negative. -/
def okIdentifier (tb : UtfCtype) : List Char → Bool
  | [] => false
  | c :: s =>
    (c.toNat < 128 && tb.isXidStart c || c = '_') &&
      s.all (fun d => d.toNat < 128 && tb.isXidCont d || d = '_') &&
      (findKeyword (c :: s)).isNone

/-- The name that a string literal is, if it is one. -/
def Expr.okName (tb : UtfCtype) : Expr → Option (List Char)
  | .var (.str s) => if okIdentifier tb s.toList then some s.toList else none
  | _ => none

/-- `#0`, in front of which no object is printed. -/
def Expr.isSystemObject : Expr → Bool
  | .var (.obj 0) => true
  | _ => false

def Expr.isIntLiteral : Expr → Bool
  | .var (.int _) => true
  | _ => false

/-! ## Expressions -/

section

variable (u : Unparser t)

def bracket (b : Bool) (ps : List (Chunk t)) : List (Chunk t) :=
  if b then .tok (.chr '(') :: ps ++ [.tok (.chr ')')] else ps

/-- `bracket_lt`, for a child of precedence `child`. -/
def Unparser.bracketLt (parent child : ℕ) (ps : List (Chunk t)) : List (Chunk t) :=
  bracket (u.fullyParenthesize && child < propPrec || child < parent) ps

/-- `bracket_le`. -/
def Unparser.bracketLe (parent child : ℕ) (ps : List (Chunk t)) : List (Chunk t) :=
  bracket (u.fullyParenthesize && child < propPrec || child ≤ parent) ps

/-- An operator with a blank on either side. -/
def infixChunks (token : Token t) : List (Chunk t) := [.blank, .tok token, .blank]

def Unparser.varName (slot : ℕ) : List Char := u.varNames.getD slot []

def Unparser.varChunks (slot : ℕ) : List (Chunk t) := [.tok (.tID (u.varName slot))]

/-- `unparse_name_expr`. -/
def nameChunks (name : Option (List Char)) (ps : List (Chunk t)) : List (Chunk t) :=
  match name with
  | some s => [.tok (.tID s)]
  | none => .tok (.chr '(') :: ps ++ [.tok (.chr ')')]

/-- What stands in front of a name: `$`, or the object and `sep`. -/
def objectChunks (name : Option (List Char)) (system : Bool) (ps sep : List (Chunk t)) :
    List (Chunk t) :=
  if system && name.isSome then [.tok (.chr '$')] else ps ++ sep

mutual
/-- `unparse_expr`. -/
def Expr.chunks : Expr → List (Chunk t)
  | .prop lhs rhs =>
    objectChunks (rhs.okName u.cfg.tb) lhs.isSystemObject
        (u.bracketLt propPrec lhs.prec lhs.chunks)
        ((if lhs.isIntLiteral then [.blank] else []) ++ [.tok (.chr '.')]) ++
      nameChunks (rhs.okName u.cfg.tb) rhs.chunks
  | .verb obj verb args =>
    objectChunks (verb.okName u.cfg.tb) obj.isSystemObject
        (u.bracketLt propPrec obj.prec obj.chunks) [.tok (.chr ':')] ++
      nameChunks (verb.okName u.cfg.tb) verb.chunks ++
      .tok (.chr '(') :: args.chunks ++ [.tok (.chr ')')]
  | .index lhs rhs =>
    u.bracketLt propPrec lhs.prec lhs.chunks ++ .tok (.chr '[') :: rhs.chunks ++ [.tok (.chr ']')]
  | .range base lo hi =>
    u.bracketLt propPrec base.prec base.chunks ++ .tok (.chr '[') :: lo.chunks ++
      .tok .tTO :: hi.chunks ++ [.tok (.chr ']')]
  | .binary .exp lhs rhs =>
    u.bracketLe BinOp.exp.prec lhs.prec lhs.chunks ++ infixChunks BinOp.exp.token ++
      u.bracketLt BinOp.exp.prec rhs.prec rhs.chunks
  | .binary op lhs rhs =>
    u.bracketLt op.prec lhs.prec lhs.chunks ++ infixChunks op.token ++
      u.bracketLe op.prec rhs.prec rhs.chunks
  | .logical op lhs rhs =>
    u.bracketLt 3 lhs.prec lhs.chunks ++ infixChunks op.token ++
      u.bracketLe 3 rhs.prec rhs.chunks
  | .cond c a b =>
    u.bracketLe 2 c.prec c.chunks ++ infixChunks (.chr '?') ++ a.chunks ++
      infixChunks (.chr '|') ++ u.bracketLe 2 b.prec b.chunks
  | .unary op e => .tok op.token :: u.bracketLt 12 e.prec e.chunks
  | .var v => literalChunks v
  | .asgn lhs rhs => lhs.chunks ++ infixChunks (.chr '=') ++ rhs.chunks
  | .call func args =>
    .tok (.tID (u.nameFuncByNum func)) :: .tok (.chr '(') :: args.chunks ++ [.tok (.chr ')')]
  | .id slot => u.varChunks slot
  | .list args => .tok (.chr '{') :: args.chunks ++ [.tok (.chr '}')]
  | .scatter targets => .tok (.chr '{') :: targets.chunks ++ [.tok (.chr '}')]
  | .catchExpr body codes dflt =>
    .tok (.chr '`') :: body.chunks ++ infixChunks (.chr '!') ++
      (if codes = .nil then [.tok (.keyword .tANY)] else codes.chunks) ++
      dflt.chunks (.tARROW) ++ [.tok (.chr '\'')]
  | .length => [.tok (.chr '$')]

/-- A default behind its operator. -/
def Default.chunks : Default → Token t → List (Chunk t)
  | .none, _ => []
  | .some e, token => infixChunks token ++ e.chunks

/-- `unparse_arglist`. -/
def ArgList.chunks : ArgList → List (Chunk t)
  | .nil => []
  | .cons kind e next =>
    (if kind = .splice then [.tok (.chr '@')] else []) ++ e.chunks ++
      (if next = .nil then [] else [.tok (.chr ','), .blank]) ++ next.chunks

/-- `unparse_scatter`. -/
def Scatter.chunks : Scatter → List (Chunk t)
  | .nil => []
  | .required slot next =>
    u.varChunks slot ++ (if next = .nil then [] else [.tok (.chr ','), .blank]) ++ next.chunks
  | .rest slot next =>
    .tok (.chr '@') :: u.varChunks slot ++
      (if next = .nil then [] else [.tok (.chr ','), .blank]) ++ next.chunks
  | .optional slot dflt next =>
    .tok (.chr '?') :: u.varChunks slot ++ dflt.chunks (.chr '=') ++
      (if next = .nil then [] else [.tok (.chr ','), .blank]) ++ next.chunks
end

end

/-! ## The trees of a program

What the trees that the parser builds have in common as far as their text is concerned: each
number is a `Num`, each name one that the scanner reads, and so on. -/

/-- A name that the scanner makes a `tID` of. -/
def LexConfig.isName (cfg : LexConfig t) : List Char → Bool
  | [] => false
  | c :: s =>
    !cfg.tb.isSpace c && !cfg.tb.isDigit c && (cfg.tb.isXidStart c || c = '_') &&
      s.all cfg.isIdChar && (findKeyword (c :: s)).isNone

/-- The name of a built-in function, which is found under its number. -/
def Unparser.PrintsFunc (u : Unparser t) (func : ℕ) : Prop :=
  u.cfg.isName (u.nameFuncByNum func) = true ∧
    numberFuncByName u.funcs (u.nameFuncByNum func) = func

/-- The digits of a number, a fraction and an exponent, as `%g` prints them. -/
inductive IsFloatText : List Char → Prop
  | mk {ds fs es : List Char} : ds ≠ [] → (∀ d ∈ ds, d.isDigit = true) →
      (fs = [] ∨ ∃ ds', fs = '.' :: ds' ∧ ∀ d ∈ ds', d.isDigit = true) →
      (es = [] ∨ ∃ ds', ds' ≠ [] ∧ (∀ d ∈ ds', d.isDigit = true) ∧
        (es = 'e' :: ds' ∨ es = 'e' :: '+' :: ds' ∨ es = 'e' :: '-' :: ds')) →
      IsFloatText (ds ++ fs ++ es)

/-- What `printf` and `strtod` do with a number without sign: the last precision is enough to
read it back, no sign is read where there is none, and a fraction of zero changes nothing. -/
structure Unparser.PrintsFloat (u : Unparser t) (fnum : FlNum) : Prop where
  text : ∀ prec, IsFloatText (u.floatPrintf prec fnum)
  exact : u.cfg.fl.strtoflnum (u.floatPrintf (u.floatDigits + 4) fnum) = (some fnum, [])
  back : ∀ prec g rest, u.cfg.fl.strtoflnum (u.floatPrintf prec fnum) = (some g, rest) →
    g.neg = false ∧ rest = []
  point : ∀ s g, (∀ d ∈ s, d.isDigit = true) → u.cfg.fl.strtoflnum s = (some g, []) →
    u.cfg.fl.strtoflnum (s ++ ['.', '0']) = (some g, [])
  sign : ∀ prec, u.floatPrintf prec fnum.negate = '-' :: u.floatPrintf prec fnum
  signBack : ∀ prec, (u.cfg.fl.strtoflnum ('-' :: u.floatPrintf prec fnum)).1
    = (u.cfg.fl.strtoflnum (u.floatPrintf prec fnum)).1.map FlNum.negate

/-- The absolute value. -/
def FlNum.abs (fnum : FlNum) : FlNum := if fnum.neg then fnum.negate else fnum

def Unparser.PrintsLiteral (u : Unparser t) : Literal → Prop
  | .int num => ∃ n : Num t, n.toInt = num
  | .obj obj => ∃ n : Num t, n.toInt = obj
  | .str s => '\n' ∉ s.toList
  | .err _ => True
  | .float fnum => u.PrintsFloat fnum.abs

/-- The operators that are there with `BITWISE_OPERATORS` only. -/
def BinOp.isBitwise : BinOp → Bool
  | .bitor | .bitxor | .bitand | .shl | .shr | .lshr => true
  | _ => false

section

variable (u : Unparser t)

mutual
def Expr.IsPrinted : Expr → Prop
  | .var v => u.PrintsLiteral v
  | .id slot => u.cfg.isName (u.varName slot) = true
  | .prop lhs rhs | .index lhs rhs | .asgn lhs rhs | .logical _ lhs rhs =>
    lhs.IsPrinted ∧ rhs.IsPrinted
  | .verb obj verb args => obj.IsPrinted ∧ verb.IsPrinted ∧ args.IsPrinted
  | .range base lo hi => base.IsPrinted ∧ lo.IsPrinted ∧ hi.IsPrinted
  | .call func args => u.PrintsFunc func ∧ args.IsPrinted
  | .binary op lhs rhs =>
    (op.isBitwise = true → u.cfg.bitwise = true) ∧ lhs.IsPrinted ∧ rhs.IsPrinted
  | .unary op e => (op = .complement → u.cfg.bitwise = true) ∧ e.IsPrinted
  | .list args => args.IsPrinted
  | .cond c a b => c.IsPrinted ∧ a.IsPrinted ∧ b.IsPrinted
  | .catchExpr body codes dflt => body.IsPrinted ∧ codes.IsPrinted ∧ dflt.IsPrinted
  | .length => True
  | .scatter targets => targets.IsPrinted

def Default.IsPrinted : Default → Prop
  | .none => True
  | .some e => e.IsPrinted

def ArgList.IsPrinted : ArgList → Prop
  | .nil => True
  | .cons _ e next => e.IsPrinted ∧ next.IsPrinted

def Scatter.IsPrinted : Scatter → Prop
  | .nil => True
  | .required slot next | .rest slot next =>
    u.cfg.isName (u.varName slot) = true ∧ next.IsPrinted
  | .optional slot dflt next =>
    u.cfg.isName (u.varName slot) = true ∧ dflt.IsPrinted ∧ next.IsPrinted
end

end

/-! ### Variables -/

mutual
/-- The variables of an expression, in the order in which the parser finds them. The target of a
default comes behind it. -/
def Expr.slots : Expr → List ℕ
  | .var _ | .length => []
  | .id slot => [slot]
  | .prop lhs rhs | .index lhs rhs | .asgn lhs rhs | .binary _ lhs rhs | .logical _ lhs rhs =>
    lhs.slots ++ rhs.slots
  | .verb obj verb args => obj.slots ++ (verb.slots ++ args.slots)
  | .range base lo hi => base.slots ++ (lo.slots ++ hi.slots)
  | .call _ args | .list args => args.slots
  | .unary _ e => e.slots
  | .cond c a b => c.slots ++ (a.slots ++ b.slots)
  | .catchExpr body codes dflt => body.slots ++ (codes.slots ++ dflt.slots)
  | .scatter targets => targets.slots

def Default.slots : Default → List ℕ
  | .none => []
  | .some e => e.slots

def ArgList.slots : ArgList → List ℕ
  | .nil => []
  | .cons _ e next => e.slots ++ next.slots

def Scatter.slots : Scatter → List ℕ
  | .nil => []
  | .required slot next | .rest slot next => slot :: next.slots
  | .optional slot dflt next => dflt.slots ++ slot :: next.slots
end

/-- The names after variables with these slots, if each one gets its slot. -/
def Unparser.addNames (u : Unparser t) : List ℕ → Names → Option Names
  | [], names => some names
  | slot :: slots, names =>
    let (i, names) := findOrAddName names (u.varName slot)
    if i = slot then u.addNames slots names else none

lemma Unparser.addNames_append (u : Unparser t) (as bs : List ℕ) (names : Names) :
    u.addNames (as ++ bs) names = (u.addNames as names).bind (u.addNames bs) := by
  induction as generalizing names with
  | nil => rfl
  | cons slot as ih =>
    rw [List.cons_append, addNames, addNames]
    dsimp only
    split_ifs
    · exact ih _
    · rfl

end LambdaMOO
