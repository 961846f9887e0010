import LambdaMOO.Numbers.Parse

/-!
# The scanner

`yylex` of `parser.y` with the buffer of `lex_ungetc`, which has room for five characters. A
failure stands for an overflow of the buffer or a panic. Line numbers and the warning about
the renaming of keywords are left out.
-/

namespace LambdaMOO

open Scanner

/-- The tokens of keywords. -/
inductive KeywordToken where
  | tIF | tELSE | tELSEIF | tENDIF | tFOR | tIN | tENDFOR | tRETURN | tFORK | tENDFORK
  | tWHILE | tENDWHILE | tTRY | tENDTRY | tEXCEPT | tFINALLY | tANY | tBREAK | tCONTINUE
  deriving DecidableEq, Repr

/-- The tokens, with what `yylval` gets. `chr` is a character as a token of its own, `tCHR`
one that the grammar has no use for. -/
inductive Token (t : IntType) where
  | eof
  | malformed
  | chr (c : Char)
  | tCHR (c : Char)
  | tINTEGER (num : Num t)
  | tOBJECT (obj : Num t)
  | tFLOAT (fnum : FlNum)
  | tSTRING (s : List Char)
  | tID (s : List Char)
  | tERROR (err : ErrorCode)
  | keyword (token : KeywordToken)
  | tEQ | tNE | tLE | tGE | tOR | tAND | tTO | tARROW
  | tBITOR | tBITAND | tBITXOR | tSHL | tSHR | tLSHR
  deriving DecidableEq, Repr

/-- The characters of a token that are always the same. -/
def Token.text : Token t → Option (List Char)
  | .chr c | .tCHR c => some [c]
  | .tEQ => some ['=', '=']
  | .tNE => some ['!', '=']
  | .tLE => some ['<', '=']
  | .tGE => some ['>', '=']
  | .tOR => some ['|', '|']
  | .tAND => some ['&', '&']
  | .tTO => some ['.', '.']
  | .tARROW => some ['=', '>']
  | .tBITOR => some ['.', '|', '.']
  | .tBITAND => some ['.', '&', '.']
  | .tBITXOR => some ['.', '^', '.']
  | .tSHL => some ['<', '<']
  | .tSHR => some ['>', '>']
  | .tLSHR => some ['>', '>', '>']
  | _ => none

/-- `DBV_Exceptions`, `DBV_BreakCont` and `DBV_Float`. -/
def dbvExceptions : ℕ := 1
def dbvBreakCont : ℕ := 2
def dbvFloat : ℕ := 3

/-- `struct keyword`: the name, the version that introduced it, and its token, which is
`tERROR` for the name of an error. -/
structure Keyword where
  name : String
  version : ℕ := 0
  token : KeywordToken ⊕ ErrorCode

def Keyword.toToken (k : Keyword) : Token t :=
  match k.token with
  | .inl token => .keyword token
  | .inr err => .tERROR err

/-- `keywords.gperf`. -/
def keywords : List Keyword :=
  [{ name := "if", token := .inl .tIF },
   { name := "else", token := .inl .tELSE },
   { name := "elseif", token := .inl .tELSEIF },
   { name := "endif", token := .inl .tENDIF },
   { name := "for", token := .inl .tFOR },
   { name := "in", token := .inl .tIN },
   { name := "endfor", token := .inl .tENDFOR },
   { name := "fork", token := .inl .tFORK },
   { name := "endfork", token := .inl .tENDFORK },
   { name := "return", token := .inl .tRETURN },
   { name := "while", token := .inl .tWHILE },
   { name := "endwhile", token := .inl .tENDWHILE },
   { name := "try", version := dbvExceptions, token := .inl .tTRY },
   { name := "except", version := dbvExceptions, token := .inl .tEXCEPT },
   { name := "finally", version := dbvExceptions, token := .inl .tFINALLY },
   { name := "endtry", version := dbvExceptions, token := .inl .tENDTRY },
   { name := "ANY", version := dbvExceptions, token := .inl .tANY },
   { name := "break", version := dbvBreakCont, token := .inl .tBREAK },
   { name := "continue", version := dbvBreakCont, token := .inl .tCONTINUE },
   { name := "E_NONE", token := .inr .eNone },
   { name := "E_TYPE", token := .inr .eType },
   { name := "E_DIV", token := .inr .eDiv },
   { name := "E_PERM", token := .inr .ePerm },
   { name := "E_PROPNF", token := .inr .ePropnf },
   { name := "E_VERBNF", token := .inr .eVerbnf },
   { name := "E_VARNF", token := .inr .eVarnf },
   { name := "E_INVIND", token := .inr .eInvind },
   { name := "E_RECMOVE", token := .inr .eRecmove },
   { name := "E_MAXREC", token := .inr .eMaxrec },
   { name := "E_RANGE", token := .inr .eRange },
   { name := "E_ARGS", token := .inr .eArgs },
   { name := "E_NACC", token := .inr .eNacc },
   { name := "E_INVARG", token := .inr .eInvarg },
   { name := "E_QUOTA", token := .inr .eQuota },
   { name := "E_FLOAT", version := dbvFloat, token := .inr .eFloat }]

/-- Equality of names, which disregards the case of ASCII letters. -/
def sameName (s u : List Char) : Bool := s.map Char.toLower = u.map Char.toLower

/-- `find_keyword`. -/
def findKeyword (s : List Char) : Option Keyword := keywords.find? fun k => sameName k.name.toList s

/-- A token, and the message of `yyerror` if there is one. -/
structure Lexed (t : IntType) where
  token : Token t
  error : Option String := none
  deriving DecidableEq, Repr

/-- What the scanner depends on: the properties of characters, `BITWISE_OPERATORS`, the
version of the language, and the floats of the platform. -/
structure LexConfig (t : IntType) where
  tb : UtfCtype
  bitwise : Bool
  version : ℕ
  fl : FloatReader t

/-- `language_version >= DBV_Float`. -/
def LexConfig.floatOk (cfg : LexConfig t) : Bool := dbvFloat ≤ cfg.version

/-- `lex_getc` and `lex_ungetc`. -/
abbrev Lex := Scanner 5 Char

variable {t : IntType} (cfg : LexConfig t)

/-- `follow`. -/
def follow {τ : Type} (expect : Char) (ifyes ifno : τ) : Lex τ := do
  let c ← getItem
  if c = some expect then return ifyes
  else
    unget c
    return ifno

/-- The operator in front of a dot. -/
def bitOperator : Option Char → Option (Token t)
  | some '&' => some .tBITAND
  | some '|' => some .tBITOR
  | some '^' => some .tBITXOR
  | _ => none

/-- `checkbitwise`. -/
def checkbitwise : Lex (Option (Token t)) :=
  if cfg.bitwise then do
    let c₁ ← getItem
    if c₁ = none then
      unget c₁
      return none
    else
      let c₂ ← getItem
      if c₂ = some '.' ∧ (bitOperator c₁ : Option (Token t)) ≠ none then return bitOperator c₁
      else
        unget c₂
        unget c₁
        return none
  else pure none

/-- `checkrightshift`. -/
def checkrightshift {τ : Type} (iftwo ifone ifnone : τ) : Lex τ := do
  let c ← getItem
  if c ≠ some '>' then
    unget c
    return ifnone
  else
    let c ← getItem
    if c ≠ some '>' then
      unget c
      return ifone
    else return iftwo

/-- `normal_dot`. -/
def normalDot : Lex (Token t) := do
  match ← checkbitwise cfg with
  | some token => return token
  | none => follow '.' .tTO (.chr '.')

/-- The switch at the end. -/
def operator (c : Char) : Lex (Token t) := do
  if c = '>' then
    match ← follow '=' (some Token.tGE) none with
    | some token => return token
    | none => if cfg.bitwise then checkrightshift .tLSHR .tSHR (.chr '>') else return .chr '>'
  else if c = '<' then
    match ← follow '=' (some Token.tLE) none with
    | some token => return token
    | none => if cfg.bitwise then follow '<' .tSHL (.chr '<') else return .chr '<'
  else if c = '=' then
    match ← follow '=' (some Token.tEQ) none with
    | some token => return token
    | none => follow '>' .tARROW (.chr '=')
  else if c = '!' then follow '=' .tNE (.chr '!')
  else if c = '|' then follow '|' .tOR (.chr '|')
  else if c = '&' then follow '&' .tAND (.chr '&')
  else if c = '.' then normalDot cfg
  else if c = '~' ∧ ¬ cfg.bitwise then return .tCHR c
  else if c.toNat < 127 then return .chr c
  else return .tCHR c

/-- The blanks in front of a token, and the character behind them. -/
def skipBlanks : ℕ → Lex (Option Char)
  | 0 => failure
  | k + 1 => do
    let c ← getItem
    if c.any cfg.tb.isSpace then skipBlanks k else return c

/-- The rest of a comment; false if the input ends in it. -/
def skipComment : ℕ → Lex Bool
  | 0 => failure
  | k + 1 => do
    let c ← getItem
    if c = some '*' then
      let c ← getItem
      if c = some '/' then return true
      else if c = none then return false
      else skipComment k
    else if c = none then return false
    else skipComment k

/-- `my_is_xid_cont(c) || c == '_'`. -/
def LexConfig.isIdChar (c : Char) : Bool := cfg.tb.isXidCont c || c = '_'

/-- The characters of an identifier, behind those in `s`. -/
def identifier : ℕ → List Char → Lex (List Char)
  | 0, _ => failure
  | k + 1, s => do
    let c ← getItem
    match c with
    | some d =>
      if cfg.isIdChar d then identifier k (s ++ [d])
      else
        unget c
        return s
    | none =>
      unget c
      return s

/-- The characters of a string, behind those in `s`, and whether its end is missing. -/
def string : ℕ → List Char → Lex (List Char × Bool)
  | 0, _ => failure
  | k + 1, s => do
    let c ← getItem
    if c = some '"' then return (s, false)
    else
      let c ← (if c = some '\\' then getItem else pure c)
      match c with
      | some d => if d = '\n' then return (s, true) else string k (s ++ [d])
      | none => return (s, true)

def missingQuote : String := "Missing quote"

/-- An object number, behind the `#`. -/
def objectNumber : Lex (Lexed t) := do
  let c ← getItem
  match ← parseNumber cfg.tb cfg.bitwise cfg.fl {} true c with
  | .int num => return ⟨.tOBJECT num, none⟩
  | .err .eRange => return ⟨.malformed, some "Object number outside of allowed range"⟩
  | .err _ => return ⟨.malformed, some "Malformed object number literal"⟩
  | _ => failure

/-- The token of an identifier, which a keyword of a later version is too. -/
def LexConfig.idToken (s : List Char) : Token t :=
  match findKeyword s with
  | some k => if k.version ≤ cfg.version then k.toToken else .tID s
  | none => .tID s

/-- A number, or a dot alone. -/
def number (c : Char) : Lex (Lexed t) := do
  let flags : PnFlags := { nonneg := true, floatOk := cfg.floatOk }
  match ← parseNumber cfg.tb cfg.bitwise cfg.fl flags true (some c) with
  | .int num => return ⟨.tINTEGER num, none⟩
  | .float fnum => return ⟨.tFLOAT fnum, none⟩
  | .err .eNone =>
    let c ← getItem
    if c = some '.' then return ⟨← normalDot cfg, none⟩ else failure
  | .err .eRange => return ⟨.malformed, some "INT literal outside of allowed range"⟩
  | .err .eFloat => return ⟨.malformed, some "FLOAT literal outside of allowed range"⟩
  | .err .eInvarg => return ⟨.malformed, some "Malformed numeric literal"⟩
  | _ => failure

/-- The token that begins with `c`, which is no blank and begins no comment. -/
def tokenFrom (c : Char) : Lex (Lexed t) := do
  if c = '#' then objectNumber cfg
  else if cfg.tb.isDigit c || (c = '.' && cfg.floatOk) then number cfg c
  else if cfg.tb.isXidStart c || c = '_' then
    let s ← fueled fun k => identifier cfg k [c]
    return ⟨cfg.idToken s, none⟩
  else if c = '"' then
    let (s, missing) ← fueled fun k => string k []
    return ⟨.tSTRING s, if missing then some missingQuote else none⟩
  else return ⟨← operator cfg c, none⟩

/-- `yylex` from `start_over` on. -/
def startOver : ℕ → Lex (Lexed t)
  | 0 => failure
  | k + 1 => do
    match ← fueled (skipBlanks cfg) with
    | none => return ⟨.eof, none⟩
    | some c =>
      if c = '/' then
        let c ← getItem
        if c = some '*' then
          if ← fueled skipComment then startOver k
          else return ⟨.eof, some "End of program while in a comment"⟩
        else
          unget c
          return ⟨.chr '/', none⟩
      else tokenFrom cfg c

/-- `yylex`. -/
def yylex : Lex (Lexed t) := fueled (startOver cfg)

/-- `'-' expr` of the grammar, where the operand is a number: the sign goes into the number.
The negation wraps around. -/
def foldMinus : Token t → Option (ArithVar t)
  | .tINTEGER num => some (.int (-num))
  | .tFLOAT fnum => some (.float fnum.negate)
  | _ => none

/-- A number that may have a sign, as the grammar reads it. -/
def numericLiteral : Lex (Option (ArithVar t)) := do
  match (← yylex cfg).token with
  | .tINTEGER num => return some (.int num)
  | .tFLOAT fnum => return some (.float fnum)
  | .chr '-' => return foldMinus (← yylex cfg).token
  | _ => return none

/-- The states of the scanner between the tokens of a program. -/
inductive Lexing (cfg : LexConfig t) (input : List Char) : Source 5 Char → Prop
  | start : Lexing cfg input (Source.start input)
  | next {s s' : Source 5 Char} {l : Lexed t} : Lexing cfg input s → yylex cfg s = some (l, s') →
      Lexing cfg input s'

end LambdaMOO
