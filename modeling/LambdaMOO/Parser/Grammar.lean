import LambdaMOO.Ast
import LambdaMOO.Parser.Lexer

/-!
# Reading expressions

The rules for `expr` in `parser.y`, as the automaton that yacc makes of them. Operators whose
right operand is being read and open brackets are on a stack; the declared precedences tell
whether a token is shifted or the operators on top are reduced.
-/

namespace LambdaMOO

/-! ### Precedences -/

inductive Assoc where
  | left | right | nonassoc
  deriving DecidableEq, Repr

variable {t : IntType}

/-- The declarations of precedences, the lowest one first. -/
def Token.precedence : Token t → Option (ℕ × Assoc)
  | .chr '=' => some (1, .right)
  | .chr '?' | .chr '|' => some (2, .nonassoc)
  | .tOR | .tAND => some (3, .left)
  | .tEQ | .tNE | .chr '<' | .tLE | .chr '>' | .tGE | .keyword .tIN => some (4, .left)
  | .tBITOR => some (5, .left)
  | .tBITXOR => some (6, .left)
  | .tBITAND => some (7, .left)
  | .tSHL | .tSHR | .tLSHR => some (8, .left)
  | .chr '+' | .chr '-' => some (9, .left)
  | .chr '*' | .chr '/' | .chr '%' => some (10, .left)
  | .chr '^' => some (11, .right)
  | .chr '!' | .chr '~' => some (12, .left)
  | .chr '.' | .chr ':' | .chr '[' | .chr '$' => some (13, .nonassoc)
  | _ => none

/-- The precedence of a token, and of the rules in which it is the last one. -/
def Token.level (token : Token t) : ℕ := (token.precedence.map Prod.fst).getD 0

/-- The token of a binary operator. -/
def BinOp.token : BinOp → Token t
  | .plus => .chr '+'
  | .minus => .chr '-'
  | .times => .chr '*'
  | .divide => .chr '/'
  | .mod => .chr '%'
  | .exp => .chr '^'
  | .eq => .tEQ
  | .ne => .tNE
  | .lt => .chr '<'
  | .le => .tLE
  | .gt => .chr '>'
  | .ge => .tGE
  | .isIn => .keyword .tIN
  | .bitor => .tBITOR
  | .bitxor => .tBITXOR
  | .bitand => .tBITAND
  | .shl => .tSHL
  | .shr => .tSHR
  | .lshr => .tLSHR

def LogOp.token : LogOp → Token t
  | .and => .tAND
  | .or => .tOR

def UnOp.token : UnOp → Token t
  | .negate => .chr '-'
  | .not => .chr '!'
  | .complement => .chr '~'

/-- The binary operator of a token behind an expression. -/
def Token.binOp? : Token t → Option BinOp
  | .chr '+' => some .plus
  | .chr '-' => some .minus
  | .chr '*' => some .times
  | .chr '/' => some .divide
  | .chr '%' => some .mod
  | .chr '^' => some .exp
  | .tEQ => some .eq
  | .tNE => some .ne
  | .chr '<' => some .lt
  | .tLE => some .le
  | .chr '>' => some .gt
  | .tGE => some .ge
  | .keyword .tIN => some .isIn
  | .tBITOR => some .bitor
  | .tBITXOR => some .bitxor
  | .tBITAND => some .bitand
  | .tSHL => some .shl
  | .tSHR => some .shr
  | .tLSHR => some .lshr
  | _ => none

def Token.logOp? : Token t → Option LogOp
  | .tAND => some .and
  | .tOR => some .or
  | _ => none

/-- Whether the token goes on with the expression that it follows, if that is complete. A `|`
does not: it comes behind the second operand of a conditional, whose rule is not complete. -/
def Token.extends : Token t → Bool
  | .chr '=' | .chr '?' | .chr '.' | .chr ':' | .chr '[' => true
  | token => token.binOp?.isSome || token.logOp?.isSome

/-! ### Names -/

/-- `Names`, and the names of the built-in functions. -/
abbrev Names := List (List Char)

/-- `find_or_add_name`: the slot of the name, and the names. -/
def findOrAddName (names : Names) (s : List Char) : ℕ × Names :=
  match names.findIdx? (sameName · s) with
  | some i => (i, names)
  | none => (names.length, names ++ [s])

/-- `number_func_by_name`. -/
def numberFuncByName (funcs : Names) (s : List Char) : ℕ :=
  (funcs.findIdx? (sameName s ·)).getD maxFunc

/-! ### Actions -/

/-- The operators that wait for their right operand. -/
inductive Operator where
  | binary (op : BinOp) (lhs : Expr)
  | logical (op : LogOp) (lhs : Expr)
  | asgn (lhs : Expr)
  | scatter (targets : Scatter)
  | cond (condition consequent : Expr)
  | unary (op : UnOp)
  deriving DecidableEq, Repr

/-- The precedence of the rule. For `'-' expr` it is that of `tUNARYMINUS`. -/
def Operator.level (t : IntType) : Operator → ℕ
  | .binary op _ => (op.token : Token t).level
  | .logical op _ => (op.token : Token t).level
  | .asgn _ | .scatter _ => (.chr '=' : Token t).level
  | .cond _ _ => (.chr '|' : Token t).level
  | .unary _ => (.chr '!' : Token t).level

/-- The negation in the action for `'-' expr`. -/
def negateLiteral (t : IntType) : Literal → Option Literal
  | .int num => some (.int (-BitVec.ofInt t.bits num).toInt)
  | .float fnum => some (.float fnum.negate)
  | _ => none

def makeUnary (t : IntType) : UnOp → Expr → Expr
  | .negate, .var v =>
    match negateLiteral t v with
    | some v => .var v
    | none => .unary .negate (.var v)
  | op, e => .unary op e

/-- `scatter_from_arglist`. -/
def scatterFromArglist : ArgList → Option Scatter
  | .nil => some .nil
  | .cons .normal (.id slot) next => (scatterFromArglist next).map (.required slot)
  | .cons .splice (.id slot) next => (scatterFromArglist next).map (.rest slot)
  | .cons _ _ _ => none

/-- Whether `vet_scatter` has nothing to say. -/
def vetScatter (targets : Scatter) : Bool := targets.numRest ≤ 1 && targets.length ≤ 255

/-- The action for `expr '=' expr`, and whether there was no error. -/
def makeAsgn (lhs rhs : Expr) : Expr × Bool :=
  match lhs with
  | .list .nil => (.asgn (.scatter .nil) rhs, false)
  | .list args =>
    match scatterFromArglist args with
    | some targets => (.asgn (.scatter targets) rhs, vetScatter targets)
    | none => (.asgn (.scatter .nil) rhs, false)
  | lhs => (.asgn lhs rhs, lhs.isLvalue)

/-- The action of an operator with its right operand, and whether there was no error. -/
def Operator.action (t : IntType) : Operator → Expr → Expr × Bool
  | .binary op lhs, rhs => (.binary op lhs rhs, true)
  | .logical op lhs, rhs => (.logical op lhs rhs, true)
  | .asgn lhs, rhs => makeAsgn lhs rhs
  | .scatter targets, rhs => (.asgn (.scatter targets) rhs, vetScatter targets)
  | .cond c a, b => (.cond c a b, true)
  | .unary op, e => (makeUnary t op e, true)

/-- The action for `tID '(' arglist ')'`. -/
def makeCall (funcs : Names) (s : List Char) (args : ArgList) : Expr :=
  if numberFuncByName funcs s = maxFunc then
    .call (numberFuncByName funcs "call_function".toList)
      (.cons .normal (.var (.str (String.ofList s))) args)
  else .call (numberFuncByName funcs s) args

/-! ### The automaton -/

/-- Whose arguments a list is. -/
inductive ArgsOf where
  | list
  | call (s : List Char)
  | verb (obj verb : Expr)
  | codes (body : Expr)
  deriving DecidableEq, Repr

/-- What is open while an expression is read. -/
inductive Unclosed where
  | operator (op : Operator)
  | cond (condition : Expr)
  | group
  | propName (lhs : Expr)
  | verbName (obj : Expr)
  | index (lhs : Expr)
  | range (base lo : Expr)
  | arg (k : ArgsOf) (args : ArgList) (kind : ArgKind)
  | catchBody
  | catchDefault (body : Expr) (codes : ArgList)
  | target (targets : Scatter) (s : List Char)
  deriving DecidableEq, Repr

/-- What comes next. -/
inductive Mode where
  | operand
  | complete (e : Expr)
  | id (s : List Char)
  | dollar
  | dollarId (s : List Char)
  | dot (lhs : Expr)
  | colon (obj : Expr)
  | verb (obj : Expr) (s : List Char)
  | verbExpr (obj verb : Expr)
  | args (k : ArgsOf)
  | nextArg (k : ArgsOf) (args : ArgList)
  | codes (body : Expr)
  | anyCodes (body : Expr)
  | target (targets : Scatter)
  | restTarget (targets : Scatter)
  | optTarget (targets : Scatter)
  | optTargetId (targets : Scatter) (s : List Char)
  | targetEnd (targets : Scatter)
  | scatter (targets : Scatter)
  deriving DecidableEq, Repr

/-- The stack of the automaton, with the names and `dollars_ok`; `ok` says that there was no
call of `yyerror`. -/
structure Parser where
  stack : List Unclosed := []
  names : Names
  dollarsOk : ℕ := 0
  ok : Bool := true
  deriving DecidableEq, Repr

/-- What a token does. One that does not belong to the expression ends it. -/
inductive TokenOutcome where
  | syntaxError
  | shift (p : Parser) (m : Mode)
  | ended (p : Parser) (e : Expr)
  deriving DecidableEq, Repr

/-- The object number 0. -/
def systemObject : Expr := .var (.obj 0)

def nameLiteral (s : List Char) : Expr := .var (.str (String.ofList s))

namespace Parser

def push (p : Parser) (f : Unclosed) : TokenOutcome := .shift { p with stack := f :: p.stack } .operand

/-- `dollars_up`. -/
def dollarsUp (p : Parser) : Parser := { p with dollarsOk := p.dollarsOk + 1 }

/-- `find_id`. -/
def findId (p : Parser) (s : List Char) : ℕ × Parser :=
  ((findOrAddName p.names s).1, { p with names := (findOrAddName p.names s).2 })

/-- The first token of an operand. -/
def operand (p : Parser) : Token t → TokenOutcome
  | .tINTEGER num => .shift p (.complete (.var (.int num.toInt)))
  | .tFLOAT fnum => .shift p (.complete (.var (.float fnum)))
  | .tSTRING s => .shift p (.complete (.var (.str (String.ofList s))))
  | .tOBJECT obj => .shift p (.complete (.var (.obj obj.toInt)))
  | .tERROR err => .shift p (.complete (.var (.err err)))
  | .tID s => .shift p (.id s)
  | .chr '$' => .shift p .dollar
  | .chr '-' => p.push (.operator (.unary .negate))
  | .chr '!' => p.push (.operator (.unary .not))
  | .chr '~' => p.push (.operator (.unary .complement))
  | .chr '(' => p.push .group
  | .chr '{' => .shift p (.args .list)
  | .chr '`' => p.push .catchBody
  | _ => .syntaxError

/-- The first token of an argument. -/
def argument (p : Parser) (k : ArgsOf) (args : ArgList) (token : Token t) : TokenOutcome :=
  if token = .chr '@' then p.push (.arg k args .splice)
  else { p with stack := .arg k args .normal :: p.stack }.operand token

/-- Behind an argument, or an empty list. -/
def endArg (p : Parser) (k : ArgsOf) (funcs : Names) (args : ArgList) (token : Token t) :
    TokenOutcome :=
  match k, token with
  | k, .chr ',' => .shift p (.nextArg k args)
  | .list, .chr '}' => .shift p (.complete (.list args))
  | .call s, .chr ')' => .shift p (.complete (makeCall funcs s args))
  | .verb obj verb, .chr ')' => .shift p (.complete (.verb obj verb args))
  | .codes body, .tARROW => p.push (.catchDefault body args)
  | .codes body, .chr '\'' => .shift p (.complete (.catchExpr body args .none))
  | _, _ => .syntaxError

/-- Behind an opening bracket. -/
def firstArg (p : Parser) (k : ArgsOf) (funcs : Names) (token : Token t) : TokenOutcome :=
  if token = .chr '}' ∨ token = .chr ')' then p.endArg k funcs .nil token
  else if token = .chr '?' ∧ k = .list then .shift p (.optTarget .nil)
  else p.argument k .nil token

/-- Behind a comma. A `?` shows that the arguments so far are targets. -/
def nextArg (p : Parser) (k : ArgsOf) (args : ArgList) (token : Token t) : TokenOutcome :=
  if token = .chr '?' ∧ k = .list then
    match scatterFromArglist args with
    | some targets => .shift p (.optTarget targets)
    | none => .shift { p with ok := false } (.optTarget .nil)
  else p.argument k args token

/-- Behind a target of a scattering assignment. -/
def endTarget (p : Parser) (targets : Scatter) : Token t → TokenOutcome
  | .chr ',' => .shift p (.target targets)
  | .chr '}' => .shift p (.scatter targets)
  | _ => .syntaxError

def target (p : Parser) (targets : Scatter) : Token t → TokenOutcome
  | .tID s =>
    let (slot, p) := p.findId s
    .shift p (.targetEnd (targets.append (.required slot .nil)))
  | .chr '@' => .shift p (.restTarget targets)
  | .chr '?' => .shift p (.optTarget targets)
  | _ => .syntaxError

/-- Behind an expression that no operator goes on with. -/
def close (p : Parser) (funcs : Names) (e : Expr) (token : Token t) : TokenOutcome :=
  match p.stack with
  | [] => .ended p e
  | f :: stack =>
    let p := { p with stack }
    match f, token with
    | .cond c, .chr '|' => p.push (.operator (.cond c e))
    | .group, .chr ')' => .shift p (.complete e)
    | .propName lhs, .chr ')' => .shift p (.complete (.prop lhs e))
    | .verbName obj, .chr ')' => .shift p (.verbExpr obj e)
    | .index lhs, .tTO => p.push (.range lhs e)
    | .index lhs, .chr ']' =>
      .shift { p with dollarsOk := p.dollarsOk - 1 } (.complete (.index lhs e))
    | .range base lo, .chr ']' =>
      .shift { p with dollarsOk := p.dollarsOk - 1 } (.complete (.range base lo e))
    | .arg k args kind, token => p.endArg k funcs (args.snoc kind e) token
    | .catchBody, .chr '!' => .shift p (.codes e)
    | .catchDefault body codes, .chr '\'' =>
      .shift p (.complete (.catchExpr body codes (.some e)))
    | .target targets s, token =>
      let (slot, p) := p.findId s
      p.endTarget (targets.append (.optional slot (.some e) .nil)) token
    | _, _ => .syntaxError

/-- Behind an expression, where no reduction is left. -/
def follow (p : Parser) (funcs : Names) (e : Expr) (token : Token t) : TokenOutcome :=
  match token with
  | .chr '=' => p.push (.operator (.asgn e))
  | .chr '?' => p.push (.cond e)
  | .chr '.' => .shift p (.dot e)
  | .chr ':' => .shift p (.colon e)
  | .chr '[' => p.dollarsUp.push (.index e)
  | token =>
    match token.binOp?, token.logOp? with
    | some op, _ => p.push (.operator (.binary op e))
    | none, some op => p.push (.operator (.logical op e))
    | none, none => p.close funcs e token

end Parser

/-- What yacc does where a rule of this precedence is complete: true stands for a reduction,
false for a shift and none for an error. -/
def Token.reduces (token : Token t) (rule : ℕ) : Option Bool :=
  if token.extends then
    match token.precedence with
    | some (level, assoc) =>
      if level < rule then some true
      else if rule < level then some false
      else
        match assoc with
        | .left => some true
        | .right => some false
        | .nonassoc => none
    | none => some true
  else some true

/-- The reductions in front of a token. -/
def reduceFor (token : Token t) : List Unclosed → Expr → Bool → Option (List Unclosed × Expr × Bool)
  | .operator op :: stack, e, ok =>
    match token.reduces (op.level t) with
    | some true => reduceFor token stack (op.action t e).1 (ok && (op.action t e).2)
    | some false => some (.operator op :: stack, e, ok)
    | none => none
  | stack, e, ok => some (stack, e, ok)

namespace Parser

/-- Behind a complete expression. -/
def complete (p : Parser) (funcs : Names) (e : Expr) (token : Token t) : TokenOutcome :=
  match reduceFor token p.stack e p.ok with
  | some (stack, e, ok) => { p with stack, ok }.follow funcs e token
  | none => .syntaxError

def advance (p : Parser) (funcs : Names) (m : Mode) (token : Token t) : TokenOutcome :=
  match m, token with
  | .operand, token => p.operand token
  | .complete e, token => p.complete funcs e token
  | .id s, .chr '(' => .shift p (.args (.call s))
  | .id s, token =>
    let (slot, p) := p.findId s
    p.complete funcs (.id slot) token
  | .dollar, .tID s => .shift p (.dollarId s)
  | .dollar, token =>
    -- "Illegal context for `$' expression."
    { p with ok := p.ok && 0 < p.dollarsOk }.complete funcs .length token
  | .dollarId s, .chr '(' => .shift p (.args (.verb systemObject (nameLiteral s)))
  | .dollarId s, token => p.complete funcs (.prop systemObject (nameLiteral s)) token
  | .dot lhs, .tID s => .shift p (.complete (.prop lhs (nameLiteral s)))
  | .dot lhs, .chr '(' => p.push (.propName lhs)
  | .colon obj, .tID s => .shift p (.verb obj s)
  | .colon obj, .chr '(' => p.push (.verbName obj)
  | .verb obj s, .chr '(' => .shift p (.args (.verb obj (nameLiteral s)))
  | .verbExpr obj verb, .chr '(' => .shift p (.args (.verb obj verb))
  | .args k, token => p.firstArg k funcs token
  | .nextArg k args, token => p.nextArg k args token
  | .codes body, .keyword .tANY => .shift p (.anyCodes body)
  | .codes body, token => p.argument (.codes body) .nil token
  | .anyCodes body, .tARROW => p.push (.catchDefault body .nil)
  | .anyCodes body, .chr '\'' => .shift p (.complete (.catchExpr body .nil .none))
  | .target targets, token => p.target targets token
  | .restTarget targets, .tID s =>
    let (slot, p) := p.findId s
    .shift p (.targetEnd (targets.append (.rest slot .nil)))
  | .optTarget targets, .tID s => .shift p (.optTargetId targets s)
  | .optTargetId targets s, .chr '=' => p.push (.target targets s)
  | .optTargetId targets s, token =>
    let (slot, p) := p.findId s
    p.endTarget (targets.append (.optional slot .none .nil)) token
  | .targetEnd targets, token => p.endTarget targets token
  | .scatter targets, .chr '=' => p.push (.operator (.scatter targets))
  | _, _ => .syntaxError

end Parser

/-- An expression: the automaton behind it, the expression, and the tokens that follow it. -/
def readExpr (funcs : Names) (p : Parser) (m : Mode) :
    List (Token t) → Option (Parser × Expr × List (Token t))
  | [] => none
  | token :: tokens =>
    match p.advance funcs m token with
    | .syntaxError => none
    | .shift p m => readExpr funcs p m tokens
    | .ended p e => some (p, e, token :: tokens)

/-- A program that is one expression statement. -/
def parseTokens (funcs names : Names) (tokens : List (Token t)) : Option Expr :=
  match readExpr funcs { names } .operand tokens with
  | some (p, e, [.chr ';']) => if p.ok then some e else none
  | _ => none

end LambdaMOO
