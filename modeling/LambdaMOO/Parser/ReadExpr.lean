import LambdaMOO.Parser.Reread

/-!
# Reading what was printed

The automaton shifts all tokens of a printed expression, and does with the token behind it what
it does behind the tree that is read.
-/

namespace LambdaMOO

variable {t : IntType} {funcs : Names} {p q r : Parser} {m m₁ m₂ : Mode}
  {tokens tokens' : List (Token t)} {token : Token t}

/-- All the tokens are shifted. -/
inductive ShiftsAll (funcs : Names) : Parser → Mode → List (Token t) → Parser → Mode → Prop
  | nil {p : Parser} {m : Mode} : ShiftsAll funcs p m [] p m
  | cons {p q r : Parser} {m m₁ m₂ : Mode} {token : Token t} {tokens : List (Token t)} :
      p.advance funcs m token = .shift q m₁ → ShiftsAll funcs q m₁ tokens r m₂ →
      ShiftsAll funcs p m (token :: tokens) r m₂

namespace ShiftsAll

lemma append (h : ShiftsAll funcs p m tokens q m₁) (h' : ShiftsAll funcs q m₁ tokens' r m₂) :
    ShiftsAll funcs p m (tokens ++ tokens') r m₂ := by
  induction h with
  | nil => exact h'
  | cons ha _ ih => exact .cons ha (ih h')

lemma snoc (h : ShiftsAll funcs p m tokens q m₁) (token : Token t)
    (ha : q.advance funcs m₁ token = .shift r m₂) :
    ShiftsAll funcs p m (tokens ++ [token]) r m₂ :=
  h.append (.cons ha .nil)

lemma readExpr (h : ShiftsAll funcs p m tokens q m₁) (rest : List (Token t)) :
    readExpr funcs p m (tokens ++ rest) = readExpr funcs q m₁ rest := by
  induction h with
  | nil => rfl
  | cons ha _ ih =>
    rw [List.cons_append, LambdaMOO.readExpr, ha]
    exact ih

end ShiftsAll

/-- Behind the tokens, the automaton does with a token that satisfies `Q` what `q` does behind
`e`. -/
def Completes (funcs : Names) (p : Parser) (m : Mode) (tokens : List (Token t))
    (Q : Token t → Prop) (q : Parser) (e : Expr) : Prop :=
  ∃ p' m', ShiftsAll funcs p m tokens p' m' ∧
    ∀ token, Q token → p'.advance funcs m' token = q.complete funcs e token

namespace Completes

variable {Q Q' : Token t → Prop} {e : Expr}

lemma of_shifts (h : ShiftsAll funcs p m tokens q (.complete e)) :
    Completes funcs p m tokens Q q e :=
  ⟨q, .complete e, h, fun _ _ => rfl⟩

lemma mono (h : Completes funcs p m tokens Q q e) (hQ : ∀ token, Q' token → Q token) :
    Completes funcs p m tokens Q' q e := by
  obtain ⟨p', m', hs, ha⟩ := h
  exact ⟨p', m', hs, fun token htoken => ha token (hQ token htoken)⟩

/-- One more token. -/
lemma shift (h : Completes funcs p m tokens Q q e) (htoken : Q token)
    (hc : q.complete funcs e token = .shift r m₁) : ShiftsAll funcs p m (tokens ++ [token]) r m₁ := by
  obtain ⟨p', m', hs, ha⟩ := h
  exact hs.snoc token ((ha token htoken).trans hc)

lemma after (hs : ShiftsAll funcs p m tokens q m₁)
    (h : Completes funcs q m₁ tokens' Q r e) : Completes funcs p m (tokens ++ tokens') Q r e := by
  obtain ⟨p', m', hs', ha⟩ := h
  exact ⟨p', m', hs.append hs', ha⟩

lemma congr (h : Completes funcs p m tokens Q q e) {r : Parser} {e' : Expr}
    (hc : ∀ token, Q token → q.complete funcs e token = r.complete funcs e' token) :
    Completes funcs p m tokens Q r e' := by
  obtain ⟨p', m', hs, ha⟩ := h
  exact ⟨p', m', hs, fun token htoken => (ha token htoken).trans (hc token htoken)⟩

end Completes

/-! ### Precedences -/

lemma BinOp.level_token (op : BinOp) : (op.token : Token t).level = op.prec := by
  cases op <;> rfl

lemma LogOp.level_token (op : LogOp) : (op.token : Token t).level = 3 := by
  cases op <;> rfl

@[simp] lemma BinOp.extends_token (op : BinOp) : (op.token : Token t).extends = true := by
  cases op <;> rfl

@[simp] lemma LogOp.extends_token (op : LogOp) : (op.token : Token t).extends = true := by
  cases op <;> rfl

@[simp] lemma Operator.level_asgn (lhs : Expr) : (asgn lhs).level t = 1 := rfl

@[simp] lemma Operator.level_scatter (targets : Scatter) : (scatter targets).level t = 1 := rfl

@[simp] lemma Operator.level_cond (c a : Expr) : (cond c a).level t = 2 := rfl

@[simp] lemma Operator.level_unary (op : UnOp) : (unary op).level t = 12 := rfl

@[simp] lemma Operator.level_binary (op : BinOp) (lhs : Expr) :
    (binary op lhs).level t = op.prec :=
  op.level_token

@[simp] lemma Operator.level_logical (op : LogOp) (lhs : Expr) : (logical op lhs).level t = 3 :=
  op.level_token

lemma BinOp.prec_bounds (op : BinOp) : 4 ≤ op.prec ∧ op.prec ≤ 11 := by
  cases op <;> decide

/-- Every operator has a precedence below that of the tokens behind a base. -/
lemma Operator.level_lt (op : Operator) : op.level t < 13 := by
  cases op with
  | binary op _ =>
    rw [level_binary]
    have hbounds := op.prec_bounds
    omega
  | _ => simp

lemma Token.eq_of_binOp? {op : BinOp} (h : token.binOp? = some op) : token = op.token := by
  unfold binOp? at h
  split at h
  all_goals cases h
  all_goals rfl

lemma Token.eq_of_logOp? {op : LogOp} (h : token.logOp? = some op) : token = op.token := by
  unfold logOp? at h
  split at h
  all_goals cases h
  all_goals rfl

/-- The tokens that go on with an expression. -/
inductive Token.Extends : Token t → Prop
  | asgn : Extends (.chr '=')
  | cond : Extends (.chr '?')
  | dot : Extends (.chr '.')
  | colon : Extends (.chr ':')
  | bracket : Extends (.chr '[')
  | binary (op : BinOp) : Extends op.token
  | logical (op : LogOp) : Extends op.token

lemma Token.Extends.of_extends (h : token.extends = true) : token.Extends := by
  unfold Token.extends at h
  split at h
  · exact .asgn
  · exact .cond
  · exact .dot
  · exact .colon
  · exact .bracket
  · rw [Bool.or_eq_true, Option.isSome_iff_exists, Option.isSome_iff_exists] at h
    obtain ⟨op, hop⟩ | ⟨op, hop⟩ := h
    · exact eq_of_binOp? hop ▸ .binary op
    · exact eq_of_logOp? hop ▸ .logical op

/-- The first and the eleventh precedence are the right associative ones. -/
lemma Token.reduces_eq (h : token.extends = true) (rule : ℕ) :
    token.reduces rule =
      if token.level < rule then some true
      else if rule < token.level then some false
      else if token.level = 1 ∨ token.level = 11 then some false
      else if token.level = 2 ∨ token.level = 13 then none
      else some true := by
  rw [Token.reduces, if_pos h]
  cases Token.Extends.of_extends h with
  | binary op => cases op <;> rfl
  | logical op => cases op <;> rfl
  | _ => rfl

/-- What may stand behind an expression: no parenthesis, which would make a name that of a
function, and no name. -/
def Token.Follows (token : Token t) : Prop := token ≠ .chr '(' ∧ ∀ s, token ≠ .tID s

/-- What ends an expression of this precedence. -/
def Token.Ends (n : ℕ) (token : Token t) : Prop := token.Follows ∧ token.reduces n = some true

lemma Token.Ends.mono {n k : ℕ} (h : token.Ends n) (hle : n ≤ k) : token.Ends k := by
  refine ⟨h.1, ?_⟩
  have hn := h.2
  by_cases hext : token.extends = true
  · rw [reduces_eq hext] at hn ⊢
    split_ifs at hn ⊢ <;> first | rfl | omega | cases hn
  · rw [reduces, if_neg hext]

lemma Token.Ends.of_not_extends (h : token.extends = false) (hf : token.Follows) (n : ℕ) :
    token.Ends n :=
  ⟨hf, by rw [reduces, if_neg (by simp [h])]⟩

/-! ### The stack -/

/-- The operators on top are not reduced in front of those from precedence `n` on. -/
def Admits (t : IntType) (stack : List Unclosed) (n : ℕ) : Prop :=
  ∀ token : Token t, token.extends = true → n ≤ token.level →
    ∀ e ok, reduceFor token stack e ok = some (stack, e, ok)

def Unclosed.IsOperator : Unclosed → Prop
  | .operator _ => True
  | _ => False

lemma reduceFor_unclosed {f : Unclosed} (hf : ¬ f.IsOperator) (stack : List Unclosed) (e : Expr)
    (ok : Bool) : reduceFor token (f :: stack) e ok = some (f :: stack, e, ok) := by
  cases f with
  | operator op => exact absurd trivial hf
  | _ => rfl

lemma reduceFor_operator {op : Operator} (h : token.reduces (op.level t) = some false)
    (stack : List Unclosed) (e : Expr) (ok : Bool) :
    reduceFor token (.operator op :: stack) e ok = some (.operator op :: stack, e, ok) := by
  rw [reduceFor, h]

namespace Admits

variable {stack : List Unclosed} {n k : ℕ} {op : Operator}

lemma nil : Admits t [] n := fun _ _ _ _ _ => rfl

lemma unclosed {f : Unclosed} (hf : ¬ f.IsOperator) : Admits t (f :: stack) n :=
  fun _ _ _ e ok => reduceFor_unclosed hf stack e ok

lemma mono (h : Admits t stack n) (hle : n ≤ k) : Admits t stack k :=
  fun token hext hk => h token hext (hle.trans hk)

lemma of_lt (h : op.level t < n) : Admits t (.operator op :: stack) n := by
  intro token hext hn e ok
  apply reduceFor_operator
  rw [Token.reduces_eq hext, if_neg (by omega), if_pos (by omega)]

/-- A right associative operator has one of its own precedence on its right. -/
lemma of_right (h : op.level t = n) (hright : n = 1 ∨ n = 11) :
    Admits t (.operator op :: stack) n := by
  intro token hext hn e ok
  apply reduceFor_operator
  rw [Token.reduces_eq hext, if_neg (by omega)]
  split_ifs
  · rfl
  · rfl
  · omega
  · omega

/-- So do prefix operators, since no other ones have their precedence. -/
lemma of_unary {op : UnOp} : Admits t (.operator (.unary op) :: stack) 12 := by
  intro token hext hn e ok
  apply reduceFor_operator
  have hne : token.level ≠ 12 := by
    cases Token.Extends.of_extends hext with
    | binary op =>
      rw [op.level_token]
      have hbounds := op.prec_bounds
      omega
    | logical op => simp [op.level_token]
    | _ => exact fun hlevel => by cases hlevel
  rw [Token.reduces_eq hext, Operator.level_unary, if_neg (by omega), if_pos (by omega)]

/-- No operator keeps back the tokens behind a base. -/
lemma base : Admits t stack 13 := by
  match stack with
  | [] => exact nil
  | .operator op :: stack => exact of_lt op.level_lt
  | .cond _ :: _ | .group :: _ | .propName _ :: _ | .verbName _ :: _ | .index _ :: _
  | .range _ _ :: _ | .arg _ _ _ :: _ | .catchBody :: _ | .catchDefault _ _ :: _
  | .target _ _ :: _ => exact unclosed id

end Admits

namespace Parser

/-- What an operator token does behind a tree that it does not reduce. -/
lemma complete_of_admits {n : ℕ} {e : Expr} (h : Admits t p.stack n)
    (hext : token.extends = true) (hn : n ≤ token.level) :
    p.complete funcs e token = p.follow funcs e token := by
  rw [complete, h token hext hn e p.ok]

lemma complete_unclosed {f : Unclosed} {stack : List Unclosed} {e : Expr} (hf : ¬ f.IsOperator)
    (hp : p.stack = f :: stack) : p.complete funcs e token = p.follow funcs e token := by
  rw [complete, hp, reduceFor_unclosed hf, ← hp]

/-- A token that ends the right operand reduces the operator. -/
lemma complete_operator (funcs : Names) (op : Operator) {e : Expr}
    (h : token.reduces (op.level t) = some true) :
    { p with stack := .operator op :: p.stack }.complete funcs e token
      = { p with ok := p.ok && (op.action t e).2 }.complete funcs (op.action t e).1 token := by
  rw [complete, reduceFor, h]
  rfl

lemma follow_binary (op : BinOp) (e : Expr) :
    p.follow funcs e (op.token : Token t) = p.push (.operator (.binary op e)) := by
  cases op <;> rfl

lemma follow_logical (op : LogOp) (e : Expr) :
    p.follow funcs e (op.token : Token t) = p.push (.operator (.logical op e)) := by
  cases op <;> rfl

end Parser

/-! ### Tokens of chunks -/

section

variable {ps ps' : List (Chunk t)}

@[simp] lemma tokensOf_nil : tokensOf ([] : List (Chunk t)) = [] := rfl

@[simp] lemma tokensOf_tok : tokensOf (.tok token :: ps) = token :: tokensOf ps := rfl

@[simp] lemma tokensOf_blank : tokensOf (.blank :: ps) = tokensOf ps := rfl

@[simp] lemma tokensOf_append : tokensOf (ps ++ ps') = tokensOf ps ++ tokensOf ps' :=
  List.filterMap_append ..

@[simp] lemma tokensOf_infixChunks : tokensOf (infixChunks token) = [token] := rfl

end

/-! ### Expressions -/

/-- A sign that was shifted. -/
def signUnclosed (minus : Bool) : List Unclosed :=
  if minus then [.operator (.unary .negate)] else []

/-- Behind a sign. -/
def Parser.signed (p : Parser) (minus : Bool) : Parser :=
  { p with stack := signUnclosed minus ++ p.stack }

@[simp] lemma Parser.signed_false : p.signed false = p := rfl

/-- Whether `dollars_ok`. -/
def Parser.dollars (p : Parser) : Bool := 0 < p.dollarsOk

/-- The parser can build the expression behind `p`, whose names it makes `names`. -/
structure Expr.Fits (u : Unparser t) (p : Parser) (names : Names) (e : Expr) : Prop where
  built : e.isBuilt p.dollars = true
  slots : u.addNames e.slots p.names = some names

/-- The automaton behind an expression. -/
def Parser.behind (p : Parser) (names : Names) (built : Bool) : Parser :=
  { p with names, ok := p.ok && built }

/-- The tokens of an expression are read, up to a token that ends it. A base may go on, so that
a sign in front of it is still on the stack. -/
structure Expr.ReadsBack (u : Unparser t) (e : Expr) : Prop where
  chain {p : Parser} {names : Names} : 13 ≤ e.prec → e.Fits u p names →
    Completes u.funcs p .operand (tokensOf (e.chunks u)) Token.Follows
      ((p.signed e.minus).behind names
        ((e.core t).isBuilt p.dollars)) (e.core t)
  all {p : Parser} {names : Names} {n : ℕ} : n ≤ e.prec → n ≤ 12 → e.Fits u p names →
    Admits t p.stack n →
    Completes u.funcs p .operand (tokensOf (e.chunks u)) (Token.Ends n)
      (p.behind names ((e.core t).isBuilt p.dollars)) (e.reread t)

@[simp] lemma Parser.behind_self : p.behind p.names true = p := by
  simp only [behind, Bool.and_true]

@[simp] lemma Parser.behind_behind (names names' : Names) (b b' : Bool) :
    (p.behind names b).behind names' b' = p.behind names' (b && b') := by
  simp only [behind, Bool.and_assoc]

/-- Inside something that is open. -/
def Parser.inside (p : Parser) (f : Unclosed) : Parser := { p with stack := f :: p.stack }

@[simp] lemma Parser.inside_dollars (f : Unclosed) : (p.inside f).dollars = p.dollars := rfl

@[simp] lemma Parser.signed_dollars (minus : Bool) : (p.signed minus).dollars = p.dollars := rfl

@[simp] lemma Parser.dollarsUp_dollars : p.dollarsUp.dollars = true := by
  simp [Parser.dollarsUp, Parser.dollars]

@[simp] lemma Parser.behind_dollars (names : Names) (built : Bool) :
    (p.behind names built).dollars = p.dollars :=
  rfl

namespace Expr.ReadsBack

variable {u : Unparser t} {e lhs rhs : Expr}

/-- An expression whose sign is reduced by what ends it. -/
lemma of_chain (h : ∀ (p : Parser) (names : Names), e.Fits u p names →
      Completes u.funcs p .operand (tokensOf (e.chunks u)) Token.Follows
        ((p.signed e.minus).behind names
          ((e.core t).isBuilt p.dollars)) (e.core t)) : e.ReadsBack u := by
  refine ⟨fun _ => h _ _, ?_⟩
  intro p names n _ hn hfits _
  apply ((h p names hfits).mono fun token htoken => htoken.1).congr
  intro token htoken
  cases hminus : e.minus with
  | false =>
    rw [Expr.reread, hminus]
    rfl
  | true =>
    have hred := (Token.Ends.mono htoken hn).2
    rw [Expr.reread, hminus]
    refine (Parser.complete_operator _ (p := p.behind names _) (.unary .negate) hred).trans ?_
    rw [Operator.action, Bool.and_true]
    rfl

/-- A tree of one token. -/
lemma of_token (token : Token t) (htokens : tokensOf (e.chunks u) = [token])
    (hminus : e.minus = false) (hslots : e.slots = [])
    (hbuilt : ∀ dollars, (e.core t).isBuilt dollars = true)
    (h : ∀ p : Parser, p.operand token = .shift p (.complete (e.core t))) : e.ReadsBack u := by
  refine of_chain fun p names hfits => ?_
  have hnames : p.names = names := by
    have hadd := hfits.slots
    rw [hslots] at hadd
    exact Option.some.inj hadd
  rw [htokens, hminus, hbuilt, ← hnames, Parser.behind, Bool.and_true]
  exact .of_shifts (.cons (h p) .nil)

lemma var (v : Literal) : (Expr.var v).ReadsBack u := by
  by_cases hneg : v.isNegative = true
  · refine of_chain fun p names hfits => ?_
    have hnames : p.names = names := Option.some.inj hfits.slots
    cases v with
    | int num =>
      have hlt : num < 0 := by simpa [Literal.isNegative] using hneg
      simp only [chunks, literalChunks, if_pos hlt, core, Literal.core, minus, hneg, isBuilt,
        Parser.behind, Bool.and_true, ← hnames]
      exact .of_shifts (.cons rfl (.cons rfl .nil))
    | float fnum =>
      have hlt : fnum.neg = true := hneg
      simp only [chunks, literalChunks, if_pos hlt, core, Literal.core, minus, hneg, isBuilt,
        Parser.behind, Bool.and_true, ← hnames]
      exact .of_shifts (.cons rfl (.cons rfl .nil))
    | _ => simp [Literal.isNegative] at hneg
  · have hminus : (Expr.var v).minus = false := by simpa [minus] using hneg
    cases v with
    | int num =>
      have hlt : ¬ num < 0 := by simpa [Literal.isNegative] using hneg
      refine of_token (.tINTEGER (BitVec.ofInt t.bits num)) ?_ hminus rfl
        (fun _ => rfl) fun p => ?_
      · rw [chunks, literalChunks, if_neg hlt]
        rfl
      · rw [core, Literal.core, if_neg hlt]
        rfl
    | float fnum =>
      have hlt : ¬ fnum.neg = true := hneg
      refine of_token (.tFLOAT fnum) ?_ hminus rfl (fun _ => rfl) fun p => ?_
      · rw [chunks, literalChunks, if_neg hlt]
        rfl
      · rw [core, Literal.core, if_neg hlt]
        rfl
    | obj num =>
      exact of_token (.tOBJECT (BitVec.ofInt t.bits num)) rfl hminus rfl
        (fun _ => rfl) fun p => rfl
    | err err =>
      exact of_token (.tERROR err) rfl hminus rfl (fun _ => rfl)
        fun p => rfl
    | str s =>
      refine of_token (.tSTRING s.toList) rfl hminus rfl (fun _ => rfl)
        fun p => ?_
      simp [core, Literal.core, Parser.operand]

end Expr.ReadsBack

/-- What a token does behind a name, unless that is the name of a function. -/
lemma Parser.advance_id (h : token.Follows) (s : List Char) :
    p.advance funcs (.id s) token = (p.findId s).2.complete funcs (.id (p.findId s).1) token := by
  cases token with
  | chr c =>
    by_cases hc : c = '('
    · exact absurd (congrArg Token.chr hc) h.1
    · simp [advance, hc]
  | _ => rfl

lemma Parser.advance_dollar (h : token.Follows) :
    p.advance funcs .dollar token
      = { p with ok := p.ok && p.dollars }.complete funcs .length token := by
  cases token with
  | tID s => exact absurd rfl (h.2 s)
  | _ => rfl

lemma Parser.advance_dollarId (h : token.Follows) (s : List Char) :
    p.advance funcs (.dollarId s) token
      = p.complete funcs (.prop systemObject (nameLiteral s)) token := by
  cases token with
  | chr c =>
    by_cases hc : c = '('
    · exact absurd (congrArg Token.chr hc) h.1
    · simp [advance, hc]
  | _ => rfl

namespace Expr.ReadsBack

variable {u : Unparser t} {e lhs rhs : Expr}

lemma id (slot : ℕ) : (Expr.id slot).ReadsBack u := by
  refine of_chain fun p names hfits => ⟨p, .id (u.varName slot), .cons rfl .nil, ?_⟩
  intro token htoken
  rw [Parser.advance_id htoken]
  have hadd := hfits.slots
  rw [slots, Unparser.addNames] at hadd
  dsimp only at hadd
  split_ifs at hadd with hslot
  obtain rfl := Option.some.inj hadd
  simp only [Parser.findId, hslot, core, isBuilt, Parser.behind, Bool.and_true]
  rfl

lemma length : Expr.length.ReadsBack u := by
  refine of_chain fun p names hfits => ⟨p, .dollar, .cons rfl .nil, ?_⟩
  intro token htoken
  obtain rfl : p.names = names := Option.some.inj hfits.slots
  rw [Parser.advance_dollar htoken]
  rfl

end Expr.ReadsBack

/-! ### Operands -/

lemma Parser.behind_complete_group {e : Expr} {names : Names} {b : Bool} :
    ((p.inside .group).behind names b).complete funcs e (.chr ')' : Token t)
      = .shift (p.behind names b) (.complete e) :=
  complete_unclosed (f := .group) not_false rfl

lemma Expr.minus_of_prec_lt {e : Expr} (h : e.prec < 13) : e.minus = false := by
  cases e with
  | var v => simp [prec] at h
  | prop _ _ | verb _ _ _ | index _ _ | range _ _ _ => simp [prec] at h
  | _ => rfl

namespace Expr.ReadsBack

variable {u : Unparser t} {e lhs rhs : Expr} {names : Names}

/-- In parentheses. -/
lemma group (h : e.ReadsBack u) (hfits : e.Fits u p names) :
    ShiftsAll u.funcs p .operand (tokensOf (bracket true (e.chunks u)))
      (p.behind names ((e.core t).isBuilt p.dollars)) (.complete (e.reread t)) := by
  have hall := h.all (p := p.inside .group) (Nat.zero_le _) (Nat.zero_le _)
    ⟨hfits.built, hfits.slots⟩ (.unclosed (f := .group) not_false)
  have hs := hall.shift ⟨⟨by simp, by simp⟩, rfl⟩ Parser.behind_complete_group
  simpa [bracket] using ShiftsAll.cons rfl hs

/-- As an operand that has parentheses unless its precedence is at least `n`. -/
lemma operand (h : e.ReadsBack u) (hfits : e.Fits u p names) {b : Bool} {n : ℕ}
    (hb : b = false → n ≤ e.prec) (hn : n ≤ 12) (hp : Admits t p.stack n) :
    Completes u.funcs p .operand (tokensOf (bracket b (e.chunks u))) (Token.Ends n)
      (p.behind names ((e.core t).isBuilt p.dollars)) (e.reread t) := by
  cases b with
  | false => exact h.all (hb rfl) hn hfits hp
  | true => exact .of_shifts (h.group hfits)

lemma operand_lt (h : e.ReadsBack u) (hfits : e.Fits u p names) {n : ℕ} (hn : n ≤ 12)
    (hp : Admits t p.stack n) :
    Completes u.funcs p .operand (tokensOf (u.bracketLt n e.prec (e.chunks u))) (Token.Ends n)
      (p.behind names ((e.core t).isBuilt p.dollars)) (e.reread t) := by
  refine h.operand hfits (fun hb => ?_) hn hp
  rw [Bool.or_eq_false_iff, decide_eq_false_iff_not] at hb
  exact Nat.le_of_not_lt hb.2

lemma operand_le (h : e.ReadsBack u) (hfits : e.Fits u p names) {n : ℕ} (hn : n + 1 ≤ 12)
    (hp : Admits t p.stack (n + 1)) :
    Completes u.funcs p .operand (tokensOf (u.bracketLe n e.prec (e.chunks u)))
      (Token.Ends (n + 1)) (p.behind names ((e.core t).isBuilt p.dollars)) (e.reread t) := by
  refine h.operand hfits (fun hb => ?_) hn hp
  rw [Bool.or_eq_false_iff, decide_eq_false_iff_not] at hb
  exact Nat.lt_of_not_le hb.2

/-- As a base. -/
lemma base (h : e.ReadsBack u) (hfits : e.Fits u p names) :
    Completes u.funcs p .operand (tokensOf (u.bracketLt propPrec e.prec (e.chunks u)))
      Token.Follows ((p.signed e.minus).behind names
        ((e.core t).isBuilt p.dollars)) (e.core t) := by
  by_cases hprec : e.prec < 13
  · have hb : (u.fullyParenthesize && decide (e.prec < propPrec) || decide (e.prec < propPrec))
        = true := by simp [propPrec, hprec]
    have hs := h.group hfits
    rw [reread, minus_of_prec_lt hprec] at hs
    rw [Unparser.bracketLt, hb, minus_of_prec_lt hprec]
    exact .of_shifts hs
  · have hb : (u.fullyParenthesize && decide (e.prec < propPrec) || decide (e.prec < propPrec))
        = false := by simp [propPrec, hprec]
    rw [Unparser.bracketLt, hb]
    exact h.chain (Nat.le_of_not_lt hprec) hfits

end Expr.ReadsBack

/-! ### Operators -/

/-- The lowest precedence without parentheses on the left of an operator, and on its right. -/
def BinOp.leftPrec (op : BinOp) : ℕ := if op = .exp then op.prec + 1 else op.prec
def BinOp.rightPrec (op : BinOp) : ℕ := if op = .exp then op.prec else op.prec + 1

lemma BinOp.prec_le_leftPrec (op : BinOp) : op.prec ≤ op.leftPrec := by
  rw [leftPrec]
  split_ifs <;> omega

lemma BinOp.prec_le_rightPrec (op : BinOp) : op.prec ≤ op.rightPrec := by
  rw [rightPrec]
  split_ifs <;> omega

lemma BinOp.leftPrec_le (op : BinOp) : op.leftPrec ≤ 12 := by
  cases op <;> decide

lemma BinOp.rightPrec_le (op : BinOp) : op.rightPrec ≤ 12 := by
  cases op <;> decide

lemma BinOp.follows_token (op : BinOp) : (op.token : Token t).Follows := by
  cases op <;> exact ⟨by simp [token], by simp [token]⟩

lemma LogOp.follows_token (op : LogOp) : (op.token : Token t).Follows := by
  cases op <;> exact ⟨by simp [token], by simp [token]⟩

lemma BinOp.ends_token (op : BinOp) : (op.token : Token t).Ends op.leftPrec :=
  ⟨op.follows_token, by cases op <;> rfl⟩

lemma LogOp.ends_token (op : LogOp) : (op.token : Token t).Ends 3 :=
  ⟨op.follows_token, by cases op <;> rfl⟩

lemma BinOp.admits_rightPrec (op : BinOp) (lhs : Expr) (stack : List Unclosed) :
    Admits t (.operator (.binary op lhs) :: stack) op.rightPrec := by
  rw [rightPrec]
  split_ifs with hexp
  · refine .of_right (Operator.level_binary op lhs) ?_
    rw [hexp]
    exact Or.inr rfl
  · apply Admits.of_lt
    rw [Operator.level_binary]
    exact Nat.lt_succ_self _

/-- A binary operator is right associative if it is a power, and left associative else. -/
lemma Expr.chunks_binary (u : Unparser t) (op : BinOp) (lhs rhs : Expr) :
    ∃ b₁ b₂, (binary op lhs rhs).chunks u
        = bracket b₁ (lhs.chunks u) ++ infixChunks op.token ++ bracket b₂ (rhs.chunks u) ∧
      (b₁ = false → op.leftPrec ≤ lhs.prec) ∧ (b₂ = false → op.rightPrec ≤ rhs.prec) := by
  by_cases hexp : op = .exp
  · subst hexp
    refine ⟨_, _, by rw [chunks, Unparser.bracketLe, Unparser.bracketLt], ?_, ?_⟩
    · simp only [Bool.or_eq_false_iff, decide_eq_false_iff_not, BinOp.leftPrec]
      exact fun h => Nat.lt_of_not_le h.2
    · simp only [Bool.or_eq_false_iff, decide_eq_false_iff_not, BinOp.rightPrec]
      exact fun h => Nat.le_of_not_lt h.2
  · refine ⟨_, _, by rw [chunks, Unparser.bracketLe, Unparser.bracketLt]; exact hexp, ?_, ?_⟩
    · simp only [Bool.or_eq_false_iff, decide_eq_false_iff_not, BinOp.leftPrec, if_neg hexp]
      exact fun h => Nat.le_of_not_lt h.2
    · simp only [Bool.or_eq_false_iff, decide_eq_false_iff_not, BinOp.rightPrec, if_neg hexp]
      exact fun h => Nat.lt_of_not_le h.2

lemma Unparser.addNames_split {u : Unparser t} {as bs : List ℕ} {names names' : Names}
    (h : u.addNames (as ++ bs) names = some names') :
    ∃ names₁, u.addNames as names = some names₁ ∧ u.addNames bs names₁ = some names' := by
  rw [addNames_append] at h
  exact Option.bind_eq_some_iff.mp h

/-- An operator is shifted behind its left operand. -/
lemma Completes.shift_operator {names : Names} {b : Bool} {e : Expr} {n k : ℕ} {f : Unclosed}
    (h : Completes funcs p m tokens (Token.Ends k) (p.behind names b) e) (token : Token t)
    (hp : Admits t p.stack n) (hext : token.extends = true) (hn : n ≤ token.level)
    (hk : token.Ends k)
    (hfollow : (p.behind names b).follow funcs e token = (p.behind names b).push f) :
    ShiftsAll funcs p m (tokens ++ [token]) ((p.behind names b).inside f) .operand :=
  h.shift hk ((Parser.complete_of_admits (p := p.behind names b) hp hext hn).trans hfollow)

/-- What ends the right operand of an operator reduces the operator. -/
lemma ShiftsAll.reduce {names : Names} {b : Bool} {e : Expr} {n k : ℕ} {op : Operator}
    (hs : ShiftsAll funcs p m tokens (q.inside (.operator op)) .operand)
    (h : Completes funcs (q.inside (.operator op)) .operand tokens' (Token.Ends k)
      ((q.inside (.operator op)).behind names b) e) (hk : n ≤ k) (hop : n ≤ op.level t) :
    Completes funcs p m (tokens ++ tokens') (Token.Ends n)
      (q.behind names (b && (op.action t e).2)) (op.action t e).1 := by
  refine ((Completes.after hs h).mono fun token htoken => htoken.mono hk).congr
    fun token htoken => ?_
  have hred := Parser.complete_operator funcs (e := e) (p := q.behind names b) op
    (htoken.mono hop).2
  refine hred.trans ?_
  simp only [Parser.behind, Bool.and_assoc]

/-- A token closes what an expression is in. -/
lemma ShiftsAll.close {names : Names} {b : Bool} {e : Expr} {f : Unclosed}
    (hs : ShiftsAll funcs p m tokens (q.inside f) .operand)
    (h : Completes funcs (q.inside f) .operand tokens' (Token.Ends 0)
      ((q.inside f).behind names b) e)
    (token : Token t) (hf : ¬ f.IsOperator) (htoken : token.Follows)
    (hext : token.extends = false)
    (hc : ((q.behind names b).inside f).follow funcs e token = .shift r m₁) :
    ShiftsAll funcs p m (tokens ++ (tokens' ++ [token])) r m₁ :=
  hs.append (h.shift (.of_not_extends hext htoken 0) ((Parser.complete_unclosed hf rfl).trans hc))

namespace Expr.ReadsBack

variable {u : Unparser t} {e lhs rhs : Expr} {names : Names}

lemma binary (op : BinOp) (hl : lhs.ReadsBack u) (hr : rhs.ReadsBack u) :
    (Expr.binary op lhs rhs).ReadsBack u := by
  have hbounds := op.prec_bounds
  refine ⟨fun hprec => absurd (Nat.le_trans hprec hbounds.2) (by decide), ?_⟩
  intro p names n hprec hn hfits hp
  obtain ⟨b₁, b₂, hchunks, hb₁, hb₂⟩ := chunks_binary u op lhs rhs
  obtain ⟨names₁, hslots₁, hslots₂⟩ := Unparser.addNames_split hfits.slots
  have hbuilt := hfits.built
  rw [isBuilt, Bool.and_eq_true] at hbuilt
  have hlhs := hl.operand ⟨hbuilt.1, hslots₁⟩ hb₁ op.leftPrec_le
    (hp.mono (Nat.le_trans hprec op.prec_le_leftPrec))
  have hs := hlhs.shift_operator op.token hp op.extends_token (hprec.trans_eq op.level_token.symm)
    op.ends_token (Parser.follow_binary op _)
  have hall := hs.reduce (hr.operand (p := (p.behind names₁ _).inside _) ⟨hbuilt.2, hslots₂⟩ hb₂
      op.rightPrec_le (op.admits_rightPrec (lhs.reread t) p.stack))
    (Nat.le_trans hprec op.prec_le_rightPrec) (hprec.trans_eq (Operator.level_binary op _).symm)
  rw [hchunks, tokensOf_append, tokensOf_append, tokensOf_infixChunks]
  simpa [core, reread, minus, isBuilt, Operator.action] using hall

lemma logical (op : LogOp) (hl : lhs.ReadsBack u) (hr : rhs.ReadsBack u) :
    (Expr.logical op lhs rhs).ReadsBack u := by
  refine ⟨fun hprec => by simp [prec] at hprec, ?_⟩
  intro p names n (hprec : n ≤ 3) hn hfits hp
  obtain ⟨names₁, hslots₁, hslots₂⟩ := Unparser.addNames_split hfits.slots
  have hbuilt := hfits.built
  rw [isBuilt, Bool.and_eq_true] at hbuilt
  have hlhs := hl.operand_lt (n := 3) ⟨hbuilt.1, hslots₁⟩ (by decide) (hp.mono hprec)
  have hs := hlhs.shift_operator op.token hp op.extends_token (hprec.trans_eq op.level_token.symm)
    op.ends_token (Parser.follow_logical op _)
  have hall := hs.reduce (hr.operand_le (n := 3) (p := (p.behind names₁ _).inside _)
      ⟨hbuilt.2, hslots₂⟩ (by decide) (.of_lt (by simp))) (Nat.le_succ_of_le hprec)
    (hprec.trans_eq (Operator.level_logical op _).symm)
  rw [chunks, tokensOf_append, tokensOf_append, tokensOf_infixChunks]
  simpa [core, reread, minus, isBuilt, Operator.action] using hall

lemma unary (op : UnOp) (h : e.ReadsBack u) : (Expr.unary op e).ReadsBack u := by
  refine ⟨fun hprec => by simp [prec] at hprec, ?_⟩
  intro p names n hprec hn hfits hp
  have hbuilt := hfits.built
  rw [isBuilt, Bool.and_eq_true] at hbuilt
  have hs : ShiftsAll u.funcs p .operand [(op.token : Token t)]
      ((p.behind p.names true).inside (.operator (.unary op))) .operand := by
    refine .cons ?_ .nil
    rw [Parser.behind, Bool.and_true]
    cases op <;> rfl
  have hall := hs.reduce (h.operand_lt (n := 12) (p := (p.behind p.names _).inside _)
    ⟨hbuilt.2, hfits.slots⟩ (by decide) .of_unary) hn hn
  rw [chunks, tokensOf_tok]
  simpa [core, reread, minus, isBuilt, Operator.action] using hall

lemma cond {c a b : Expr} (hc : c.ReadsBack u) (ha : a.ReadsBack u) (hb : b.ReadsBack u) :
    (Expr.cond c a b).ReadsBack u := by
  refine ⟨fun hprec => by simp [prec] at hprec, ?_⟩
  intro p names n (hprec : n ≤ 2) hn hfits hp
  obtain ⟨names₁, hslots₁, hslots⟩ := Unparser.addNames_split hfits.slots
  obtain ⟨names₂, hslots₂, hslots₃⟩ := Unparser.addNames_split hslots
  have hbuilt := hfits.built
  simp only [isBuilt, Bool.and_eq_true] at hbuilt
  have hcond := hc.operand_le (n := 2) ⟨hbuilt.1.1, hslots₁⟩ (by decide)
    (hp.mono (Nat.le_succ_of_le hprec))
  have hs₁ := hcond.shift_operator (f := .cond (c.reread t)) (.chr '?') hp rfl hprec
    ⟨⟨by simp, by simp⟩, rfl⟩ rfl
  have hs₂ := hs₁.close (ha.all (p := (p.behind names₁ _).inside _) (Nat.zero_le _)
      (Nat.zero_le _) ⟨hbuilt.1.2, hslots₂⟩ (.unclosed not_false)) (.chr '|') not_false
    ⟨by simp, by simp⟩ rfl (r := ((p.behind names₁ _).behind names₂ _).inside (.operator (.cond _ _)))
    rfl
  have hall := hs₂.reduce (hb.operand_le (n := 2)
      (p := ((p.behind names₁ _).behind names₂ _).inside (.operator (.cond _ _)))
      ⟨hbuilt.2, hslots₃⟩ (by decide) (.of_lt (by simp)))
    (Nat.le_succ_of_le hprec) hprec
  rw [chunks]
  simpa [core, reread, minus, isBuilt, Operator.action] using hall

end Expr.ReadsBack

/-! ### Bases -/

/-- A base goes on. -/
lemma Completes.shift_base {e : Expr} (h : Completes funcs p m tokens Token.Follows q e)
    (token : Token t) (htoken : token.Follows) (hext : token.extends = true)
    (hlevel : 13 ≤ token.level) (hc : q.follow funcs e token = .shift r m₁) :
    ShiftsAll funcs p m (tokens ++ [token]) r m₁ :=
  h.shift htoken ((Parser.complete_of_admits .base hext hlevel).trans hc)

namespace Expr.ReadsBack

variable {u : Unparser t} {e lhs rhs : Expr} {names : Names}

lemma index (hl : lhs.ReadsBack u) (hr : rhs.ReadsBack u) : (Expr.index lhs rhs).ReadsBack u := by
  refine of_chain fun p names hfits => ?_
  obtain ⟨names₁, hslots₁, hslots₂⟩ := Unparser.addNames_split hfits.slots
  have hbuilt := hfits.built
  rw [isBuilt, Bool.and_eq_true] at hbuilt
  have hs₁ := (hl.base ⟨hbuilt.1, hslots₁⟩).shift_base (.chr '[') ⟨by simp, by simp⟩ rfl
    (Nat.le_refl 13) (r := ((p.signed _).behind names₁ _).dollarsUp.inside (.index _)) rfl
  have hs₂ := hs₁.close (hr.all (p := ((p.signed _).behind names₁ _).dollarsUp.inside _)
      (Nat.zero_le _) (Nat.zero_le _) ⟨by simpa using hbuilt.2, hslots₂⟩ (.unclosed not_false)) (.chr ']')
    not_false ⟨by simp, by simp⟩ rfl
    (r := ((p.signed _).behind names₁ _).behind names _) rfl
  rw [chunks]
  simpa [core, reread, minus, isBuilt] using Completes.of_shifts hs₂

lemma range {base lo hi : Expr} (hb : base.ReadsBack u) (hl : lo.ReadsBack u)
    (hh : hi.ReadsBack u) : (Expr.range base lo hi).ReadsBack u := by
  refine of_chain fun p names hfits => ?_
  obtain ⟨names₁, hslots₁, hslots⟩ := Unparser.addNames_split hfits.slots
  obtain ⟨names₂, hslots₂, hslots₃⟩ := Unparser.addNames_split hslots
  have hbuilt := hfits.built
  simp only [isBuilt, Bool.and_eq_true] at hbuilt
  have hs₁ := (hb.base ⟨hbuilt.1.1, hslots₁⟩).shift_base (.chr '[') ⟨by simp, by simp⟩ rfl
    (Nat.le_refl 13) (r := ((p.signed _).behind names₁ _).dollarsUp.inside (.index _)) rfl
  have hs₂ := hs₁.close (hl.all (p := ((p.signed _).behind names₁ _).dollarsUp.inside _)
      (Nat.zero_le _) (Nat.zero_le _) ⟨by simpa using hbuilt.1.2, hslots₂⟩
      (.unclosed not_false)) .tTO
    not_false ⟨by simp, by simp⟩ rfl
    (r := (((p.signed _).behind names₁ _).dollarsUp.behind names₂ _).inside (.range _ _)) rfl
  have hs₃ := hs₂.close (hh.all
      (p := (((p.signed _).behind names₁ _).dollarsUp.behind names₂ _).inside _)
      (Nat.zero_le _) (Nat.zero_le _) ⟨by simpa using hbuilt.2, hslots₃⟩ (.unclosed not_false))
    (.chr ']') not_false ⟨by simp, by simp⟩ rfl
    (r := (((p.signed _).behind names₁ _).behind names₂ _).behind names _) rfl
  rw [chunks]
  simpa [core, reread, minus, isBuilt, Bool.and_assoc] using Completes.of_shifts hs₃

end Expr.ReadsBack

/-! ### Names of properties and verbs -/

lemma Expr.eq_nameLiteral {e : Expr} {tb : UtfCtype} {s : List Char} (h : e.okName tb = some s) :
    e = nameLiteral s := by
  unfold okName at h
  split at h
  · split_ifs at h
    obtain rfl := Option.some.inj h
    rw [nameLiteral, String.ofList_toList]
  · cases h

lemma Expr.eq_systemObject {e : Expr} (h : e.isSystemObject = true) : e = systemObject := by
  unfold isSystemObject at h
  split at h
  · rfl
  · cases h

@[simp] lemma core_systemObject : systemObject.core t = systemObject := by
  simp [systemObject, Expr.core, Literal.core]

@[simp] lemma minus_systemObject : systemObject.minus = false := rfl

@[simp] lemma isBuilt_systemObject (dollars : Bool) : systemObject.isBuilt dollars = true := rfl

@[simp] lemma core_nameLiteral (s : List Char) : (nameLiteral s).core t = nameLiteral s := rfl

@[simp] lemma minus_nameLiteral (s : List Char) : (nameLiteral s).minus = false := rfl

@[simp] lemma isBuilt_nameLiteral (s : List Char) (dollars : Bool) :
    (nameLiteral s).isBuilt dollars = true :=
  rfl

namespace Expr.ReadsBack

variable {u : Unparser t} {e lhs rhs : Expr} {names : Names}

lemma prop (hl : lhs.ReadsBack u) (hr : rhs.ReadsBack u) : (Expr.prop lhs rhs).ReadsBack u := by
  refine of_chain fun p names hfits => ?_
  obtain ⟨names₁, hslots₁, hslots₂⟩ := Unparser.addNames_split hfits.slots
  have hbuilt := hfits.built
  rw [isBuilt, Bool.and_eq_true] at hbuilt
  have hdot := (hl.base ⟨hbuilt.1, hslots₁⟩).shift_base (.chr '.') ⟨by simp, by simp⟩ rfl
    (Nat.le_refl 13) (r := (p.signed _).behind names₁ _) rfl
  have hblank : tokensOf (if lhs.isIntLiteral then [.blank] else []) = ([] : List (Token t)) := by
    split_ifs <;> rfl
  rw [chunks]
  cases hname : rhs.okName u.cfg.tb with
  | none =>
    have hs := (hdot.snoc (.chr '(') (r := ((p.signed _).behind names₁ _).inside (.propName _)) rfl).close
      (hr.all (p := ((p.signed _).behind names₁ _).inside _) (Nat.zero_le _) (Nat.zero_le _)
        ⟨hbuilt.2, hslots₂⟩ (.unclosed not_false)) (.chr ')') not_false ⟨by simp, by simp⟩ rfl
      (r := ((p.signed _).behind names₁ _).behind names _) rfl
    simpa [core, reread, minus, isBuilt, objectChunks, nameChunks, hblank] using
      Completes.of_shifts hs
  | some s =>
    obtain rfl := eq_nameLiteral hname
    obtain rfl : names₁ = names := Option.some.inj hslots₂
    by_cases hsys : lhs.isSystemObject = true
    · obtain rfl := eq_systemObject hsys
      obtain rfl : p.names = names₁ := Option.some.inj hslots₁
      refine ⟨p, .dollarId s, ?_, fun token htoken => ?_⟩
      · rw [objectChunks, hsys]
        exact .cons rfl (.cons rfl .nil)
      · rw [Parser.advance_dollarId htoken]
        simp [core, minus, isBuilt]
    · have hs := hdot.snoc (.tID s) (r := (p.signed _).behind names₁ _) rfl
      simpa [core, reread, minus, isBuilt, objectChunks, nameChunks, hblank, hsys] using
        Completes.of_shifts hs

end Expr.ReadsBack

/-! ### Arguments -/

/-- The tokens an argument begins with. -/
def Token.StartsArg (token : Token t) : Prop :=
  token = .chr '@' ∨ ∃ p q : Parser, ∃ m : Mode, p.operand token = .shift q m

/-- An argument behind `args` may come. -/
def TakesArg (t : IntType) (funcs : Names) (p : Parser) (m : Mode) (k : ArgsOf) (args : ArgList) :
    Prop :=
  ∀ token : Token t, token.StartsArg → p.advance funcs m token = p.argument k args token

lemma Token.StartsArg.ne (h : token.StartsArg) :
    token ≠ .chr '}' ∧ token ≠ .chr ')' ∧ token ≠ .chr '?' ∧ token ≠ .keyword .tANY := by
  refine ⟨?_, ?_, ?_, ?_⟩
  all_goals
    rintro rfl
    rcases h with h | ⟨p, q, m, h⟩
    · simp at h
    · cases h

namespace TakesArg

variable {k : ArgsOf} {args : ArgList}

lemma first : TakesArg t funcs p (.args k) k .nil := by
  intro token h
  have hne := h.ne
  show p.firstArg k funcs token = _
  rw [Parser.firstArg, if_neg (by simp [hne.1, hne.2.1]), if_neg (by simp [hne.2.2.1])]

lemma next : TakesArg t funcs p (.nextArg k args) k args := by
  intro token h
  have hne := h.ne
  show p.nextArg k args token = _
  rw [Parser.nextArg, if_neg (by simp [hne.2.2.1])]

lemma codes {body : Expr} : TakesArg t funcs p (.codes body) (.codes body) .nil := by
  intro token h
  have hne := h.ne.2.2.2
  cases token with
  | keyword k => cases k <;> first | rfl | exact absurd rfl hne
  | _ => rfl

variable {Q : Token t → Prop} {e : Expr}

/-- The first token of a normal argument is that of an operand. -/
lemma normal (hm : TakesArg t funcs p m k args) (hne : tokens ≠ [])
    (h : Completes funcs (p.inside (.arg k args .normal)) .operand tokens Q q e) :
    Completes funcs p m tokens Q q e := by
  obtain ⟨p', m', hs, ha⟩ := h
  refine ⟨p', m', ?_, ha⟩
  cases hs with
  | nil => exact absurd rfl hne
  | @cons _ q₁ _ _ m₁ _ token tokens hshift hs =>
    refine .cons (Eq.trans ?_ hshift) hs
    rw [hm token (Or.inr ⟨_, _, _, hshift⟩), Parser.argument, if_neg]
    · rfl
    · rintro rfl
      cases hshift

lemma splice (hm : TakesArg t funcs p m k args)
    (h : Completes funcs (p.inside (.arg k args .splice)) .operand tokens Q q e) :
    Completes funcs p m (.chr '@' :: tokens) Q q e := by
  show Completes funcs p m ([.chr '@'] ++ tokens) Q q e
  refine .after (.cons ?_ .nil) h
  rw [hm _ (Or.inl rfl), Parser.argument, if_pos rfl]
  rfl

end TakesArg

lemma Parser.follow_of_not_extends {e : Expr} (h : token.extends = false) :
    p.follow funcs e token = p.close funcs e token := by
  unfold Token.extends at h
  unfold Parser.follow
  split at h
  · cases h
  · cases h
  · cases h
  · cases h
  · cases h
  · rw [Bool.or_eq_false_iff, Option.isSome_eq_false_iff, Option.isSome_eq_false_iff,
      Option.isNone_iff_eq_none, Option.isNone_iff_eq_none] at h
    split <;> simp_all

lemma Expr.tokensOf_chunks_ne_nil (u : Unparser t) (e : Expr) : tokensOf (e.chunks u) ≠ [] := by
  cases e with
  | var v =>
    cases v <;> simp only [chunks, literalChunks] <;> first | split_ifs | skip
    all_goals simp
  | prop lhs rhs =>
    simp only [chunks, objectChunks]
    split_ifs <;> simp
  | verb obj name args => simp [chunks]
  | binary op lhs rhs =>
    obtain ⟨b₁, b₂, hchunks, -⟩ := chunks_binary u op lhs rhs
    simp [hchunks]
  | _ => simp [chunks, Unparser.varChunks]

structure ArgList.Fits (u : Unparser t) (p : Parser) (names : Names) (args : ArgList) : Prop where
  built : args.isBuilt p.dollars = true
  slots : u.addNames args.slots p.names = some names

/-- The tokens of arguments are read, up to a token that closes the list. -/
def ArgList.ReadsBack (u : Unparser t) (args : ArgList) : Prop :=
  ∀ ⦃p : Parser⦄ ⦃m : Mode⦄ ⦃k : ArgsOf⦄ ⦃before : ArgList⦄ ⦃names : Names⦄, args.Fits u p names →
    TakesArg t u.funcs p m k before → args ≠ .nil →
    ∃ p' m', ShiftsAll u.funcs p m (tokensOf (args.chunks u)) p' m' ∧
      ∀ token : Token t, token.Follows → token.extends = false →
        p'.advance u.funcs m' token = (p.behind names ((args.reread t).isBuilt p.dollars)).endArg k
          u.funcs (before.append (args.reread t)) token

namespace ArgList.ReadsBack

variable {u : Unparser t} {e : Expr} {kind : ArgKind} {next before : ArgList} {names : Names}
  {k : ArgsOf}

/-- One argument. -/
lemma arg (kind : ArgKind) (he : e.ReadsBack u) (hfits : e.Fits u p names) (hm : TakesArg t u.funcs p m k before) :
    Completes u.funcs p m
      (tokensOf ((if kind = .splice then [.tok (.chr '@')] else []) ++ e.chunks u)) (Token.Ends 0)
      ((p.behind names ((e.core t).isBuilt p.dollars)).inside (.arg k before kind))
      (e.reread t) := by
  have hall (kind : ArgKind) := he.all (p := p.inside (.arg k before kind)) (Nat.zero_le _)
    (Nat.zero_le _) ⟨hfits.built, hfits.slots⟩ (.unclosed not_false)
  cases kind with
  | normal => exact hm.normal (e.tokensOf_chunks_ne_nil u) (hall .normal)
  | splice => exact hm.splice (hall .splice)

lemma advance_arg {b : Bool} (h : Completes u.funcs p m tokens (Token.Ends 0)
      ((p.behind names b).inside (.arg k before kind)) e) :
    ∃ p' m', ShiftsAll u.funcs p m tokens p' m' ∧
      ∀ token : Token t, token.Follows → token.extends = false →
        p'.advance u.funcs m' token
          = (p.behind names b).endArg k u.funcs (before.snoc kind e) token := by
  obtain ⟨p', m', hs, ha⟩ := h
  refine ⟨p', m', hs, fun token hfollows hext => ?_⟩
  rw [ha token (.of_not_extends hext hfollows 0),
    Parser.complete_unclosed (f := .arg k before kind) not_false rfl,
    Parser.follow_of_not_extends hext]
  rfl

lemma cons (he : e.ReadsBack u) (hn : next.ReadsBack u) :
    (ArgList.cons kind e next).ReadsBack u := by
  intro p m k before names hfits hm _
  obtain ⟨names₁, hslots₁, hslots₂⟩ := Unparser.addNames_split hfits.slots
  have hbuilt := hfits.built
  rw [isBuilt, Bool.and_eq_true] at hbuilt
  obtain ⟨p₁, m₁, hs₁, ha₁⟩ := advance_arg (arg kind he ⟨hbuilt.1, hslots₁⟩ hm)
  by_cases hnil : next = .nil
  · subst hnil
    obtain rfl : names₁ = names := Option.some.inj hslots₂
    refine ⟨p₁, m₁, ?_, fun token hfollows hext => ?_⟩
    · simpa [chunks] using hs₁
    · rw [ha₁ token hfollows hext]
      simp [reread, isBuilt, Expr.reread, ← snoc_append, append_nil]
  · have hcomma := hs₁.snoc (.chr ',') (r := p.behind names₁ _)
      (ha₁ (.chr ',') ⟨by simp, by simp⟩ rfl)
    obtain ⟨p₂, m₂, hs₂, ha₂⟩ := hn (p := p.behind names₁ _) ⟨hbuilt.2, hslots₂⟩ .next hnil
    refine ⟨p₂, m₂, ?_, fun token hfollows hext => ?_⟩
    · simpa [chunks, hnil] using hcomma.append hs₂
    · rw [ha₂ token hfollows hext, snoc_append]
      simp [reread, isBuilt, Expr.reread]

/-- The list with its closing bracket. -/
lemma close {args : ArgList} (h : args.ReadsBack u) (hfits : args.Fits u p names)
    {token : Token t} (htoken : token = .chr '}' ∨ token = .chr ')')
    (hshift : (p.behind names ((args.reread t).isBuilt p.dollars)).endArg k u.funcs
      (args.reread t) token = .shift q m) :
    ShiftsAll u.funcs p (.args k) (tokensOf (args.chunks u) ++ [token]) q m := by
  by_cases hnil : args = .nil
  · subst hnil
    obtain rfl : p.names = names := Option.some.inj hfits.slots
    refine .cons ?_ .nil
    rw [reread, isBuilt, Parser.behind_self] at hshift
    rw [← hshift]
    exact if_pos htoken
  · obtain ⟨p', m', hs, ha⟩ := h hfits .first hnil
    have hfollows : token.Follows ∧ token.extends = false := by
      rcases htoken with rfl | rfl <;> exact ⟨⟨by simp, by simp⟩, rfl⟩
    exact hs.snoc token ((ha token hfollows.1 hfollows.2).trans hshift)

end ArgList.ReadsBack

namespace Expr.ReadsBack

variable {u : Unparser t} {args : ArgList}

lemma list (h : args.ReadsBack u) : (Expr.list args).ReadsBack u := by
  refine of_chain fun p names hfits => ?_
  have hs := h.close (k := .list) ⟨hfits.built, hfits.slots⟩ (Or.inl rfl)
    (q := p.behind names _) rfl
  rw [chunks]
  simpa [core, minus, isBuilt] using Completes.of_shifts (.cons rfl hs)

lemma call {func : ℕ} (hfunc : u.PrintsFunc func) (h : args.ReadsBack u) :
    (Expr.call func args).ReadsBack u := by
  refine of_chain fun p names hfits => ?_
  have hbuilt := hfits.built
  rw [isBuilt, Bool.and_eq_true, decide_eq_true_eq] at hbuilt
  have hcall : makeCall u.funcs (u.nameFuncByNum func) (args.reread t)
      = .call func (args.reread t) := by
    rw [makeCall, hfunc.2, if_neg (Nat.ne_of_lt hbuilt.1)]
  have hs := h.close (k := .call (u.nameFuncByNum func)) ⟨hbuilt.2, hfits.slots⟩ (Or.inr rfl)
    (q := p.behind names _) rfl
  rw [hcall] at hs
  rw [chunks]
  simpa [core, minus, isBuilt, hbuilt.1] using Completes.of_shifts (.cons rfl (.cons rfl hs))

lemma verb {obj name : Expr} (ho : obj.ReadsBack u) (hn : name.ReadsBack u)
    (h : args.ReadsBack u) : (Expr.verb obj name args).ReadsBack u := by
  refine of_chain fun p names hfits => ?_
  obtain ⟨names₁, hslots₁, hslots⟩ := Unparser.addNames_split hfits.slots
  obtain ⟨names₂, hslots₂, hslots₃⟩ := Unparser.addNames_split hslots
  have hbuilt := hfits.built
  simp only [isBuilt, Bool.and_eq_true] at hbuilt
  have hcolon := (ho.base ⟨hbuilt.1.1, hslots₁⟩).shift_base (.chr ':') ⟨by simp, by simp⟩ rfl
    (Nat.le_refl 13) (r := (p.signed _).behind names₁ _) rfl
  rw [chunks]
  cases hname : name.okName u.cfg.tb with
  | none =>
    have hs₁ := (hcolon.snoc (.chr '(')
        (r := ((p.signed _).behind names₁ _).inside (.verbName _)) rfl).close
      (hn.all (p := ((p.signed _).behind names₁ _).inside _) (Nat.zero_le _) (Nat.zero_le _)
        ⟨hbuilt.1.2, hslots₂⟩ (.unclosed not_false)) (.chr ')') not_false ⟨by simp, by simp⟩ rfl
      (r := ((p.signed _).behind names₁ _).behind names₂ _) rfl
    have hs₂ := (hs₁.snoc (.chr '(') (r := ((p.signed _).behind names₁ _).behind names₂ _)
      rfl).append (h.close (k := .verb _ _)
        (p := ((p.signed _).behind names₁ _).behind names₂ _) ⟨hbuilt.2, hslots₃⟩ (Or.inr rfl)
        (q := (((p.signed _).behind names₁ _).behind names₂ _).behind names _) rfl)
    simpa [core, reread, minus, isBuilt, objectChunks, nameChunks, Bool.and_assoc] using
      Completes.of_shifts hs₂
  | some s =>
    obtain rfl := eq_nameLiteral hname
    obtain rfl : names₁ = names₂ := Option.some.inj hslots₂
    by_cases hsys : obj.isSystemObject = true
    · obtain rfl := eq_systemObject hsys
      obtain rfl : p.names = names₁ := Option.some.inj hslots₁
      have hs := h.close (p := p) (k := .verb systemObject (nameLiteral s)) ⟨hbuilt.2, hslots₃⟩
        (Or.inr rfl) (q := p.behind names _) rfl
      simpa [core, minus, isBuilt, objectChunks, nameChunks, hsys] using
        Completes.of_shifts (.cons rfl (.cons rfl (.cons rfl hs)))
    · have hs := ((hcolon.snoc (.tID s) (r := (p.signed _).behind names₁ _) rfl).snoc (.chr '(')
          (r := (p.signed _).behind names₁ _) rfl).append
        (h.close (k := .verb _ (nameLiteral s)) (p := (p.signed _).behind names₁ _)
          ⟨hbuilt.2, hslots₃⟩ (Or.inr rfl)
          (q := ((p.signed _).behind names₁ _).behind names _) rfl)
      simpa [core, reread, minus, isBuilt, objectChunks, nameChunks, hsys] using
        Completes.of_shifts hs

/-- The codes of a catch expression. -/
lemma codesOrAny (body : Expr) {codes : ArgList} {names : Names} (h : codes.ReadsBack u)
    (hfits : codes.Fits u p names) :
    ∃ p' m', ShiftsAll u.funcs p (.codes body)
        (tokensOf (if codes = .nil then [.tok (.keyword .tANY)] else codes.chunks u)) p' m' ∧
      ∀ token : Token t, token = .tARROW ∨ token = .chr '\'' →
        p'.advance u.funcs m' token = (p.behind names ((codes.reread t).isBuilt p.dollars)).endArg
          (.codes body) u.funcs (codes.reread t) token := by
  by_cases hnil : codes = .nil
  · subst hnil
    obtain rfl : p.names = names := Option.some.inj hfits.slots
    refine ⟨p, .anyCodes body, .cons rfl .nil, fun token htoken => ?_⟩
    rw [ArgList.reread, ArgList.isBuilt, Parser.behind_self]
    rcases htoken with rfl | rfl <;> rfl
  · obtain ⟨p', m', hs, ha⟩ := h hfits .codes hnil
    rw [if_neg hnil]
    refine ⟨p', m', hs, fun token htoken => ha token ?_ ?_⟩
    · rcases htoken with rfl | rfl <;> exact ⟨by simp, by simp⟩
    · rcases htoken with rfl | rfl <;> rfl

lemma catchExpr {body : Expr} {codes : ArgList} {dflt : Default} (hb : body.ReadsBack u)
    (hc : codes.ReadsBack u) (hd : ∀ e, dflt = .some e → e.ReadsBack u) :
    (Expr.catchExpr body codes dflt).ReadsBack u := by
  refine of_chain fun p names hfits => ?_
  obtain ⟨names₁, hslots₁, hslots⟩ := Unparser.addNames_split hfits.slots
  obtain ⟨names₂, hslots₂, hslots₃⟩ := Unparser.addNames_split hslots
  have hbuilt := hfits.built
  simp only [isBuilt, Bool.and_eq_true] at hbuilt
  have hopen : ShiftsAll u.funcs p .operand [(.chr '`' : Token t)] (p.inside .catchBody) .operand :=
    .cons rfl .nil
  have hs₁ := hopen.close (hb.all (p := p.inside .catchBody) (Nat.zero_le _) (Nat.zero_le _)
    ⟨hbuilt.1.1, hslots₁⟩ (.unclosed not_false)) (.chr '!') not_false ⟨by simp, by simp⟩ rfl
    (r := p.behind names₁ _) rfl
  obtain ⟨p', m', hs₂, ha⟩ := codesOrAny (body.reread t)
    (p := p.behind names₁ ((body.core t).isBuilt p.dollars)) hc ⟨hbuilt.1.2, hslots₂⟩
  cases dflt with
  | none =>
    obtain rfl : names₂ = names := Option.some.inj hslots₃
    have hs := (hs₁.append hs₂).snoc (.chr '\'') (r := (p.behind names₁ _).behind names₂ _)
      (ha _ (Or.inr rfl))
    rw [chunks]
    simpa [core, reread, minus, isBuilt, Default.reread, Default.isBuilt, Default.chunks] using
      Completes.of_shifts hs
  | some e =>
    have hs₃ := ((hs₁.append hs₂).snoc .tARROW
      (r := ((p.behind names₁ _).behind names₂ _).inside (.catchDefault _ _))
      (ha _ (Or.inl rfl))).close
      ((hd e rfl).all (p := ((p.behind names₁ _).behind names₂ _).inside _) (Nat.zero_le _)
        (Nat.zero_le _) ⟨hbuilt.2, hslots₃⟩ (.unclosed not_false)) (.chr '\'') not_false
      ⟨by simp, by simp⟩ rfl (r := ((p.behind names₁ _).behind names₂ _).behind names _) rfl
    rw [chunks]
    simpa [core, reread, minus, isBuilt, Default.reread, Default.isBuilt, Default.chunks,
      Bool.and_assoc] using Completes.of_shifts hs₃

end Expr.ReadsBack

/-! ### Targets of scattering assignments -/

lemma Scatter.append_append (as bs cs : Scatter) :
    (as.append bs).append cs = as.append (bs.append cs) := by
  cases as with
  | nil => rfl
  | required slot next => rw [append, append, append, append_append next]
  | rest slot next => rw [append, append, append, append_append next]
  | optional slot dflt next => rw [append, append, append, append_append next]

lemma Scatter.append_nil (as : Scatter) : as.append .nil = as := by
  cases as with
  | nil => rfl
  | required slot next => rw [append, append_nil next]
  | rest slot next => rw [append, append_nil next]
  | optional slot dflt next => rw [append, append_nil next]

lemma scatterFromArglist_snoc {args : ArgList} {targets : Scatter}
    (h : scatterFromArglist args = some targets) (slot : ℕ) :
    scatterFromArglist (args.snoc .normal (.id slot)) = some (targets.append (.required slot .nil)) ∧
      scatterFromArglist (args.snoc .splice (.id slot))
        = some (targets.append (.rest slot .nil)) := by
  match args with
  | .nil =>
    obtain rfl := Option.some.inj h
    exact ⟨rfl, rfl⟩
  | .cons kind e next =>
    cases e with
    | id s =>
      cases kind
      all_goals
        obtain ⟨targets', h', rfl⟩ := Option.map_eq_some_iff.mp h
        obtain ⟨ih₁, ih₂⟩ := scatterFromArglist_snoc h' slot
        rw [ArgList.snoc, ArgList.snoc, scatterFromArglist, scatterFromArglist, ih₁, ih₂]
        exact ⟨rfl, rfl⟩
    | _ => cases kind <;> cases h

structure Scatter.Fits (u : Unparser t) (p : Parser) (names : Names) (targets : Scatter) :
    Prop where
  built : targets.isBuilt p.dollars = true
  slots : u.addNames targets.slots p.names = some names

/-- Behind the tokens, the automaton does with a comma or a closing brace what `q` does behind
the targets. -/
def EndsTarget (funcs : Names) (p : Parser) (m : Mode) (tokens : List (Token t)) (q : Parser)
    (targets : Scatter) : Prop :=
  ∃ p' m', ShiftsAll funcs p m tokens p' m' ∧
    ∀ token : Token t, token = .chr ',' ∨ token = .chr '}' →
      p'.advance funcs m' token = q.endTarget targets token

namespace EndsTarget

variable {u : Unparser t} {targets targets' : Scatter} {slot : ℕ} {names : Names}

lemma after (hs : ShiftsAll funcs p m tokens q m₁) (h : EndsTarget funcs q m₁ tokens' r targets) :
    EndsTarget funcs p m (tokens ++ tokens') r targets := by
  obtain ⟨p', m', hs', ha⟩ := h
  exact ⟨p', m', hs.append hs', ha⟩

/-- More targets behind a comma. -/
lemma next (h : EndsTarget funcs p m tokens q targets)
    (h' : EndsTarget funcs q (.target targets) tokens' r targets') :
    EndsTarget funcs p m (tokens ++ .chr ',' :: tokens') r targets' := by
  obtain ⟨p', m', hs, ha⟩ := h
  have hcomma := hs.snoc (.chr ',') (ha _ (Or.inl rfl))
  simpa using h'.after hcomma

lemma findId_eq (h : u.addNames [slot] p.names = some names) :
    p.findId (u.varName slot) = (slot, p.behind names true) := by
  rw [Unparser.addNames] at h
  dsimp only at h
  split_ifs at h with hslot
  obtain rfl := Option.some.inj h
  rw [Parser.findId, Parser.behind, Bool.and_true, hslot]

lemma required (targets : Scatter) (h : u.addNames [slot] p.names = some names) :
    EndsTarget u.funcs p (.target targets) (tokensOf (u.varChunks slot)) (p.behind names true)
      (targets.append (.required slot .nil)) := by
  refine ⟨p.behind names true, .targetEnd (targets.append (.required slot .nil)), .cons ?_ .nil,
    fun token htoken => ?_⟩
  · show p.target targets (.tID (u.varName slot) : Token t) = _
    rw [Parser.target, findId_eq h]
  · rcases htoken with rfl | rfl <;> rfl

lemma rest (targets : Scatter) (h : u.addNames [slot] p.names = some names) :
    EndsTarget u.funcs p (.target targets) (.chr '@' :: tokensOf (u.varChunks slot))
      (p.behind names true) (targets.append (.rest slot .nil)) := by
  refine ⟨p.behind names true, .targetEnd (targets.append (.rest slot .nil)),
    .cons (q := p) (show p.advance u.funcs (.target targets) (.chr '@' : Token t)
      = .shift p (.restTarget targets) from rfl) (.cons ?_ .nil), fun token htoken => ?_⟩
  · show TokenOutcome.shift (p.findId (u.varName slot)).2 (.targetEnd (targets.append
      (.rest (p.findId (u.varName slot)).1 .nil))) = _
    rw [findId_eq h]
  · rcases htoken with rfl | rfl <;> rfl

lemma optional (targets : Scatter) {dflt : Default}
    (hd : ∀ e, dflt = .some e → e.ReadsBack u) (hbuilt : dflt.isBuilt p.dollars = true)
    (hslots : u.addNames (dflt.slots ++ [slot]) p.names = some names) :
    EndsTarget u.funcs p (.optTarget targets)
      (tokensOf (u.varChunks slot ++ dflt.chunks u (.chr '=')))
      (p.behind names ((dflt.reread t).isBuilt p.dollars))
      (targets.append (.optional slot (dflt.reread t) .nil)) := by
  obtain ⟨names₁, hslots₁, hslots₂⟩ := Unparser.addNames_split hslots
  have hid : ShiftsAll u.funcs p (.optTarget targets) [(.tID (u.varName slot) : Token t)] p
      (.optTargetId targets (u.varName slot)) := .cons rfl .nil
  cases dflt with
  | none =>
    obtain rfl : p.names = names₁ := Option.some.inj hslots₁
    refine ⟨p, _, hid, fun token htoken => ?_⟩
    have hadvance : p.advance u.funcs (.optTargetId targets (u.varName slot)) token
        = (p.findId (u.varName slot)).2.endTarget
          (targets.append (.optional (p.findId (u.varName slot)).1 .none .nil)) token := by
      rcases htoken with rfl | rfl <;> rfl
    rw [hadvance, findId_eq hslots₂]
    rfl
  | some e =>
    have hopen := hid.snoc (.chr '=') (r := p.inside (.target targets (u.varName slot))) rfl
    obtain ⟨p', m', hs, ha⟩ := (hd e rfl).all (p := p.inside (.target targets (u.varName slot)))
      (Nat.zero_le _) (Nat.zero_le _) ⟨hbuilt, hslots₁⟩ (.unclosed not_false)
    refine ⟨p', m', ?_, fun token htoken => ?_⟩
    · simpa [Unparser.varChunks, Default.chunks] using hopen.append hs
    · have hclose : token.Follows ∧ token.extends = false := by
        rcases htoken with rfl | rfl <;> exact ⟨⟨by simp, by simp⟩, rfl⟩
      rw [ha token (.of_not_extends hclose.2 hclose.1 0),
        Parser.complete_unclosed (f := .target targets (u.varName slot)) not_false rfl,
        Parser.follow_of_not_extends hclose.2]
      show ((p.behind names₁ _).findId (u.varName slot)).2.endTarget (targets.append
        (.optional ((p.behind names₁ _).findId (u.varName slot)).1 (.some (e.reread t)) .nil))
        token = _
      rw [findId_eq (p := p.behind names₁ _) hslots₂, Parser.behind_behind, Bool.and_true,
        Default.reread, Default.isBuilt, isBuilt_withSign]
      rfl

end EndsTarget

/-- The tokens of targets are read, up to a closing brace. -/
def Scatter.ReadsBack (u : Unparser t) (targets : Scatter) : Prop :=
  ∀ ⦃p : Parser⦄ ⦃names : Names⦄ ⦃before : Scatter⦄, targets.Fits u p names → targets ≠ .nil →
    EndsTarget u.funcs p (.target before) (tokensOf (targets.chunks u))
      (p.behind names ((targets.reread t).isBuilt p.dollars)) (before.append (targets.reread t))

namespace Scatter.ReadsBack

variable {u : Unparser t} {slot : ℕ} {next before before' : Scatter} {names names₁ : Names}
  {b : Bool}

/-- A target, and those behind it. -/
lemma cons (hn : next.ReadsBack u) (h : EndsTarget u.funcs p m tokens (p.behind names₁ b) before)
    (hbuilt : next.isBuilt p.dollars = true)
    (hslots : u.addNames next.slots names₁ = some names) :
    EndsTarget u.funcs p m (tokens ++ tokensOf
        ((if next = .nil then [] else [.tok (.chr ','), .blank]) ++ next.chunks u))
      (p.behind names (b && (next.reread t).isBuilt p.dollars)) (before.append (next.reread t)) := by
  by_cases hnil : next = .nil
  · subst hnil
    obtain rfl : names₁ = names := Option.some.inj hslots
    simpa [chunks, reread, isBuilt, append_nil] using h
  · have hnext := h.next (hn (p := p.behind names₁ b) ⟨hbuilt, hslots⟩ hnil)
    simpa [hnil] using hnext

lemma required (hn : next.ReadsBack u) : (Scatter.required slot next).ReadsBack u := by
  intro p names before hfits _
  obtain ⟨names₁, hslots₁, hslots₂⟩ :=
    Unparser.addNames_split (show u.addNames ([slot] ++ next.slots) p.names = some names from
      hfits.slots)
  have hall := hn.cons (EndsTarget.required before hslots₁) hfits.built hslots₂
  rw [append_append] at hall
  simpa [chunks, reread, isBuilt, append] using hall

lemma rest (hn : next.ReadsBack u) : (Scatter.rest slot next).ReadsBack u := by
  intro p names before hfits _
  obtain ⟨names₁, hslots₁, hslots₂⟩ :=
    Unparser.addNames_split (show u.addNames ([slot] ++ next.slots) p.names = some names from
      hfits.slots)
  have hall := hn.cons (EndsTarget.rest before hslots₁) hfits.built hslots₂
  rw [append_append] at hall
  simpa [chunks, reread, isBuilt, append] using hall

/-- Behind a question mark. -/
lemma optional_tail (before : Scatter) {dflt : Default} (hd : ∀ e, dflt = .some e → e.ReadsBack u)
    (hn : next.ReadsBack u) (hfits : (Scatter.optional slot dflt next).Fits u p names) :
    EndsTarget u.funcs p (.optTarget before)
      (tokensOf (((Scatter.optional slot dflt next).chunks u).tail))
      (p.behind names (((Scatter.optional slot dflt next).reread t).isBuilt p.dollars))
      (before.append ((Scatter.optional slot dflt next).reread t)) := by
  have hslots := hfits.slots
  rw [slots, List.append_cons] at hslots
  obtain ⟨names₁, hslots₁, hslots₂⟩ := Unparser.addNames_split hslots
  have hbuilt := hfits.built
  rw [isBuilt, Bool.and_eq_true] at hbuilt
  have hall := hn.cons (EndsTarget.optional before hd hbuilt.1 hslots₁) hbuilt.2
    hslots₂
  rw [append_append] at hall
  simpa [chunks, reread, isBuilt, append] using hall

lemma optional {dflt : Default} (hd : ∀ e, dflt = .some e → e.ReadsBack u)
    (hn : next.ReadsBack u) : (Scatter.optional slot dflt next).ReadsBack u := by
  intro p names before hfits _
  have htail := optional_tail before hd hn hfits
  have hopt : ShiftsAll u.funcs p (.target before) [(.chr '?' : Token t)] p (.optTarget before) :=
    .cons rfl .nil
  exact htail.after hopt

end Scatter.ReadsBack

lemma ArgList.snoc_ne_nil (args : ArgList) (kind : ArgKind) (e : Expr) : args.snoc kind e ≠ .nil := by
  cases args <;> simp [snoc]

lemma makeAsgn_list {args : ArgList} {targets : Scatter}
    (h : scatterFromArglist args = some targets) (hne : args ≠ .nil) (rhs : Expr) :
    makeAsgn (.list args) rhs = (.asgn (.scatter targets) rhs, vetScatter targets) := by
  cases args with
  | nil => exact absurd rfl hne
  | cons kind e next => rw [makeAsgn, h]; simp

/-- The tokens of targets are read up to the operator. Targets look like arguments until there
is an optional one. -/
def Scatter.ReadsList (u : Unparser t) (targets : Scatter) : Prop :=
  ∀ ⦃p : Parser⦄ ⦃m : Mode⦄ ⦃names : Names⦄ ⦃args : ArgList⦄ ⦃before : Scatter⦄ ⦃n : ℕ⦄,
    targets.Fits u p names → targets ≠ .nil → TakesArg t u.funcs p m .list args →
    p.advance u.funcs m (.chr '?' : Token t) = .shift p (.optTarget before) →
    scatterFromArglist args = some before → n ≤ 1 → Admits t p.stack n →
    ∃ op : Operator, op.level t = 1 ∧
      (∀ rhs, op.action t rhs = (.asgn (.scatter (before.append (targets.reread t))) rhs,
        vetScatter (before.append (targets.reread t)))) ∧
      ShiftsAll u.funcs p m (tokensOf (targets.chunks u) ++ [.chr '}', .chr '='])
        ((p.behind names ((targets.reread t).isBuilt p.dollars)).inside (.operator op)) .operand

namespace Scatter.ReadsList

variable {u : Unparser t} {slot : ℕ} {next : Scatter}

/-- A target that looks like an argument. -/
lemma cons {kind : ArgKind} {sc : Scatter} {args : ArgList}
    {names names₁ : Names} {n : ℕ} (hn : next.ReadsList u)
    (hslots₁ : u.addNames [slot] p.names = some names₁)
    (hslots₂ : u.addNames next.slots names₁ = some names) (hbuilt : next.isBuilt p.dollars = true)
    (hm : TakesArg t u.funcs p m .list args)
    (hsc : scatterFromArglist (args.snoc kind (.id slot)) = some sc) (hle : n ≤ 1)
    (hp : Admits t p.stack n) :
    ∃ op : Operator, op.level t = 1 ∧
      (∀ rhs, op.action t rhs = (.asgn (.scatter (sc.append (next.reread t))) rhs,
        vetScatter (sc.append (next.reread t)))) ∧
      ShiftsAll u.funcs p m (tokensOf ((if kind = .splice then [.tok (.chr '@')] else []) ++
          u.varChunks slot ++ (if next = .nil then [] else [.tok (.chr ','), .blank]) ++
          next.chunks u) ++ [.chr '}', .chr '='])
        ((p.behind names ((next.reread t).isBuilt p.dollars)).inside (.operator op)) .operand := by
  obtain ⟨p', m', hs, ha⟩ := ArgList.ReadsBack.advance_arg
    (ArgList.ReadsBack.arg kind (Expr.ReadsBack.id slot) ⟨rfl, hslots₁⟩ hm)
  by_cases hnil : next = .nil
  · subst hnil
    obtain rfl : names₁ = names := Option.some.inj hslots₂
    have hbrace := hs.snoc (.chr '}') (r := p.behind names₁ true) (ha _ ⟨by simp, by simp⟩ rfl)
    refine ⟨.asgn (.list (args.snoc kind (.id slot))), rfl, fun rhs => ?_, ?_⟩
    · rw [reread, append_nil]
      exact makeAsgn_list hsc (args.snoc_ne_nil kind _) rhs
    · have hall := hbrace.snoc (.chr '=')
        (r := (p.behind names₁ true).inside (.operator (.asgn (.list (args.snoc kind (.id slot))))))
        (Parser.complete_of_admits (p := p.behind names₁ true) hp rfl hle)
      simpa [chunks, Expr.chunks, reread, isBuilt] using hall
  · have hcomma := hs.snoc (.chr ',') (r := p.behind names₁ true) (ha _ ⟨by simp, by simp⟩ rfl)
    have hopt : (p.behind names₁ true).advance u.funcs
        (.nextArg .list (args.snoc kind (.id slot))) (.chr '?' : Token t)
          = .shift (p.behind names₁ true) (.optTarget sc) := by
      show (p.behind names₁ true).nextArg .list (args.snoc kind (.id slot)) (.chr '?' : Token t) = _
      rw [Parser.nextArg, if_pos ⟨rfl, rfl⟩, hsc]
    obtain ⟨op, hop, haction, hs'⟩ := hn (p := p.behind names₁ true) ⟨hbuilt, hslots₂⟩ hnil .next
      hopt hsc hle hp
    refine ⟨op, hop, haction, ?_⟩
    simpa [Expr.chunks, hnil] using hcomma.append hs'

lemma required (hn : next.ReadsList u) : (Scatter.required slot next).ReadsList u := by
  intro p m names args before n hfits _ hm _ hsc hle hp
  obtain ⟨names₁, hslots₁, hslots₂⟩ :=
    Unparser.addNames_split (show u.addNames ([slot] ++ next.slots) p.names = some names from
      hfits.slots)
  obtain ⟨op, hop, haction, hs⟩ := hn.cons hslots₁ hslots₂ hfits.built hm
    (scatterFromArglist_snoc hsc slot).1 hle hp
  rw [append_append] at haction
  refine ⟨op, hop, haction, ?_⟩
  simpa [chunks, reread, isBuilt] using hs

lemma rest (hn : next.ReadsList u) : (Scatter.rest slot next).ReadsList u := by
  intro p m names args before n hfits _ hm _ hsc hle hp
  obtain ⟨names₁, hslots₁, hslots₂⟩ :=
    Unparser.addNames_split (show u.addNames ([slot] ++ next.slots) p.names = some names from
      hfits.slots)
  obtain ⟨op, hop, haction, hs⟩ := hn.cons hslots₁ hslots₂ hfits.built hm
    (scatterFromArglist_snoc hsc slot).2 hle hp
  rw [append_append] at haction
  refine ⟨op, hop, haction, ?_⟩
  simpa [chunks, reread, isBuilt] using hs

lemma optional {dflt : Default} (hd : ∀ e, dflt = .some e → e.ReadsBack u)
    (hn : next.ReadsBack u) : (Scatter.optional slot dflt next).ReadsList u := by
  intro p m names args before n hfits _ hm hopt hsc hle hp
  obtain ⟨p', m', hs, ha⟩ := (Scatter.ReadsBack.optional_tail before hd hn hfits).after
    (.cons hopt .nil)
  have hbrace := hs.snoc (.chr '}') (r := p.behind names _) (ha _ (Or.inr rfl))
  have hall := hbrace.snoc (.chr '=') (r := (p.behind names _).inside (.operator (.scatter _))) rfl
  refine ⟨.scatter (before.append ((Scatter.optional slot dflt next).reread t)), rfl,
    fun rhs => rfl, ?_⟩
  simpa [chunks] using hall

end Scatter.ReadsList

/-! ### Assignments -/

lemma Expr.one_le_prec {e : Expr} {dollars : Bool} (h : e.isBuilt dollars = true) : 1 ≤ e.prec := by
  cases e with
  | binary op _ _ => exact Nat.le_trans (by decide) op.prec_bounds.1
  | scatter targets => simp [isBuilt] at h
  | _ => simp [prec]

lemma Expr.isIndexTarget_of_isLvalue {e : Expr} (h : e.isLvalue = true) :
    13 ≤ e.prec ∧ (∀ args, e ≠ .list args) ∧ ∀ targets, e ≠ .scatter targets := by
  cases e <;> simp_all [isLvalue, isIndexTarget, prec]

lemma makeAsgn_of_not_list {lhs : Expr} (h : ∀ args, lhs ≠ .list args) (rhs : Expr) :
    makeAsgn lhs rhs = (.asgn lhs rhs, lhs.isLvalue) := by
  cases lhs with
  | list args => exact absurd rfl (h args)
  | _ => rfl

lemma Expr.isBuilt_asgn_eq {lhs : Expr} (h : ∀ targets, lhs ≠ .scatter targets) (rhs : Expr)
    (dollars : Bool) : (asgn lhs rhs).isBuilt dollars
      = (lhs.isLvalue && lhs.isBuilt dollars && rhs.isBuilt dollars) := by
  cases lhs with
  | scatter targets => exact absurd rfl (h targets)
  | _ => rfl

/-- What is read of a target is no list. -/
lemma Expr.reread_ne_list {e : Expr} (h : e.isLvalue = true) :
    (∀ args, e.reread t ≠ .list args) ∧ ∀ targets, e.reread t ≠ .scatter targets := by
  have hcore : (e.core t).isNumericLiteral = false ∧ (∀ args, e.core t ≠ .list args) ∧
      ∀ targets, e.core t ≠ .scatter targets := by
    cases e <;> simp_all [isLvalue, isIndexTarget, core, isNumericLiteral]
  cases hminus : e.minus with
  | false => simpa [reread, hminus] using hcore.2
  | true =>
    rw [reread, hminus, withSign, if_pos rfl, makeUnary_of_not fun _ => hcore.1]
    exact ⟨fun _ => by simp, fun _ => by simp⟩

lemma Scatter.reread_ne_nil {targets : Scatter} (h : targets ≠ .nil) :
    targets.reread t ≠ .nil := by
  cases targets <;> simp_all [reread]

namespace Expr.ReadsBack

variable {u : Unparser t} {lhs rhs : Expr}

lemma asgn (hl : lhs.ReadsBack u) (hr : rhs.ReadsBack u) (hlhs : lhs.isLvalue = true) :
    (Expr.asgn lhs rhs).ReadsBack u := by
  refine ⟨fun hprec => by simp [prec] at hprec, ?_⟩
  intro p names n (hprec : n ≤ 1) hn hfits hp
  obtain ⟨names₁, hslots₁, hslots₂⟩ := Unparser.addNames_split hfits.slots
  obtain ⟨h13, hlist, hscatter⟩ := isIndexTarget_of_isLvalue hlhs
  have hbuilt := hfits.built
  simp only [isBuilt_asgn_eq hscatter, Bool.and_eq_true] at hbuilt
  have hs := (hl.all (n := 2) (Nat.le_trans (by decide) h13) (by decide) ⟨hbuilt.1.2, hslots₁⟩
    (hp.mono (Nat.le_succ_of_le hprec))).shift_operator (.chr '=') (f := .operator (.asgn _)) hp rfl
    hprec ⟨⟨by simp, by simp⟩, rfl⟩ rfl
  have hall := hs.reduce (hr.all (n := 1) (p := (p.behind names₁ _).inside (.operator (.asgn _)))
    (one_le_prec hbuilt.2) (by decide) ⟨hbuilt.2, hslots₂⟩ (.of_right rfl (Or.inl rfl))) hprec hprec
  rw [Operator.action, makeAsgn_of_not_list (reread_ne_list hlhs).1] at hall
  rw [chunks, tokensOf_append, tokensOf_append, tokensOf_infixChunks]
  have hcore : (Expr.asgn lhs rhs).core t = .asgn (lhs.reread t) (rhs.reread t) := rfl
  have hreread : (Expr.asgn lhs rhs).reread t = .asgn (lhs.reread t) (rhs.reread t) := rfl
  rw [hcore, hreread, isBuilt_asgn_eq (reread_ne_list hlhs).2, isBuilt_reread, isBuilt_reread]
  simpa [Bool.and_comm, Bool.and_left_comm, Bool.and_assoc] using hall

lemma asgn_scatter {targets : Scatter} (hl : targets.ReadsList u) (hr : rhs.ReadsBack u) :
    (Expr.asgn (.scatter targets) rhs).ReadsBack u := by
  refine ⟨fun hprec => by simp [prec] at hprec, ?_⟩
  intro p names n (hprec : n ≤ 1) hn hfits hp
  obtain ⟨names₁, hslots₁, hslots₂⟩ := Unparser.addNames_split hfits.slots
  have hbuilt := hfits.built
  simp only [isBuilt, Bool.and_eq_true, decide_eq_true_eq] at hbuilt
  obtain ⟨op, hop, haction, hs⟩ := hl (p := p) ⟨hbuilt.1.2, hslots₁⟩ hbuilt.1.1.1.1 .first
    (rfl : p.advance u.funcs (.args .list) (.chr '?' : Token t) = .shift p (.optTarget .nil)) rfl
    hprec hp
  have hopen : ShiftsAll u.funcs p .operand [(.chr '{' : Token t)] p (.args .list) :=
    .cons rfl .nil
  have hall := (hopen.append hs).reduce (hr.all (n := 1)
    (p := (p.behind names₁ _).inside (.operator op)) (one_le_prec hbuilt.2) (by decide)
    ⟨hbuilt.2, hslots₂⟩ (.of_right hop (Or.inl rfl))) hprec (hprec.trans_eq hop.symm)
  rw [haction] at hall
  have hcore : (Expr.asgn (.scatter targets) rhs).core t
      = .asgn (.scatter (targets.reread t)) (rhs.reread t) := rfl
  have hreread : (Expr.asgn (.scatter targets) rhs).reread t
      = .asgn (.scatter (targets.reread t)) (rhs.reread t) := rfl
  have hvet : ((Expr.asgn (.scatter targets) rhs).core t).isBuilt p.dollars
      = ((targets.reread t).isBuilt p.dollars && (rhs.core t).isBuilt p.dollars &&
        vetScatter (targets.reread t)) := by
    rw [hcore, isBuilt, isBuilt_reread, vetScatter]
    simp [Scatter.reread_ne_nil hbuilt.1.1.1.1, Bool.and_comm, Bool.and_assoc]
  rw [hvet, hreread]
  simpa [chunks, Scatter.append, Bool.and_assoc] using hall

end Expr.ReadsBack

/-! ### All expressions -/

mutual
/-- The tokens of a printed expression are read. -/
lemma Expr.readsBack {u : Unparser t} (e : Expr) {dollars : Bool} (hp : e.IsPrinted u)
    (hb : e.isBuilt dollars = true) : e.ReadsBack u := by
  match e with
  | .var v => exact .var v
  | .id slot => exact .id slot
  | .length => exact .length
  | .prop lhs rhs =>
    simp only [Expr.isBuilt, Bool.and_eq_true] at hb
    exact .prop (lhs.readsBack hp.1 hb.1) (rhs.readsBack hp.2 hb.2)
  | .verb obj name args =>
    simp only [Expr.isBuilt, Bool.and_eq_true] at hb
    exact .verb (obj.readsBack hp.1 hb.1.1) (name.readsBack hp.2.1 hb.1.2)
      (args.readsBack hp.2.2 hb.2)
  | .index lhs rhs =>
    simp only [Expr.isBuilt, Bool.and_eq_true] at hb
    exact .index (lhs.readsBack hp.1 hb.1) (rhs.readsBack hp.2 hb.2)
  | .range base lo hi =>
    simp only [Expr.isBuilt, Bool.and_eq_true] at hb
    exact .range (base.readsBack hp.1 hb.1.1) (lo.readsBack hp.2.1 hb.1.2)
      (hi.readsBack hp.2.2 hb.2)
  | .asgn (.scatter targets) rhs =>
    simp only [Expr.isBuilt, Bool.and_eq_true] at hb
    exact .asgn_scatter (targets.readsBack hp.1 hb.1.2).2 (rhs.readsBack hp.2 hb.2)
  | .asgn (.var _) rhs | .asgn (.id _) rhs | .asgn (.prop _ _) rhs | .asgn (.verb _ _ _) rhs
  | .asgn (.index _ _) rhs | .asgn (.range _ _ _) rhs | .asgn (.asgn _ _) rhs
  | .asgn (.call _ _) rhs | .asgn (.binary _ _ _) rhs | .asgn (.unary _ _) rhs
  | .asgn (.logical _ _ _) rhs | .asgn (.list _) rhs | .asgn (.cond _ _ _) rhs
  | .asgn (.catchExpr _ _ _) rhs | .asgn .length rhs =>
    obtain ⟨hl, hlhs, hrhs⟩ | ⟨_, h, _⟩ := Expr.isBuilt_asgn hb
    · exact .asgn (Expr.readsBack _ hp.1 hlhs) (rhs.readsBack hp.2 hrhs) hl
    · cases h
  | .scatter _ => simp [Expr.isBuilt] at hb
  | .call func args =>
    simp only [Expr.isBuilt, Bool.and_eq_true] at hb
    exact .call hp.1 (args.readsBack hp.2 hb.2)
  | .list args => exact .list (args.readsBack hp hb)
  | .binary op lhs rhs =>
    simp only [Expr.isBuilt, Bool.and_eq_true] at hb
    exact .binary op (lhs.readsBack hp.2.1 hb.1) (rhs.readsBack hp.2.2 hb.2)
  | .logical op lhs rhs =>
    simp only [Expr.isBuilt, Bool.and_eq_true] at hb
    exact .logical op (lhs.readsBack hp.1 hb.1) (rhs.readsBack hp.2 hb.2)
  | .unary op e =>
    simp only [Expr.isBuilt, Bool.and_eq_true] at hb
    exact .unary op (e.readsBack hp.2 hb.2)
  | .cond c a b =>
    simp only [Expr.isBuilt, Bool.and_eq_true] at hb
    exact .cond (c.readsBack hp.1 hb.1.1) (a.readsBack hp.2.1 hb.1.2) (b.readsBack hp.2.2 hb.2)
  | .catchExpr body codes dflt =>
    simp only [Expr.isBuilt, Bool.and_eq_true] at hb
    exact .catchExpr (body.readsBack hp.1 hb.1.1) (codes.readsBack hp.2.1 hb.1.2)
      (dflt.readsBack hp.2.2 hb.2)

lemma Default.readsBack {u : Unparser t} (dflt : Default) {dollars : Bool}
    (hp : dflt.IsPrinted u) (hb : dflt.isBuilt dollars = true) :
    ∀ e, dflt = .some e → e.ReadsBack u := by
  match dflt with
  | .none => rintro _ ⟨⟩
  | .some e =>
    rintro _ ⟨⟩
    exact e.readsBack hp hb

lemma ArgList.readsBack {u : Unparser t} (args : ArgList) {dollars : Bool}
    (hp : args.IsPrinted u) (hb : args.isBuilt dollars = true) : args.ReadsBack u := by
  match args with
  | .nil =>
    intro _ _ _ _ _ _ _ hnil
    exact absurd rfl hnil
  | .cons kind e next =>
    simp only [ArgList.isBuilt, Bool.and_eq_true] at hb
    exact .cons (e.readsBack hp.1 hb.1) (next.readsBack hp.2 hb.2)

lemma Scatter.readsBack {u : Unparser t} (targets : Scatter) {dollars : Bool}
    (hp : targets.IsPrinted u) (hb : targets.isBuilt dollars = true) :
    targets.ReadsBack u ∧ targets.ReadsList u := by
  match targets with
  | .nil =>
    constructor
    · intro _ _ _ _ hnil
      exact absurd rfl hnil
    · intro _ _ _ _ _ _ _ hnil
      exact absurd rfl hnil
  | .required slot next =>
    obtain ⟨hback, hlist⟩ := next.readsBack hp.2 hb
    exact ⟨Scatter.ReadsBack.required hback, Scatter.ReadsList.required hlist⟩
  | .rest slot next =>
    obtain ⟨hback, hlist⟩ := next.readsBack hp.2 hb
    exact ⟨Scatter.ReadsBack.rest hback, Scatter.ReadsList.rest hlist⟩
  | .optional slot dflt next =>
    simp only [Scatter.isBuilt, Bool.and_eq_true] at hb
    have hd := dflt.readsBack hp.2.1 hb.1
    have hn := (next.readsBack hp.2.2 hb.2).1
    exact ⟨Scatter.ReadsBack.optional hd hn, Scatter.ReadsList.optional hd hn⟩
end

end LambdaMOO
