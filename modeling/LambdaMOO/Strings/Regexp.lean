import LambdaMOO.Lib.Transducer
import LambdaMOO.Lib.Suffixes

/-!
# Patterns

A pattern of MOO and one of the bundled engine are read by the same rules but for the character
that gives others a meaning or takes it away, and for the characters that have one then.
-/

namespace LambdaMOO.Regexp

open Suffixes

/-! ## Tokens -/

/-- What can stand in a pattern, under the names of the engine. -/
inductive Token where
  | normal (c : Char)
  | anychar
  | bol
  | eol
  | optional
  | star
  | plus
  | or
  | openpar
  | closepar
  | memory (n : Nat)
  | set (complement : Bool) (members : List Char)
  | begbuf
  | endbuf
  | wordchar
  | notwordchar
  | wordbeg
  | wordend
  | wordbound
  | notwordbound
  deriving DecidableEq, Repr

/-- `^` and `$` bind less than a suffix. -/
def Token.role : Token → Role
  | .openpar => .opens
  | .closepar => .closes
  | .optional | .star | .plus => .suffix
  | .or | .bol | .eol => .other
  | _ => .item

/-- `regexp_plain_ops`, but for what starts a set or quotes. -/
def plainOps (c : Char) : Token :=
  match c with
  | '.' => .anychar
  | '^' => .bol
  | '$' => .eol
  | '?' => .optional
  | '*' => .star
  | '+' => .plus
  | c => .normal c

/-- `regexp_quoted_ops` for the syntax that MOO asks for. -/
def quotedOps (c : Char) : Token :=
  match c with
  | '(' => .openpar
  | ')' => .closepar
  | '|' => .or
  | 'w' => .wordchar
  | 'W' => .notwordchar
  | '<' => .wordbeg
  | '>' => .wordend
  | 'b' => .wordbound
  | 'B' => .notwordbound
  | '\x60' => .begbuf
  | '\x27' => .endbuf
  | c => if c.isDigit then .memory (c.toNat - '0'.toNat) else .normal c

/-- The characters that a `%` gives a meaning. -/
def percentOps (c : Char) : Token :=
  match c with
  | '(' => .openpar
  | ')' => .closepar
  | '|' => .or
  | 'w' => .wordchar
  | 'W' => .notwordchar
  | '<' => .wordbeg
  | '>' => .wordend
  | 'b' => .wordbound
  | 'B' => .notwordbound
  | c => if c.isDigit && c != '0' then .memory (c.toNat - '0'.toNat) else .normal c

/-! ## Reading a pattern -/

/-- Where a reader is: behind the character that quotes, behind the start of a set, behind its
`^`, or behind some of its members. -/
inductive ReadState where
  | base
  | quoted
  | openset
  | complemented
  | inSet (complement : Bool) (members : List Char)
  deriving DecidableEq, Repr

/-- The reader of patterns in which `quote` quotes, and in which a quoted character is what `ops`
says. The first member of a set may be a closing bracket. -/
def reader (quote : Char) (ops : Char → Token) : Transducer ReadState Char Token where
  step
    | .base, c =>
      if c = quote then ([], .quoted)
      else if c = '[' then ([], .openset)
      else ([plainOps c], .base)
    | .quoted, c => ([ops c], .base)
    | .openset, c => if c = '^' then ([], .complemented) else ([], .inSet false [c])
    | .complemented, c => ([], .inSet true [c])
    | .inSet complement members, c =>
      if c = ']' then ([.set complement members], .base)
      else ([], .inSet complement (members ++ [c]))
  finish
    | .base => some []
    | _ => none

def mooReader : Transducer ReadState Char Token := reader '%' percentOps

def yloReader : Transducer ReadState Char Token := reader '\\' quotedOps

/-- The tokens of a pattern of MOO, unless it ends with a `%` that quotes nothing or within a
set. -/
def mooTokens (pattern : List Char) : Option (List Token) := mooReader.run .base pattern

/-- The tokens of a pattern of the bundled engine. -/
def yloTokens (pattern : List Char) : Option (List Token) := yloReader.run .base pattern

end LambdaMOO.Regexp
