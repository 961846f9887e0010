import LambdaMOO.Structures

/-!
# Values

`Var` as the interpreter and the database see it, without the two types that only mark
places on a run-time stack. A waif is a reference; lists are compared by content.
-/

namespace LambdaMOO

/-- `Var`. `clear` and `none` are `TYPE_CLEAR` and `TYPE_NONE`. -/
inductive Value where
  | int (num : Int)
  | obj (obj : Int)
  | str (str : String)
  | err (err : ErrorCode)
  | float (fnum : FlNum)
  | list (list : List Value)
  | waif (waif : Nat)
  | clear
  | none
  deriving Repr

/-- `zero`. -/
def Value.zero : Value := .int 0

def Literal.toValue : Literal → Value
  | .int n => .int n
  | .obj n => .obj n
  | .str s => .str s
  | .err e => .err e
  | .float f => .float f

/-- `mystrcasecmp(s, t) == 0`. -/
def strEqual (s t : String) : Bool := s.toList.map Char.toLower = t.toList.map Char.toLower

mutual
/-- `equality` with `case_matters` off. -/
def Value.equality : Value → Value → Bool
  | .int m, .int n => m = n
  | .obj m, .obj n => m = n
  | .str s, .str t => strEqual s t
  | .err d, .err e => d = e
  | .float f, .float g => f.ceq g
  | .list us, .list vs => Value.equalities us vs
  | .waif m, .waif n => m = n
  | _, _ => false

/-- The loop over two lists. -/
def Value.equalities : List Value → List Value → Bool
  | [], [] => true
  | u :: us, v :: vs => Value.equality u v && Value.equalities us vs
  | _, _ => false
end

namespace Value

/-- `ismember(v, list, 0) != 0`. -/
def isMember (v : Value) (list : List Value) : Bool := list.any fun w => v.equality w

/-- `is_true`. -/
def isTrue : Value → Bool
  | .int n => n ≠ 0
  | .float f => f.mag ≠ 0
  | .str s => s ≠ ""
  | .list vs => !vs.isEmpty
  | _ => false

end Value

end LambdaMOO
