import Tabletop.Value
import Tabletop.Expr.Lexeme

/-
  Expressions of the macro language.

  1. **The tree** — literals, dice, variables, calls, two unary and twelve binary operators, and
     assignments.

  2. **Precedence** — binary operators stand on six levels, the loosest first, and group to the left.
-/
namespace Tabletop

/-- The operators with one operand. -/
inductive UnaryOp where
  | negate
  | not
deriving DecidableEq, Repr, Inhabited

/-- The operators with two operands. -/
inductive BinaryOp where
  | add
  | sub
  | mul
  | div
  | eq
  | ne
  | lt
  | le
  | gt
  | ge
  | and
  | or
deriving DecidableEq, Repr, Inhabited

/-- An expression. -/
inductive Expr where
  | literal (v : Value)
  | dice (notation_ : String)
  | variable (name : String)
  | call (name : String) (args : List Expr)
  | unary (op : UnaryOp) (x : Expr)
  | binary (op : BinaryOp) (l r : Expr)
  | assign (name : String) (x : Expr)
deriving Repr, Inhabited

namespace BinaryOp

/-- How many levels of precedence there are. -/
def levels : Nat := 6

/-- The level of an operator; a higher one binds tighter. -/
def level : BinaryOp → Nat
  | .or => 0
  | .and => 1
  | .eq => 2
  | .ne => 2
  | .lt => 3
  | .le => 3
  | .gt => 3
  | .ge => 3
  | .add => 4
  | .sub => 4
  | .mul => 5
  | .div => 5

/-- The sign of an operator. -/
def sign : BinaryOp → OperatorSign
  | .add => .plus
  | .sub => .minus
  | .mul => .star
  | .div => .slash
  | .eq => .eq
  | .ne => .ne
  | .lt => .lt
  | .le => .le
  | .gt => .gt
  | .ge => .ge
  | .and => .and
  | .or => .or

/-- The operator of a sign between two operands. -/
def ofSign? : OperatorSign → Option BinaryOp
  | .plus => some .add
  | .minus => some .sub
  | .star => some .mul
  | .slash => some .div
  | .eq => some .eq
  | .ne => some .ne
  | .lt => some .lt
  | .le => some .le
  | .gt => some .gt
  | .ge => some .ge
  | .and => some .and
  | .or => some .or
  | .not => none
  | .assign => none

@[simp] theorem ofSign?_sign (op : BinaryOp) : ofSign? op.sign = some op := by cases op <;> rfl

theorem level_lt_levels (op : BinaryOp) : op.level < levels := by cases op <;> decide

end BinaryOp

end Tabletop
