import Tabletop.Decimal.Arithmetic
import Tabletop.Expr.Basic
import Tabletop.Macro.Fault

/-
  What the operators of expressions compute.

  1. **Numbers first** — an operand counts as a number if it is one or if its text writes one.  `+`
     adds two numbers and joins the texts of any other two operands; `-`, `*` and `/` need numbers.

  2. **Comparison** — two numbers are compared as numbers, other operands by the text in which they
     are shown.

  3. **Truth** — comparisons and logical operators answer with 1 and 0.
-/
namespace Tabletop

/-! ## One operand -/

/-- The value of an operator with one operand. -/
def UnaryOp.apply (op : UnaryOp) (v : Value) : Except EvaluationFault Value :=
  match op with
  | .not => .ok (.ofBool !v.isTrue)
  | .negate =>
    match v.asNumber? with
    | some n => .ok (.number n.neg)
    | none => .error (.notNegatable v.display)

namespace Value

/-! ## Comparison -/

/-- How two values compare. -/
def compare (a b : Value) : Ordering :=
  match a.asNumber?, b.asNumber? with
  | some m, some n => m.compare n
  | _, _ => Ord.compare a.display b.display

/-! ## Arithmetic -/

/-- A number that still fits. -/
def ofNumber? : Option Decimal → Except EvaluationFault Value
  | some n => .ok (.number n)
  | none => .error .overflow

/-- The sum of two numbers, or the joined texts. -/
def add (a b : Value) : Except EvaluationFault Value :=
  match a.asNumber?, b.asNumber? with
  | some m, some n => ofNumber? (m.add n)
  | _, _ => .ok (.text (a.display ++ b.display))

/-- An operation on two numbers. -/
def arithmetic (f : Decimal → Decimal → Except EvaluationFault Value) (a b : Value) :
    Except EvaluationFault Value :=
  match a.asNumber?, b.asNumber? with
  | some m, some n => f m n
  | _, _ => .error (.notArithmetic a.display b.display)

/-- A quotient. -/
def divide (m n : Decimal) : Except EvaluationFault Value :=
  if n.isZero then .error .divisionByZero else ofNumber? (m.div n)

end Value

/-! ## Two operands -/

/-- The value of an operator with two operands that both have a value. -/
def BinaryOp.apply (op : BinaryOp) (a b : Value) : Except EvaluationFault Value :=
  match op with
  | .add => a.add b
  | .sub => Value.arithmetic (fun m n => Value.ofNumber? (m.sub n)) a b
  | .mul => Value.arithmetic (fun m n => Value.ofNumber? (m.mul n)) a b
  | .div => Value.arithmetic Value.divide a b
  | .eq => .ok (.ofBool (a.compare b == .eq))
  | .ne => .ok (.ofBool (a.compare b != .eq))
  | .lt => .ok (.ofBool (a.compare b == .lt))
  | .le => .ok (.ofBool (a.compare b != .gt))
  | .gt => .ok (.ofBool (a.compare b == .gt))
  | .ge => .ok (.ofBool (a.compare b != .lt))
  | .and => .ok (.ofBool (a.isTrue && b.isTrue))
  | .or => .ok (.ofBool (a.isTrue || b.isTrue))

end Tabletop
