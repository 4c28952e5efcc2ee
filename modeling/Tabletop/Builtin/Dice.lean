import Tabletop.Builtin.Basic

/-
  Rolling dice by number.
-/
namespace Tabletop.Builtin

open Arguments

/-- The first number that is too large for a count of dice or sides. -/
def dieCountBound : Int := 2 ^ 32

/-- A count of dice or sides. -/
def dieCountAt (args : List Value) (function : String) (i : Nat) : Except MacroError Nat := do
  let n ← intAt args function i
  if 0 ≤ n ∧ n < dieCountBound then pure n.toNat else fault function i (.notDieCount n)

/-- The argument that an error of dice is about. -/
def blamedArgument : Dice.DiceError → Nat
  | .tooManyDice _ => 0
  | _ => 1

/-- An error of dice as an error of an argument. -/
def diceFault {α : Type} (function : String) (e : Dice.DiceError) : Except MacroError α :=
  fault function (blamedArgument e) (.dice e)

def roll : Builtin := varying <|
  acting "roll" (.exactly 2) "Roll `count` dice with `sides` sides and sum them"
    fun _ name args => do
      let count ← Action.ofExcept (dieCountAt args name 0)
      let sides ← Action.ofExcept (dieCountAt args name 1)
      match Dice.Expression.simple count sides with
      | .error e => Action.ofExcept (diceFault name e)
      | .ok dice =>
        match ← rollDice dice with
        | .error e => Action.ofExcept (diceFault name e)
        | .ok r => pure (.ofInt r.total)

/-- The functions on dice. -/
def diceRolls : List Builtin := [roll]

end Tabletop.Builtin
