import Tabletop.Decimal.Text

/-
  Dice: pools, limits, and what can be wrong with them.

  1. **A pool** — some dice of one kind, of which all count, or only the highest or lowest few.

  2. **An expression** — pools that are added up, and a flat modifier.

  3. **Limits** — a die has at most `maxSides` sides, an expression rolls at most `maxDice` dice, and
     totals stay within 64 bits.
-/
namespace Tabletop.Dice

/-- The most dice that one expression rolls. -/
def maxDice : Nat := 10000

/-- The largest die. -/
def maxSides : Nat := 1000000

/-- The rolls of a pool that count towards the total. -/
inductive Keep where
  | all
  | highest (n : Nat)
  | lowest (n : Nat)
deriving DecidableEq, Repr, Inhabited

/-- `count` dice of `sides` sides. -/
structure Pool where
  count : Nat
  sides : Nat
  keep : Keep
deriving DecidableEq, Repr, Inhabited

/-- A sum of pools and a modifier. -/
structure Expression where
  pools : List Pool
  modifier : Int
deriving DecidableEq, Repr, Inhabited

/-- What can be wrong with a notation or a roll. -/
inductive DiceError where
  | malformed (notation_ : String)
  | noSides
  | empty (notation_ : String)
  | keepTooMany (keep count : Nat)
  | tooManyDice (count : Nat)
  | tooManySides (sides : Nat)
  | overflow
deriving DecidableEq, Repr, Inhabited

/-- The wording of an error. -/
def DiceError.message : DiceError → String
  | .malformed s => "'" ++ s ++ "' is not dice notation"
  | .noSides => "A die needs at least one side"
  | .empty s => "'" ++ s ++ "' rolls no dice"
  | .keepTooMany keep count =>
    "Cannot keep " ++ Decimal.displayInt keep ++ " of " ++ Decimal.displayInt count ++ " dice"
  | .tooManyDice count =>
    "Cannot roll " ++ Decimal.displayInt count ++ " dice, the limit is " ++ Decimal.displayInt maxDice
  | .tooManySides sides =>
    "A die cannot have " ++ Decimal.displayInt sides ++ " sides, the limit is " ++
      Decimal.displayInt maxSides
  | .overflow => "Dice total is out of range"

/-! ## Pools -/

/-- How many rolls a choice keeps out of `count`. -/
def Keep.size (count : Nat) : Keep → Nat
  | .all => count
  | .highest n => n
  | .lowest n => n

/-- A pool within the limits, all of whose dice count. -/
def Pool.make (count sides : Nat) : Except DiceError Pool :=
  if sides = 0 then .error .noSides
  else if maxSides < sides then .error (.tooManySides sides)
  else if maxDice < count then .error (.tooManyDice count)
  else .ok ⟨count, sides, .all⟩

/-- The pool with a choice of rolls, which may not keep more dice than there are. -/
def Pool.keeping (p : Pool) (keep : Keep) : Except DiceError Pool :=
  if p.count < keep.size p.count then .error (.keepTooMany (keep.size p.count) p.count)
  else .ok { p with keep }

/-- All dice of an expression. -/
def Expression.count (e : Expression) : Nat := (e.pools.map Pool.count).foldr (· + ·) 0

/-- `count` dice of `sides` sides and no modifier. -/
def Expression.simple (count sides : Nat) : Except DiceError Expression := do
  pure ⟨[← Pool.make count sides], 0⟩

/-- The sum of two integers, if it stays within 64 bits. -/
def addWord (a b : Int) : Except DiceError Int :=
  if Decimal.InWord (a + b) then .ok (a + b) else .error .overflow

end Tabletop.Dice
