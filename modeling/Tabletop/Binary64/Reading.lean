import Tabletop.Binary64.Basic

/-
  Reading a decimal as a binary number, the quick way.

  1. **The rule** — the digits are gathered in a 64-bit integer, which is rounded to a binary number
     and then multiplied or divided once by a power of ten that is itself rounded.  The answer may
     therefore differ from the nearest number in its last bit.

  2. **The table** — powers of ten reach to 10 ^ 308.  A smaller exponent is worked off in steps of
     308, and a larger one is out of range unless there is nothing to scale.
-/
namespace Tabletop.Binary64

/-- The largest exponent in the table. -/
def tableEnd : Nat := 308

/-- The power of ten in the table. -/
def powerOfTen (n : Nat) : Option Binary64 := ofNat (10 ^ n)

/-- Divides `steps` times by the largest power of the table; zero stays zero. -/
def shrinkSteps : (steps : Nat) → Binary64 → Option Binary64
  | 0, x => some x
  | n + 1, x =>
    if x.isZero then some x
    else do shrinkSteps n (← x.div (← powerOfTen tableEnd))

/-- Divides by `10 ^ n`: in whole steps of the table first, then by what is left. -/
def shrink (x : Binary64) (n : Nat) : Option Binary64 := do
  let steps := (n - 1) / tableEnd
  (← shrinkSteps steps x).div (← powerOfTen (n - tableEnd * steps))

/-- `± significand * 10 ^ exponent`; `none` if that is out of range. -/
def ofScaled (negative : Bool) (significand : Nat) (exponent : Int) : Option Binary64 := do
  let x ← ofNat significand
  let y ←
    if 0 ≤ exponent then
      if exponent ≤ tableEnd then (powerOfTen exponent.toNat).bind x.mul
      else if x.isZero then some x
      else none
    else shrink x (-exponent).toNat
  pure (y.withSign negative)

end Tabletop.Binary64
