import Tabletop.Decimal.Basic

/-
  The four operations on decimal numbers.

  1. **One rule** — the answer is the exact result if it fits.  Otherwise it is rounded, ties to the
     even neighbour, to as many places as possible (`fitRatio` tries the scales downward and takes
     the first that fits).  If it does not fit without places either there is no answer.

  2. **Places** — a sum keeps the places of the longer operand, a product the places of both, a
     quotient that comes out even the places that the dividend has more; other quotients are
     written without zeros at the end.
-/
namespace Tabletop.Decimal

/-! ## Rounding -/

/-- `num / den` to the nearest integer, ties to the even one. -/
def roundRatio (num den : Nat) : Nat :=
  let q := num / den
  let r := num % den
  if 2 * r < den then q else if den < 2 * r then q + 1 else if q % 2 = 0 then q else q + 1

/-- `± num / den` with `scale` places, if the coefficient fits. -/
def atScale? (negative : Bool) (num den scale : Nat) : Option Decimal :=
  let m := roundRatio (num * 10 ^ scale) den
  if m < coefficientBound then some ⟨if negative then -(m : Int) else m, scale⟩ else none

/-- `± num / den` with as many places as fit, `scale` at most. -/
def fitRatio (negative : Bool) (num den : Nat) : Nat → Option Decimal
  | 0 => atScale? negative num den 0
  | s + 1 => (atScale? negative num den (s + 1)).orElse fun _ => fitRatio negative num den s

/-- The integer `c` divided by `10 ^ scale`, rounded to fit. -/
def fitInt (c : Int) (scale : Nat) : Option Decimal :=
  fitRatio (c < 0) c.natAbs (10 ^ scale) (min scale maxScale)

/-! ## The operations -/

/-- The sum. -/
def add (a b : Decimal) : Option Decimal :=
  let s := max a.scale b.scale
  fitInt (a.coefficientAt s + b.coefficientAt s) s

/-- The difference. -/
def sub (a b : Decimal) : Option Decimal :=
  let s := max a.scale b.scale
  fitInt (a.coefficientAt s - b.coefficientAt s) s

/-- The product; zero has no places. -/
def mul (a b : Decimal) : Option Decimal :=
  if a.isZero || b.isZero then some (ofInt 0)
  else fitInt (a.coefficient * b.coefficient) (a.scale + b.scale)

/-- The quotient; there is none by zero. -/
def div (a b : Decimal) : Option Decimal :=
  if b.isZero then none
  else if a.isZero then some (ofInt 0)
  else
    let negative := decide ((a.coefficient < 0) ≠ (b.coefficient < 0))
    let num := a.coefficient.natAbs * 10 ^ b.scale
    let den := b.coefficient.natAbs * 10 ^ a.scale
    let places := a.scale - b.scale
    if num * 10 ^ places % den = 0 then
      (atScale? negative num den places).orElse fun _ => fitRatio negative num den places
    else (fitRatio negative num den maxScale).map normalize

/-- The opposite number. -/
def neg (a : Decimal) : Decimal := ⟨-a.coefficient, a.scale⟩

end Tabletop.Decimal
