import Tabletop.Decimal.Arithmetic

/-
  Finite binary floating-point numbers with 53 significant bits.

  1. **The numbers** — a sign, a significand and an exponent: `± significand * 2 ^ exponent`.  The
     significand has exactly 53 bits, fewer only at the smallest exponent, so that each number
     except zero has one representation.  Zero has a sign.

  2. **Rounding** — `ofRatio` is the only place where a number is rounded: a ratio of naturals goes
     to the nearest number, a tie to the even significand, and there is none beyond the largest.

  3. **Operations** — each computes the exact result as a ratio and rounds it once.
-/
namespace Tabletop

/-- `± significand * 2 ^ exponent`. -/
structure Binary64 where
  /-- The sign; zero has one too. -/
  negative : Bool
  /-- At most 53 bits. -/
  significand : Nat
  /-- From -1074 to 971. -/
  exponent : Int
deriving DecidableEq, Repr, Inhabited

namespace Binary64

/-- The exponent of the smallest numbers. -/
def minExponent : Int := -1074

/-- The exponent of the largest numbers. -/
def maxExponent : Int := 971

/-- Zero with a sign. -/
def zero (negative : Bool) : Binary64 := ⟨negative, 0, minExponent⟩

def isZero (x : Binary64) : Bool := x.significand == 0

/-- The same number with the sign `negative`. -/
def withSign (negative : Bool) (x : Binary64) : Binary64 := { x with negative }

/-- Equality of numbers: the two zeros are equal. -/
def same (x y : Binary64) : Bool := x == y || (x.isZero && y.isZero)

/-! ## Rounding -/

/-- `num / den` in units of `2 ^ q`. -/
def inUnits (num den : Nat) (q : Int) : Nat × Nat :=
  if 0 ≤ q then (num, den * 2 ^ q.toNat) else (num * 2 ^ (-q).toNat, den)

/-- The exponent that gives `num / den` 53 bits, or the smallest exponent. -/
def exponentFor (num den : Nat) : Int :=
  let q : Int := (num.log2 : Int) - (den.log2 : Int) - 53
  let (n, d) := inUnits num den q
  max (if 2 ^ 53 ≤ n / d then q + 1 else q) minExponent

/-- The number nearest to `± num / den`, if there is one that large. -/
def ofRatio (negative : Bool) (num den : Nat) : Option Binary64 :=
  if num = 0 then some (zero negative)
  else
    let q := exponentFor num den
    let (n, d) := inUnits num den q
    let m := Decimal.roundRatio n d
    let (m, q) := if m = 2 ^ 53 then (2 ^ 52, q + 1) else (m, q)
    if q ≤ maxExponent then some ⟨negative, m, q⟩ else none

/-- The number nearest to a natural number. -/
def ofNat (n : Nat) : Option Binary64 := ofRatio false n 1

/-! ## Operations -/

/-- The magnitude as an exact ratio. -/
def ratio (x : Binary64) : Nat × Nat :=
  if 0 ≤ x.exponent then (x.significand * 2 ^ x.exponent.toNat, 1)
  else (x.significand, 2 ^ (-x.exponent).toNat)

/-- The product. -/
def mul (x y : Binary64) : Option Binary64 :=
  ofRatio (x.negative != y.negative) (x.ratio.1 * y.ratio.1) (x.ratio.2 * y.ratio.2)

/-- The quotient by a number that is not zero. -/
def div (x y : Binary64) : Option Binary64 :=
  ofRatio (x.negative != y.negative) (x.ratio.1 * y.ratio.2) (x.ratio.2 * y.ratio.1)

/-- The sum of the magnitudes. -/
def addMagnitudes (x y : Binary64) : Option Binary64 :=
  ofRatio false (x.ratio.1 * y.ratio.2 + y.ratio.1 * x.ratio.2) (x.ratio.2 * y.ratio.2)

/-- The magnitude to the nearest natural number, a half upward. -/
def roundMagnitude (x : Binary64) : Nat := (2 * x.ratio.1 + x.ratio.2) / (2 * x.ratio.2)

end Binary64

end Tabletop
