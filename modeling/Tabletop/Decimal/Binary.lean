import Tabletop.Decimal.Text
import Tabletop.Binary64.Shortest

/-
  Decimal numbers and binary floating-point numbers.

  1. **To binary** — a whole number is rounded once.  With places, the whole part and the fraction
     are rounded apart and added, and the sum is rounded back to as many places as the decimal has.

  2. **From binary** — through the shortest text of the number, if that is a decimal that fits;
     through its exponent form next; and else by scaling the exact binary fraction, which keeps
     about 16 digits (`ofBits`).  Numbers that are too large have no decimal.
-/
namespace Tabletop.Decimal

/-! ## To binary -/

/-- `r * a ^ n` by repeated squaring, every product rounded. -/
def powerLoop (r a : Binary64) (n : Nat) : Option Binary64 := do
  let r ← if n % 2 = 1 then r.mul a else some r
  if n / 2 = 0 then pure r
  else powerLoop r (← a.mul a) (n / 2)
termination_by n
decreasing_by omega

/-- The power of ten that the rounding to `scale` places uses. -/
def roundedPower (scale : Nat) : Option Binary64 := do
  powerLoop (← Binary64.ofNat 1) (← Binary64.ofNat 10) scale

/-- The binary number that stands for a decimal outside the language. -/
def toBinary? (d : Decimal) : Option Binary64 := do
  let negative := decide (d.coefficient < 0)
  let m := d.coefficient.natAbs
  if d.scale = 0 then
    pure ((← Binary64.ofNat m).withSign negative)
  else
    let p := 10 ^ d.scale
    let whole ← Binary64.ofNat (m / p)
    let fraction ← (← Binary64.ofNat (m % p)).div (← Binary64.ofNat p)
    if fraction.isZero then pure (whole.withSign negative)
    else
      let sum ← whole.addMagnitudes fraction
      let power ← roundedPower d.scale
      let rounded ← Binary64.ofNat (← sum.mul power).roundMagnitude
      pure ((← rounded.div power).withSign negative)

/-! ## From binary -/

/-- Works a binary exponent into a coefficient of 96 bits: `m * 2 ^ (-twos)` becomes
    `m * 10 ^ tens`, halving where that loses nothing, multiplying by 5 where that fits, and
    halving with a loss otherwise. -/
def lowerTwos : (twos : Nat) → (m : Nat) → (tens : Int) → Nat × Int
  | 0, m, tens => (m, tens)
  | n + 1, m, tens =>
    if m % 2 = 0 then lowerTwos n (m / 2) (tens + 1)
    else if m * 5 < coefficientBound then lowerTwos n (m * 5) tens
    else lowerTwos n (m / 2) (tens + 1)

/-- Works a positive binary exponent into the coefficient: doubling where that fits, dividing by 5
    otherwise. -/
def raiseTwos : (twos : Nat) → (m : Nat) → (tens : Int) → Nat × Int
  | 0, m, tens => (m, tens)
  | n + 1, m, tens =>
    if m < 2 ^ 95 then raiseTwos n (m * 2) (tens - 1) else raiseTwos n (m / 5) tens

/-- Brings a positive exponent of ten to 0, if the coefficient still fits. -/
def raiseTens : (tens : Nat) → Nat → Option Nat
  | 0, m => some m
  | n + 1, m => if m * 10 < coefficientBound then raiseTens n (m * 10) else none

/-- Drops `n` digits one after another, rounding half up each time; nothing is left of 0. -/
def dropDigits : (n : Nat) → Nat → Option Nat
  | 0, m => some m
  | n + 1, m => if m / 10 = 0 then none else dropDigits n (m / 10 + (if 5 ≤ m % 10 then 1 else 0))

/-- Drops places, rounding half up, until the coefficient has at most 52 bits. -/
def dropExcess : (scale : Nat) → Nat → Nat × Nat
  | 0, m => (m, 0)
  | s + 1, m =>
    if 2 ^ 52 ≤ m then
      dropExcess s (m / 10 + (if 5 ≤ m % 10 then 1 else 0))
    else (m, s + 1)

/-- The decimal of a binary number, to about 16 digits. -/
def ofBits (x : Binary64) : Option Decimal :=
  if x.isZero then some (ofInt 0)
  else do
    let (m, tens) :=
      if x.exponent ≤ 0 then lowerTwos (-x.exponent).toNat x.significand x.exponent
      else raiseTwos x.exponent.toNat x.significand x.exponent
    let m ← raiseTens tens.toNat m
    let (m, scale) :=
      if tens < -(maxScale : Int) then
        match dropDigits ((-tens).toNat - maxScale) m with
        | some m => (m, maxScale)
        | none => (0, 0)
      else (m, (-tens).toNat)
    let (m, scale) := dropExcess scale m
    pure (stripZeros (if x.negative then -(m : Int) else m) scale)

/-- A decimal from digits, scale and exponent of ten, if it is within the bounds. -/
def ofExponentForm (negative : Bool) (digits : Nat) (scale : Nat) (exponent : Int) :
    Option Decimal :=
  let c : Int := if negative then -(digits : Int) else digits
  if exponent.natAbs > maxScale then none
  else if exponent ≤ scale then
    let s := (scale - exponent).toNat
    if s ≤ maxScale then some ⟨c, s⟩ else none
  else
    let m := digits * 10 ^ (exponent - scale).toNat
    if m < coefficientBound then some (ofInt (if negative then -(m : Int) else m)) else none

/-- The decimal of a binary number, read off its shortest text. -/
def ofBinary? (x : Binary64) : Option Decimal :=
  let text := x.renderChars
  match readSigned? text with
  | some d => some d
  | none =>
    let (digits, e) := x.shortest
    let places := (Nat.toDigits 10 digits).length - 1
    (ofExponentForm x.negative digits places (e + places)).orElse fun _ => ofBits x

end Tabletop.Decimal
