import Tabletop.Binary64.Basic

/-
  The shortest decimal that reads back as a given binary number.

  1. **The interval** — every real strictly nearer to `x` than to its neighbours rounds to `x`; so
     do the two ends when the significand is even.  In quarters of the last bit the interval around
     `4 m` reaches from `4 m - 2` (`4 m - 1` where the bits below are twice as fine) to `4 m + 2`.

  2. **The search** — on the decimal grid with 1, 2, … 17 digits only the two neighbours of `x` have
     to be tried: if any point of the grid lies in the interval, one of them does.  The first grid
     with a hit wins, then the nearer of two hits, then the even one.

  3. **The text** — plain digits from 0.00001 up to below 10 ^ 16, an exponent with its sign
     elsewhere; a whole number keeps `.0`.
-/
namespace Tabletop.Binary64

/-! ## The interval -/

/-- The lower end, the number and the upper end in quarters of the last bit. -/
def quarters (x : Binary64) : Nat × Nat × Nat :=
  let fine := x.significand == 2 ^ 52 && minExponent < x.exponent
  (4 * x.significand - (if fine then 1 else 2), 4 * x.significand, 4 * x.significand + 2)

/-- `k` quarters of the last bit against `d * 10 ^ e`, as two naturals to compare. -/
def sides (x : Binary64) (k d : Nat) (e : Int) : Nat × Nat :=
  let q := x.exponent - 2
  let left := if 0 ≤ q then k * 2 ^ q.toNat else k
  let right := if 0 ≤ q then d else d * 2 ^ (-q).toNat
  if 0 ≤ e then (left, right * 10 ^ e.toNat) else (left * 10 ^ (-e).toNat, right)

/-- `d * 10 ^ e` rounds to `x`. -/
def covers (x : Binary64) (d : Nat) (e : Int) : Bool :=
  let (low, _, high) := x.quarters
  let (l, p) := x.sides low d e
  let (h, p') := x.sides high d e
  (l < p && p' < h) || (x.significand % 2 == 0 && (l == p || h == p'))

/-! ## The search -/

/-- The greatest `e` with `10 ^ e ≤ x`. -/
def decimalExponent (x : Binary64) : Int :=
  let k := (x.significand.log2 : Int) + x.exponent
  let e := (k * 30103).fdiv 100000
  let above (e : Int) : Bool := let (v, p) := x.sides (4 * x.significand) 1 e; p ≤ v
  if above (e + 1) then e + 1 else if above e then e else e - 1

/-- The digits of `x` on the grid `10 ^ e`, dropping the rest. -/
def digitsAt (x : Binary64) (e : Int) : Nat :=
  let (v, p) := x.sides (4 * x.significand) 1 e
  v / p

/-- The neighbour of `x` on the grid `10 ^ e` that reads back: the nearer one of two. -/
def onGrid (x : Binary64) (e : Int) : Option Nat :=
  let d := x.digitsAt e
  match x.covers d e, x.covers (d + 1) e with
  | true, true =>
    let (v, p) := x.sides (8 * x.significand) (2 * d + 1) e
    some (if v < p then d else if p < v then d + 1 else if d % 2 = 0 then d else d + 1)
  | true, false => some d
  | false, true => some (d + 1)
  | false, false => none

/-- Tries finer and finer grids, `fuel` of them. -/
def searchGrids (x : Binary64) (e : Int) : Nat → Nat × Int
  | 0 => (x.digitsAt e, e)
  | fuel + 1 =>
    match x.onGrid e with
    | some d => (d, e)
    | none => searchGrids x (e - 1) fuel

/-- The digits and the decimal exponent of the shortest decimal that reads back as `x`; 17 digits
    always do.  A number just below a power of ten is found as the 10 of the grid below it. -/
def shortest (x : Binary64) : Nat × Int :=
  match searchGrids x x.decimalExponent 17 with
  | (10, e) => (1, e + 1)
  | found => found

/-! ## The text -/

/-- `digits * 10 ^ e` in plain digits or with an exponent. -/
def layout (digits : List Char) (e : Int) : List Char :=
  let n : Int := digits.length
  let point := n + e
  if 0 ≤ e ∧ point ≤ 16 then digits ++ List.replicate e.toNat '0' ++ ['.', '0']
  else if 0 < point ∧ point ≤ 16 then
    digits.take point.toNat ++ '.' :: digits.drop point.toNat
  else if -5 < point ∧ point ≤ 0 then
    '0' :: '.' :: List.replicate (-point).toNat '0' ++ digits
  else
    let mantissa := match digits with
      | d :: r :: rs => d :: '.' :: r :: rs
      | ds => ds
    let x := point - 1
    mantissa ++ 'e' :: (if x < 0 then '-' else '+') :: Nat.toDigits 10 x.natAbs

/-- The text of a number. -/
def renderChars (x : Binary64) : List Char :=
  let magnitude :=
    if x.isZero then ['0', '.', '0']
    else let (d, e) := x.shortest; layout (Nat.toDigits 10 d) e
  if x.negative then '-' :: magnitude else magnitude

/-- The text of a number. -/
def render (x : Binary64) : String := String.ofList x.renderChars

end Tabletop.Binary64
