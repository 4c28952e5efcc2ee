import Tabletop.Decimal.Basic
import Tabletop.Text.Blank

/-
  Reading and writing decimal numbers.

  1. **The literal** — blanks, at most one sign, digits, and optionally a point with digits behind
     it.  Nothing else is a number: no exponent, no point without digits on both sides.

  2. **Long literals** — the whole part has to fit.  Behind the point digits are taken as long as
     the number still fits; the first one that does not fit rounds the last place, half up, and the
     rest is dropped.  If that carry does not fit either, one more place is given up.

  3. **Writing** — `render` writes all places; `display` the number without zeros at the end.
-/
namespace Tabletop.Decimal

/-! ## Reading -/

/-- The value of a digit. -/
def digitValue (c : Char) : Nat := c.toNat - '0'.toNat

/-- A text of one digit or more, and nothing else. -/
def isDigits (cs : List Char) : Bool := !cs.isEmpty && cs.all Char.isDigit

/-- Half up by the first digit that was left out; `none` if the carry does not fit without places. -/
def roundLast (m scale digit : Nat) : Option (Nat × Nat) :=
  if digit < 5 then some (m, scale)
  else if m + 1 < coefficientBound then some (m + 1, scale)
  else match scale with
    | 0 => none
    | s + 1 => some ((m + 5) / 10, s)

/-- Takes the digits behind the point into the coefficient `m`, which has `scale` places so far. -/
def readPlaces (m scale : Nat) : List Char → Option (Nat × Nat)
  | [] => some (m, scale)
  | c :: cs =>
    if scale < maxScale ∧ m * 10 + digitValue c < coefficientBound then
      readPlaces (m * 10 + digitValue c) (scale + 1) cs
    else roundLast m scale (digitValue c)

/-- The number with these digits before and behind the point. -/
def ofDigits? (whole places : List Char) : Option (Nat × Nat) :=
  let m := Nat.ofDigitChars 10 whole 0
  if m < coefficientBound then readPlaces m 0 places else none

/-- Reads an unsigned literal. -/
def readUnsigned? (cs : List Char) : Option (Nat × Nat) :=
  let whole := cs.takeWhile (· ≠ '.')
  match cs.dropWhile (· ≠ '.') with
  | [] => if isDigits whole then ofDigits? whole [] else none
  | _ :: places => if isDigits whole && isDigits places then ofDigits? whole places else none

/-- Reads a literal with an optional sign. -/
def readSigned? : List Char → Option Decimal
  | '-' :: cs => (readUnsigned? cs).map fun r => ⟨-(r.1 : Int), r.2⟩
  | '+' :: cs => (readUnsigned? cs).map fun r => ⟨r.1, r.2⟩
  | cs => (readUnsigned? cs).map fun r => ⟨r.1, r.2⟩

/-- The number that a text writes, blanks around it aside. -/
def ofText? (s : String) : Option Decimal := readSigned? (Text.trimChars s.toList)

/-! ## Writing -/

/-- The digits of `m` with the point in front of the last `scale` of them. -/
def placedDigits (m scale : Nat) : List Char :=
  let digits := Nat.toDigits 10 m
  match scale with
  | 0 => digits
  | s + 1 =>
    let padded := List.replicate (s + 2 - digits.length) '0' ++ digits
    padded.take (padded.length - (s + 1)) ++ '.' :: padded.drop (padded.length - (s + 1))

/-- All places of the number, as characters. -/
def renderChars (d : Decimal) : List Char :=
  (if d.coefficient < 0 then ['-'] else []) ++ placedDigits d.coefficient.natAbs d.scale

/-- All places of the number. -/
def render (d : Decimal) : String := String.ofList d.renderChars

/-- The number without zeros at the end: what every output of the language shows. -/
def display (d : Decimal) : String := d.normalize.render

/-- A whole number in decimal digits. -/
def displayInt (n : Int) : String := (ofInt n).render

end Tabletop.Decimal
