import Tabletop.Text.Utf8
import Tabletop.Text.Split

/-
  The coding of form data, in which links carry their arguments.

  1. **Encoding** — octets of letters, digits and `*-._` stay, a blank becomes `+`, every other octet
     is written as `%` and two hexadecimal digits in upper case.

  2. **Decoding** — the other way; a `%` without two hexadecimal digits behind it stays as it is, and
     octets that are no UTF-8 are replaced.

  3. **Fields** — decoding looks at the first field only: what stands before the first `&`, empty
     fields aside.  Its name ends at the first equals sign.
-/
namespace Tabletop.Text.FormCoding

/-! ## Encoding -/

/-- The octets that stand for themselves. -/
def isKept (b : Nat) : Bool :=
  (0x30 ≤ b && b ≤ 0x39) || (0x41 ≤ b && b ≤ 0x5A) || (0x61 ≤ b && b ≤ 0x7A) ||
    b == 0x2A || b == 0x2D || b == 0x2E || b == 0x5F

/-- A hexadecimal digit in upper case. -/
def hexDigit (n : Nat) : Char := if n < 10 then Char.ofNat (0x30 + n) else Char.ofNat (0x37 + n)

/-- The written form of an octet. -/
def encodeOctet (b : Nat) : List Char :=
  if isKept b then [Char.ofNat b]
  else if b = 0x20 then ['+']
  else ['%', hexDigit (b / 16), hexDigit (b % 16)]

/-- The written form of a text. -/
def encodeChars (cs : List Char) : List Char := (Utf8.encode cs).flatMap encodeOctet

/-- The written form of a text. -/
def encode (s : String) : String := String.ofList (encodeChars s.toList)

/-! ## Decoding -/

/-- The value of a hexadecimal digit in either case. -/
def hexValue? (c : Char) : Option Nat :=
  let n := c.toNat
  if 0x30 ≤ n ∧ n ≤ 0x39 then some (n - 0x30)
  else if 0x41 ≤ n ∧ n ≤ 0x46 then some (n - 0x37)
  else if 0x61 ≤ n ∧ n ≤ 0x66 then some (n - 0x57)
  else none

/-- The octets that a written form stands for. -/
def octets : List Char → List Nat
  | [] => []
  | '+' :: cs => 0x20 :: octets cs
  | '%' :: h :: l :: cs =>
    match hexValue? h, hexValue? l with
    | some a, some b => (a * 16 + b) :: octets cs
    | _, _ => 0x25 :: octets (h :: l :: cs)
  | c :: cs => Utf8.encodeChar c ++ octets cs

/-- The text that a written form stands for. -/
def decodeChars (cs : List Char) : List Char := Utf8.decode (octets cs)

/-- The fields of a written form. -/
def fields (cs : List Char) : List (List Char) :=
  (splitChars ['&'] cs).filter fun f => !f.isEmpty

/-- The text of the first field.  If the whole form has an equals sign, so has the answer. -/
def decodeFirst (cs : List Char) : List Char :=
  match fields cs with
  | [] => []
  | f :: _ =>
    let (name, value) := (cutAt (· == '=') f).getD (f, [])
    if cs.contains '=' then decodeChars name ++ '=' :: decodeChars value else decodeChars name

end Tabletop.Text.FormCoding
