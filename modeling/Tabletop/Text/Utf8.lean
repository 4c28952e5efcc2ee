/-
  UTF-8: text as octets, and the forgiving way back.

  1. **Encoding** — a character takes one to four octets, the first of which tells how many.

  2. **Decoding** — octets that no character starts with, and the longest start of a character that
     is then cut short, become one replacement character each; decoding goes on behind them.
-/
namespace Tabletop.Text.Utf8

/-! ## Encoding -/

/-- The octets of a character. -/
def encodeChar (c : Char) : List Nat :=
  let n := c.toNat
  if n < 0x80 then [n]
  else if n < 0x800 then [0xC0 + n / 0x40, 0x80 + n % 0x40]
  else if n < 0x10000 then [0xE0 + n / 0x1000, 0x80 + n / 0x40 % 0x40, 0x80 + n % 0x40]
  else [0xF0 + n / 0x40000, 0x80 + n / 0x1000 % 0x40, 0x80 + n / 0x40 % 0x40, 0x80 + n % 0x40]

/-- The octets of a text. -/
def encode (cs : List Char) : List Nat := cs.flatMap encodeChar

/-! ## Decoding -/

/-- The character that stands for octets that make no sense. -/
def replacement : Char := Char.ofNat 0xFFFD

/-- An octet inside a character. -/
def isTail (b : Nat) : Bool := 0x80 ≤ b && b < 0xC0

/-- The second octet of a character of three: no shorter form, no surrogate. -/
def isSecondOf3 (a b : Nat) : Bool :=
  isTail b && (a != 0xE0 || 0xA0 ≤ b) && (a != 0xED || b < 0xA0)

/-- The second octet of a character of four: no shorter form, nothing beyond the last code. -/
def isSecondOf4 (a b : Nat) : Bool :=
  isTail b && (a != 0xF0 || 0x90 ≤ b) && (a != 0xF4 || b < 0x90)

/-- The text of octets. -/
def decode : List Nat → List Char
  | [] => []
  | a :: r =>
    if a < 0x80 then Char.ofNat a :: decode r
    else if 0xC2 ≤ a ∧ a < 0xE0 then
      match r with
      | [] => [replacement]
      | b :: r' =>
        if isTail b then Char.ofNat ((a - 0xC0) * 0x40 + (b - 0x80)) :: decode r'
        else replacement :: decode (b :: r')
    else if 0xE0 ≤ a ∧ a < 0xF0 then
      match r with
      | [] => [replacement]
      | b :: r' =>
        if isSecondOf3 a b then
          match r' with
          | [] => [replacement]
          | c :: r'' =>
            if isTail c then
              Char.ofNat ((a - 0xE0) * 0x1000 + (b - 0x80) * 0x40 + (c - 0x80)) :: decode r''
            else replacement :: decode (c :: r'')
        else replacement :: decode (b :: r')
    else if 0xF0 ≤ a ∧ a < 0xF5 then
      match r with
      | [] => [replacement]
      | b :: r' =>
        if isSecondOf4 a b then
          match r' with
          | [] => [replacement]
          | c :: r'' =>
            if isTail c then
              match r'' with
              | [] => [replacement]
              | d :: r''' =>
                if isTail d then
                  Char.ofNat ((a - 0xF0) * 0x40000 + (b - 0x80) * 0x1000 + (c - 0x80) * 0x40 +
                    (d - 0x80)) :: decode r'''
                else replacement :: decode (d :: r''')
            else replacement :: decode (c :: r'')
        else replacement :: decode (b :: r')
    else replacement :: decode r

end Tabletop.Text.Utf8
