import Tabletop.Json.Basic

/-
  Reading JSON.

  1. **Shape of the reader** — every reader takes the characters that are left and answers with what
     it read and what is left after it, or with none.  A container is read with one level less to
     spend than the value around it, so a text nested deeper than `depthLimit` is refused.

  2. **Numbers** — the digits of the significand are gathered in 64 bits.  An integer that fits is
     an integer, except that minus zero is a float.  Everything else is a float: digits that do not
     fit any more are dropped and only their places counted, then the significand is scaled once.

  3. **Repeated fields** — `readDocument?` keeps them as written, for readers that refuse them;
     `parse?` keeps the first place and the last value.
-/
namespace Tabletop.Json

/-! ## Blanks -/

/-- The four characters that may stand between the parts of a document. -/
def isSpace (c : Char) : Bool := c == ' ' || c == '\n' || c == '\t' || c == '\r'

/-- Skips blanks. -/
def skipSpace (cs : List Char) : List Char := cs.dropWhile isSpace

/-! ## Strings -/

/-- The value of a hexadecimal digit. -/
def hexValue? (c : Char) : Option Nat :=
  let n := c.toNat
  if 0x30 ≤ n ∧ n ≤ 0x39 then some (n - 0x30)
  else if 0x41 ≤ n ∧ n ≤ 0x46 then some (n - 0x37)
  else if 0x61 ≤ n ∧ n ≤ 0x66 then some (n - 0x57)
  else none

/-- The value of four hexadecimal digits. -/
def hex4? (a b c d : Char) : Option Nat := do
  pure (((← hexValue? a) * 16 + (← hexValue? b)) * 256 + (← hexValue? c) * 16 + (← hexValue? d))

/-- The first half of a surrogate pair. -/
def isHighSurrogate (n : Nat) : Bool := 0xD800 ≤ n && n < 0xDC00

/-- The second half of a surrogate pair. -/
def isLowSurrogate (n : Nat) : Bool := 0xDC00 ≤ n && n < 0xE000

/-- The character of a surrogate pair. -/
def joinSurrogates (high low : Nat) : Char :=
  Char.ofNat (0x10000 + (high - 0xD800) * 0x400 + (low - 0xDC00))

/-- The character behind a backslash, other than `u`. -/
def unescape? : Char → Option Char
  | '"' => some '"'
  | '\\' => some '\\'
  | '/' => some '/'
  | 'b' => some '\x08'
  | 'f' => some '\x0c'
  | 'n' => some '\n'
  | 'r' => some '\r'
  | 't' => some '\t'
  | _ => none

/-- Puts a character in front of what was read. -/
def push (c : Char) (r : Option (List Char × List Char)) : Option (List Char × List Char) :=
  r.map fun p => (c :: p.1, p.2)

/-- Reads the inside of a string and its closing quote. -/
def readString : List Char → Option (List Char × List Char)
  | [] => none
  | '"' :: cs => some ([], cs)
  | '\\' :: 'u' :: a :: b :: c :: d :: cs =>
    match hex4? a b c d with
    | none => none
    | some n =>
      if isHighSurrogate n then
        match cs with
        | '\\' :: 'u' :: e :: f :: g :: h :: cs' =>
          match hex4? e f g h with
          | none => none
          | some m =>
            if isLowSurrogate m then push (joinSurrogates n m) (readString cs') else none
        | _ => none
      else if isLowSurrogate n then none
      else push (Char.ofNat n) (readString cs)
  | '\\' :: c :: cs =>
    match unescape? c with
    | none => none
    | some u => push u (readString cs)
  | c :: cs => if c.toNat < 0x20 then none else push c (readString cs)

/-! ## Numbers -/

/-- The first integer that does not fit the significand. -/
def significandBound : Nat := 2 ^ 64

/-- Gathers digits as long as they fit; answers also how many were left over. -/
def gather (m : Nat) : List Char → Nat × Nat
  | [] => (m, 0)
  | c :: cs =>
    if m * 10 + Decimal.digitValue c < significandBound then
      gather (m * 10 + Decimal.digitValue c) cs
    else (m, cs.length + 1)

/-- The largest exponent that is read as a number; a larger one means zero or out of range. -/
def exponentBound : Nat := 2 ^ 31

/-- The number with these digits before the point, behind it, and in the exponent. -/
def ofParts (negative : Bool) (whole places : List Char)
    (exponent : Option (Bool × List Char)) : Option JsonNumber :=
  let (m, dropped) := gather 0 whole
  if places.isEmpty && exponent.isNone && dropped == 0 then
    if !negative then some (.integer m)
    else if m = 0 then some (.float (Binary64.zero true))
    else if m ≤ 2 ^ 63 then some (.integer (-m))
    else (Binary64.ofScaled true m 0).map .float
  else
    let (significand, left) := gather m places
    let scale : Int := (dropped : Int) - ((places.length - left : Nat) : Int)
    match exponent with
    | none => (Binary64.ofScaled negative significand scale).map .float
    | some (down, digits) =>
      let e := Nat.ofDigitChars 10 digits 0
      if e < exponentBound then
        (Binary64.ofScaled negative significand (if down then scale - e else scale + e)).map .float
      else if down || significand == 0 then some (.float (Binary64.zero negative))
      else none

/-- Reads the exponent of a number, if there is one. -/
def readExponent : List Char → Option (Option (Bool × List Char) × List Char)
  | c :: cs =>
    if c = 'e' ∨ c = 'E' then
      let (down, cs) := match cs with
        | '-' :: r => (true, r)
        | '+' :: r => (false, r)
        | r => (false, r)
      let digits := cs.takeWhile Char.isDigit
      if digits.isEmpty then none else some (some (down, digits), cs.dropWhile Char.isDigit)
    else some (none, c :: cs)
  | [] => some (none, [])

/-- Reads the digits behind the point of a number, if there is one. -/
def readFraction : List Char → Option (List Char × List Char)
  | '.' :: cs =>
    let digits := cs.takeWhile Char.isDigit
    if digits.isEmpty then none else some (digits, cs.dropWhile Char.isDigit)
  | cs => some ([], cs)

/-- A whole part is one zero, or digits that do not start with one. -/
def isWhole : List Char → Bool
  | [] => false
  | ['0'] => true
  | c :: _ => c != '0'

/-- Reads a number behind its sign. -/
def readUnsigned (negative : Bool) (cs : List Char) : Option (JsonNumber × List Char) := do
  let whole := cs.takeWhile Char.isDigit
  if isWhole whole then
    let (places, cs) ← readFraction (cs.dropWhile Char.isDigit)
    let (exponent, cs) ← readExponent cs
    pure (← ofParts negative whole places exponent, cs)
  else none

/-- Reads a number. -/
def readNumber : List Char → Option (JsonNumber × List Char)
  | '-' :: cs => readUnsigned true cs
  | cs => readUnsigned false cs

/-! ## Documents -/

/-- How deep a document may be nested. -/
def depthLimit : Nat := 127

mutual

/-- Reads a value; every call has one step less to spend, and `depth` levels are left. -/
def readValue : (steps : Nat) → (depth : Nat) → List Char → Option (Json × List Char)
  | 0, _, _ => none
  | steps + 1, depth, cs =>
    match skipSpace cs with
    | 'n' :: 'u' :: 'l' :: 'l' :: cs => some (.null, cs)
    | 't' :: 'r' :: 'u' :: 'e' :: cs => some (.bool true, cs)
    | 'f' :: 'a' :: 'l' :: 's' :: 'e' :: cs => some (.bool false, cs)
    | '"' :: cs => (readString cs).map fun r => (.string (String.ofList r.1), r.2)
    | '[' :: cs =>
      match depth with
      | 0 => none
      | d + 1 =>
        match skipSpace cs with
        | ']' :: cs => some (.array [], cs)
        | cs => (readItems steps d cs).map fun r => (.array r.1, r.2)
    | '\x7b' :: cs =>
      match depth with
      | 0 => none
      | d + 1 =>
        match skipSpace cs with
        | '\x7d' :: cs => some (.object [], cs)
        | cs => (readFields steps d cs).map fun r => (.object r.1, r.2)
    | cs => (readNumber cs).map fun r => (.number r.1, r.2)

/-- Reads one item or more, and the end of the array. -/
def readItems : (steps : Nat) → (depth : Nat) → List Char → Option (List Json × List Char)
  | 0, _, _ => none
  | steps + 1, depth, cs =>
    match readValue steps depth cs with
    | none => none
    | some (x, cs) =>
      match skipSpace cs with
      | ']' :: cs => some ([x], cs)
      | ',' :: cs => (readItems steps depth cs).map fun r => (x :: r.1, r.2)
      | _ => none

/-- Reads one field or more, and the end of the object. -/
def readFields :
    (steps : Nat) → (depth : Nat) → List Char → Option (List (String × Json) × List Char)
  | 0, _, _ => none
  | steps + 1, depth, cs =>
    match skipSpace cs with
    | '"' :: cs =>
      match readString cs with
      | none => none
      | some (key, cs) =>
        match skipSpace cs with
        | ':' :: cs =>
          match readValue steps depth cs with
          | none => none
          | some (x, cs) =>
            match skipSpace cs with
            | '\x7d' :: cs => some ([(String.ofList key, x)], cs)
            | ',' :: cs =>
              (readFields steps depth cs).map fun r => ((String.ofList key, x) :: r.1, r.2)
            | _ => none
        | _ => none
    | _ => none

end

/-- Enough steps for a text: no reader calls another twice on the same character. -/
def stepsFor (cs : List Char) : Nat := 2 * cs.length + 2

/-- Reads a whole text, repeated fields as written. -/
def readDocument? (s : String) : Option Json :=
  match readValue (stepsFor s.toList) depthLimit s.toList with
  | some (j, rest) => if (skipSpace rest).isEmpty then some j else none
  | none => none

/-- The document that a text writes. -/
def parse? (s : String) : Option Json := (readDocument? s).map unique

end Tabletop.Json
