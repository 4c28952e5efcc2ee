import Tabletop.Dice.Basic
import Tabletop.Text.Blank

/-
  Dice notation: `2d6+3`, `4d6kh3`, `d20-1`.

  1. **Terms** — blanks are dropped and case does not count.  Every `+` or `-` starts a term: an
     integer of 64 bits, which adds to the modifier, or a pool.  Pools cannot be subtracted.

  2. **Order of errors** — terms are read from left to right and the first fault is the answer; the
     total number of dice is checked last.

  3. **Writing** — `display` writes the pools in order and the modifier at the end.
-/
namespace Tabletop.Dice

/-! ## Characters -/

/-- Lower case of the letters that the notation is made of.  The Kelvin sign is the only character
    outside of ASCII whose lower case is inside. -/
def lowerLetter (c : Char) : Char := if c.toNat = 0x212A then 'k' else c.toLower

/-- The notation without blanks and in lower case. -/
def compact (cs : List Char) : List Char := (cs.filter (!Text.isBlank ·)).map lowerLetter

/-- A character that starts a term. -/
def isSign (c : Char) : Bool := c == '+' || c == '-'

/-- Cuts in front of every sign.  The first component is what stands before the first one; each sign
    that follows becomes a flag for minus. -/
def cutTerms : List Char → List Char × List (Bool × List Char)
  | [] => ([], [])
  | c :: cs =>
    let (head, terms) := cutTerms cs
    if isSign c then ([], (c == '-', head) :: terms) else (c :: head, terms)

/-- The terms, each with a flag for minus. -/
def signedTerms (cs : List Char) : List (Bool × List Char) :=
  let (head, terms) := cutTerms cs
  if head.isEmpty then terms else (false, head) :: terms

/-! ## One term -/

/-- The natural number that digits write, if it is below `bound`. -/
def readBelow? (bound : Nat) (digits : List Char) : Option Nat :=
  if Decimal.isDigits digits && Nat.ofDigitChars 10 digits 0 < bound then
    some (Nat.ofDigitChars 10 digits 0)
  else none

/-- The choice behind the sides of a pool, and whether it is well formed. -/
def readKeep? : List Char → Option Keep
  | [] => some .all
  | 'k' :: 'h' :: digits => (readBelow? (2 ^ 32) digits).map .highest
  | 'k' :: 'l' :: digits => (readBelow? (2 ^ 32) digits).map .lowest
  | _ => none

/-- Reads `count d sides` and an optional choice; a missing count is 1. -/
def readPool? (cs : List Char) : Option (Nat × Nat × Keep) := do
  let digits := cs.takeWhile Char.isDigit
  let count ← if digits.isEmpty then some 1 else readBelow? (2 ^ 32) digits
  match cs.dropWhile Char.isDigit with
  | 'd' :: cs =>
    let sides ← readBelow? (2 ^ 32) (cs.takeWhile Char.isDigit)
    let keep ← readKeep? (cs.dropWhile Char.isDigit)
    pure (count, sides, keep)
  | _ => none

/-- Adds a term to an expression; `source` is the notation that a fault is reported with. -/
def addTerm (source : String) (e : Expression) (term : Bool × List Char) :
    Except DiceError Expression :=
  match readBelow? (2 ^ 63) term.2 with
  | some n => do pure { e with modifier := ← addWord e.modifier (if term.1 then -(n : Int) else n) }
  | none =>
    match readPool? term.2 with
    | none => .error (.malformed source)
    | some (count, sides, keep) =>
      if term.1 then .error (.malformed source)
      else do
        let pool ← Pool.make count sides
        pure { e with pools := e.pools ++ [← pool.keeping keep] }

/-! ## The notation -/

/-- Reads a notation. -/
def Expression.parse (source : String) : Except DiceError Expression := do
  let name := Text.trim source
  let cs := compact source.toList
  if cs.all (·.toNat < 128) then
    let e ← (signedTerms cs).foldlM (addTerm name) ⟨[], 0⟩
    if e.pools.isEmpty then .error (.empty name)
    else if maxDice < e.count then .error (.tooManyDice e.count)
    else pure e
  else .error (.malformed name)

/-- The characters of a natural number. -/
def digitsOf (n : Nat) : List Char := Nat.toDigits 10 n

/-- The notation of a choice. -/
def Keep.chars : Keep → List Char
  | .all => []
  | .highest n => 'k' :: 'h' :: digitsOf n
  | .lowest n => 'k' :: 'l' :: digitsOf n

/-- The notation of a pool. -/
def Pool.chars (p : Pool) : List Char := digitsOf p.count ++ 'd' :: digitsOf p.sides ++ p.keep.chars

/-- The notation of a modifier; zero is not written. -/
def modifierChars (m : Int) : List Char :=
  if m = 0 then [] else if 0 < m then '+' :: digitsOf m.natAbs else '-' :: digitsOf m.natAbs

/-- The notation of the pools. -/
def poolChars : List Pool → List Char
  | [] => []
  | [p] => p.chars
  | p :: ps => p.chars ++ '+' :: poolChars ps

/-- The notation of an expression. -/
def Expression.display (e : Expression) : String :=
  String.ofList (poolChars e.pools ++ modifierChars e.modifier)

end Tabletop.Dice
