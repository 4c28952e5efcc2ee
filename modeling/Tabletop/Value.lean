import Tabletop.Json.Printer
import Tabletop.Json.Reader
import Tabletop.Text.Case

/-
  The values of the macro language: numbers, texts and JSON trees.

  1. **Coercion** — text that writes a number becomes that number whenever it is read out of a list,
     a property or a tree: `coerce` is the rule, and `"007"` is 7 from then on.

  2. **Output** — the text that a body produced is read as a tree if it writes one, else coerced
     (`ofOutput`).

  3. **Storage** — `toJson` and `ofJson` put a value into a tree and take it out.  A number is stored
     as an integer of 64 bits if it is one, and as a binary float otherwise.

  4. **Display** — `display` is the text in which a value is shown, compared and concatenated.
-/
namespace Tabletop

/-- A value of the macro language. -/
inductive Value where
  | number (n : Decimal)
  | text (s : String)
  /-- An array or an object. -/
  | tree (j : Json)
deriving Repr, Inhabited

/-- The array or object that a text writes, blanks around it aside. -/
def Json.parseTree? (s : String) : Option Json :=
  let trimmed := Text.trim s
  if Text.startsWith "[" trimmed || Text.startsWith "\x7b" trimmed then
    (Json.parse? trimmed).filter Json.isTree
  else none

namespace Value

/-- The empty text. -/
def empty : Value := .text ""

/-- A whole number. -/
def ofInt (n : Int) : Value := .number (Decimal.ofInt n)

/-- A count in a word of 64 bits, read with a sign: the upper half of the words is negative. -/
def ofWord (n : Nat) : Value := ofInt (Int.bmod n (2 ^ 64))

/-- 1 for true and 0 for false. -/
def ofBool (b : Bool) : Value := ofInt (if b then 1 else 0)

/-! ## Coercion -/

/-- A number if the text writes one, else the text as it is. -/
def coerce (s : String) : Value :=
  match Decimal.ofText? s with
  | some n => .number n
  | none => .text s

/-- Coercion of a value: only texts change. -/
def coerced : Value → Value
  | .text s => coerce s
  | v => v

/-- The value that the output of a body stands for. -/
def ofOutput (s : String) : Value :=
  match Json.parseTree? s with
  | some j => .tree j
  | none => coerce s

/-! ## Trees -/

/-- The value of a node: a scalar is read as a number or text, a tree stays a tree. -/
def ofJson : Json → Value
  | .null => empty
  | .bool b => .text (if b then "true" else "false")
  | .number (.integer n) => ofInt n
  | .number (.float x) =>
    match Decimal.ofBinary? x with
    | some d => .number d
    | none => .text x.render
  | .string s => coerce s
  | .array xs => .tree (.array xs)
  | .object fs => .tree (.object fs)

/-- The node that stores a number. -/
def jsonOfDecimal (d : Decimal) : Json :=
  let n := d.normalize
  if n.scale = 0 ∧ Decimal.InWord n.coefficient then Json.ofInt n.coefficient
  else
    match n.toBinary? with
    | some x => .number (.float x)
    | none => .string n.render

/-- The node that stores a value. -/
def toJson : Value → Json
  | .number d => jsonOfDecimal d
  | .text s => .string s
  | .tree j => j

/-! ## Views -/

/-- The text in which a value is shown. -/
def display : Value → String
  | .number d => d.display
  | .text s => s
  | .tree j => j.render

/-- The number that a value is, or that its text writes. -/
def asNumber? : Value → Option Decimal
  | .number d => some d
  | .text s => Decimal.ofText? s
  | .tree _ => none

/-- The tree that a value is, or that its text writes. -/
def asTree? : Value → Option Json
  | .tree j => some j
  | .text s => Json.parseTree? s
  | .number _ => none

/-- Whether a value counts as true: zero, blank text, `false` in any case and empty trees do not. -/
def isTrue : Value → Bool
  | .number d => !d.isZero
  | .text s =>
    if Text.isBlankText s || Text.sameName (Text.trim s) "false" then false
    else
      match Decimal.ofText? s with
      | some d => !d.isZero
      | none => true
  | .tree (.array xs) => !xs.isEmpty
  | .tree (.object fs) => !fs.isEmpty
  | .tree _ => true

def isNumber : Value → Bool
  | .number _ => true
  | _ => false

/-! ## Small laws -/

@[simp] theorem display_text (s : String) : display (.text s) = s := rfl

@[simp] theorem coerced_number (d : Decimal) : coerced (.number d) = .number d := rfl

/-- Coercion changes nothing the second time. -/
@[simp] theorem coerced_coerce (s : String) : coerced (coerce s) = coerce s := by
  unfold coerce
  cases h : Decimal.ofText? s with
  | some n => rfl
  | none => simp [coerced, coerce, h]

example : ((coerce "007").display, (coerce "7 goblins").display) = ("7", "7 goblins") := by
  decide +kernel

end Value

end Tabletop
