import Tabletop.Assoc
import Tabletop.Decimal.Binary
import Tabletop.Binary64.Reading

/-
  JSON trees.

  1. **The tree** — arrays are lists, objects association lists in the order in which the fields
     came.  A number is an integer of 64 bits or a binary floating-point number; the two kinds are
     never equal, since they are written differently.

  2. **Trees and scalars** — the macro language holds arrays and objects only; `isTree` tells them
     from the scalars that they are made of.
-/
namespace Tabletop

/-- A JSON number. -/
inductive JsonNumber where
  /-- An integer, from `-2 ^ 63` up to below `2 ^ 64`. -/
  | integer (n : Int)
  /-- Every other number. -/
  | float (x : Binary64)
deriving DecidableEq, Repr, Inhabited

/-- A JSON document. -/
inductive Json where
  | null
  | bool (b : Bool)
  | number (n : JsonNumber)
  | string (s : String)
  | array (items : List Json)
  | object (fields : List (String × Json))
deriving Repr, Inhabited

namespace JsonNumber

/-- Equality of numbers of one kind. -/
def same : JsonNumber → JsonNumber → Bool
  | .integer m, .integer n => m == n
  | .float x, .float y => x.same y
  | _, _ => false

end JsonNumber

namespace Json

/-- An integer as a JSON number. -/
def ofInt (n : Int) : Json := .number (.integer n)

/-- An array or an object. -/
def isTree : Json → Bool
  | .array _ => true
  | .object _ => true
  | _ => false

/-- The value of a field; only objects have fields. -/
def field? (key : String) : Json → Option Json
  | .object fields => Assoc.get? fields key
  | _ => none

/-! ## Equality -/

mutual

/-- Equality of documents, in which the order of an object's fields does not count. -/
def same : Json → Json → Bool
  | .null, .null => true
  | .bool a, .bool b => a == b
  | .number m, .number n => m.same n
  | .string s, .string t => s == t
  | .array xs, .array ys => sameItems xs ys
  | .object fs, .object gs => fs.length == gs.length && sameFields fs gs
  | _, _ => false

/-- Arrays are equal item by item. -/
def sameItems : List Json → List Json → Bool
  | [], [] => true
  | x :: xs, y :: ys => x.same y && sameItems xs ys
  | _, _ => false

/-- Every field of the first object is in the second, with an equal value. -/
def sameFields : List (String × Json) → List (String × Json) → Bool
  | [], _ => true
  | (k, x) :: fs, gs =>
    (match Assoc.get? gs k with
      | some y => x.same y
      | none => false) && sameFields fs gs

end

/-! ## Fields given more than once -/

mutual

/-- The document in which a repeated field of an object keeps its first place and last value. -/
def unique : Json → Json
  | .array xs => .array (uniqueItems xs)
  | .object fs => .object (Assoc.ofList (uniqueFields fs))
  | scalar => scalar

/-- `unique` for every item. -/
def uniqueItems : List Json → List Json
  | [] => []
  | x :: xs => x.unique :: uniqueItems xs

/-- `unique` for every field's value. -/
def uniqueFields : List (String × Json) → List (String × Json)
  | [] => []
  | (k, x) :: fs => (k, x.unique) :: uniqueFields fs

end

end Json

end Tabletop
