import Tabletop.Json.Basic

/-
  Records in JSON documents.

  1. **Two forms** — a record is an object with its fields by name, or an array with the values of
     the fields in order.  Fields that a record does not know are ignored in an object and refused
     in an array; a known field may stand in an object once.

  2. **Missing fields** — a required field has to be there, a defaulted field may always be missing,
     an optional field only in an object.

  3. **No conversions** — every reader of a value takes one kind of document and its range.
-/
namespace Tabletop

/-- The fields of a record that are there. -/
structure JsonRecord where
  fields : List (String × Json)
  /-- The record was written as an array. -/
  byPosition : Bool
deriving Repr, Inhabited

namespace JsonRecord

/-- Every name is the name of one field at most. -/
def onceEach (names : List String) (fields : List (String × Json)) : Bool :=
  names.all fun n => (fields.filter fun f => f.1 == n).length ≤ 1

/-- The record with these fields that a document writes. -/
def ofJson? (names : List String) : Json → Option JsonRecord
  | .array xs => if xs.length ≤ names.length then some ⟨names.zip xs, true⟩ else none
  | .object fs => if onceEach names fs then some ⟨fs, false⟩ else none
  | _ => none

/-! ## Fields -/

/-- Reads a field that has to be there. -/
def required {α : Type} (r : JsonRecord) (name : String) (read : Json → Option α) : Option α :=
  (Assoc.get? r.fields name).bind read

/-- Reads a field that has a default. -/
def defaulted {α : Type} (r : JsonRecord) (name : String) (default : α) (read : Json → Option α) :
    Option α :=
  match Assoc.get? r.fields name with
  | some j => read j
  | none => some default

end JsonRecord

namespace Json

/-- Reads a value that may be null. -/
def readNullable {α : Type} (read : Json → Option α) : Json → Option (Option α)
  | .null => some none
  | j => (read j).map some

end Json

/-- Reads a field that may be null or, in an object, missing. -/
def JsonRecord.optional {α : Type} (r : JsonRecord) (name : String) (read : Json → Option α) :
    Option (Option α) :=
  match Assoc.get? r.fields name with
  | some j => Json.readNullable read j
  | none => if r.byPosition then none else some none

namespace Json

/-! ## Values -/

/-- Reads a text. -/
def readText : Json → Option String
  | .string s => some s
  | _ => none

/-- Reads a flag. -/
def readFlag : Json → Option Bool
  | .bool b => some b
  | _ => none

/-- Reads an integer from `low` up to below `high`. -/
def readIntWithin (low high : Int) : Json → Option Int
  | .number (.integer n) => if low ≤ n ∧ n < high then some n else none
  | _ => none

/-- Reads a natural number below `bound`. -/
def readNatBelow (bound : Nat) (j : Json) : Option Nat := (readIntWithin 0 bound j).map Int.toNat

/-- Reads an array. -/
def readList {α : Type} (read : Json → Option α) : Json → Option (List α)
  | .array xs => xs.mapM read
  | _ => none

/-- Reads the fields of an object in order. -/
def readFieldList {α : Type} (read : Json → Option α) : Json → Option (List (String × α))
  | .object fs => fs.mapM fun f => (read f.2).map (f.1, ·)
  | _ => none

/-- The name of a choice and what comes with it: a text, or an object with one field. -/
def readChoice : Json → Option (String × Option Json)
  | .string s => some (s, none)
  | .object [(name, .null)] => some (name, none)
  | .object [(name, content)] => some (name, some content)
  | _ => none

end Json

end Tabletop
