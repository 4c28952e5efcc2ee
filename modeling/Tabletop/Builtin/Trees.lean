import Tabletop.Builtin.Basic
import Tabletop.PropertyList.Text
import Tabletop.StringList

/-
  Functions on JSON arrays and objects.

  1. **Trees do not change** — every edit answers with a new tree.

  2. **Positions** — a negative position counts from the end of an array; a position outside of the
     array is an error.

  3. **Keys** — an object keeps the order of its keys; a new key comes last, and an absent key reads
     as empty text.
-/
namespace Tabletop

/-! ## Editing one place -/

/-- The place in an array that a position stands for. -/
def arrayPlace? (length : Nat) (position : Int) : Option Nat :=
  let i := if position < 0 then length + position else position
  if 0 ≤ i ∧ i < length then some i.toNat else none

namespace Builtin

open Arguments

/-- The place in an array that an argument stands for. -/
def placeAt (args : List Value) (function : String) (i length : Nat) : Except MacroError Nat := do
  let position ← intAt args function i
  match arrayPlace? length position with
  | some place => pure place
  | none => fault function i (.outOfBounds position length)

/-- The items from one place to another, both included, backwards if the first is the later one. -/
def sliceOf (items : List Json) (first last : Nat) : List Json :=
  if first ≤ last then (items.drop first).take (last + 1 - first)
  else ((items.drop last).take (first + 1 - last)).reverse

/-- The object of some keys of an object. -/
def pickFields (fields : List (String × Json)) (keys : List String) : Json :=
  .object (Assoc.ofList (keys.map fun k => (k, (Assoc.get? fields k).getD (.string ""))))

def jsonGet : Builtin :=
  computing "json.get" (.atLeast 2)
    ("Read keys of an object or indexes of an array  Several object keys give an object of those " ++
      "keys. Two array indexes give the inclusive slice between them, reversed when start > end. " ++
      "Arrays take at most two indexes.")
    fun name args => do
      match ← treeAt args name 0 with
      | .object fields =>
        if args.length = 2 then
          pure (((Assoc.get? fields (textAt args 1)).map Value.ofJson).getD .empty)
        else pure (.tree (pickFields fields ((args.drop 1).map Value.display)))
      | .array items =>
        if args.length = 2 then
          let place ← placeAt args name 1 items.length
          pure ((items[place]?.map Value.ofJson).getD .empty)
        else if 3 < args.length then .error (.arity name (.upTo 2 1) args.length)
        else
          let first ← placeAt args name 1 items.length
          let last ← placeAt args name 2 items.length
          pure (.tree (.array (sliceOf items first last)))
      | _ => fault name 0 .scalar

/-- The tree with one key or place set; `i` is the position of the key among the arguments. -/
def setEntry (args : List Value) (function : String) (i : Nat) (key v : Value) :
    Json → Except MacroError Json
  | .object fields => .ok (.object (Assoc.insert fields key.display v.toJson))
  | .array items => do
    let place ← placeAt args function i items.length
    pure (.array (items.set place v.toJson))
  | _ => fault function 0 .scalar

/-- Sets keys and values that follow each other, from the argument at `i` on. -/
def setEntries (args : List Value) (function : String) (i : Nat) (tree : Json) :
    List Value → Except MacroError Json
  | key :: v :: rest => do
    setEntries args function (i + 2) (← setEntry args function i key v tree) rest
  | _ => .ok tree

def jsonSet : Builtin :=
  computing "json.set" (.atLeast 3)
    "Set key/value pairs on an object, or index/value pairs on an array"
    fun name args => do
      if args.length % 2 = 0 then fault name (args.length - 1) .unpairedKeys
      else
        let tree ← treeOr args name 0 (.object [])
        pure (.tree (← setEntries args name 1 tree (args.drop 1)))

/-- How many entries a tree has. -/
def entryCount : Json → Nat
  | .object fields => fields.length
  | .array items => items.length
  | _ => 0

def jsonLength : Builtin :=
  computing "json.length" (.exactly 1) "Number of fields of an object or elements of an array"
    fun name args => do pure (.ofInt (entryCount (← treeAt args name 0)))

/-- The keys of an object, or the positions in an array. -/
def entryNames : Json → List String
  | .object fields => Assoc.keys fields
  | .array items => (List.range items.length).map fun (i : Nat) => Decimal.displayInt i
  | _ => []

/-- The separator that asks for an array. -/
def arrayWord : String := "json"

def jsonFields : Builtin :=
  computing "json.fields" (.upTo 1 1)
    "Keys of an object or indexes of an array; delimiter `json` gives an array"
    fun name args => do
      let names := entryNames (← treeAt args name 0)
      let delimiter := delimiterAt args 1 StringList.defaultDelimiter
      if Text.sameName delimiter arrayWord then
        pure (.tree (.array (names.map fun n => (Value.coerce n).toJson)))
      else pure (.text (Text.join delimiter names))

def jsonType : Builtin :=
  computing "json.type" (.exactly 1) "`OBJECT`, `ARRAY` or `UNKNOWN`"
    fun _ args =>
      match (valueAt args 0).asTree? with
      | some (.object _) => .ok (.text "OBJECT")
      | some (.array _) => .ok (.text "ARRAY")
      | _ => .ok (.text "UNKNOWN")

def jsonIsEmpty : Builtin :=
  computing "json.isEmpty" (.exactly 1) "1 for an empty tree or empty text, otherwise 0"
    fun _ args =>
      match (valueAt args 0).asTree? with
      | some (.object fields) => .ok (.ofBool fields.isEmpty)
      | some (.array items) => .ok (.ofBool items.isEmpty)
      | _ => .ok (.ofBool (textAt args 0 == ""))

/-- A key of an object, or an item of an array that is shown as this text. -/
def holds (needle : String) : Json → Bool
  | .object fields => Assoc.contains fields needle
  | .array items => items.any fun x => (Value.ofJson x).display == needle
  | _ => false

def jsonContains : Builtin :=
  computing "json.contains" (.exactly 2) "Whether an object has a key, or an array holds a value"
    fun name args => do pure (.ofBool (holds (textAt args 1) (← treeAt args name 0)))

def jsonAppend : Builtin :=
  computing "json.append" (.atLeast 2) "Array with the values added at the end"
    fun name args => do
      match ← treeOr args name 0 (.array []) with
      | .array items => pure (.tree (.array (items ++ (args.drop 1).map Value.toJson)))
      | _ => fault name 0 .notArray

def jsonRemove : Builtin :=
  computing "json.remove" (.exactly 2) "Tree without a key or array index"
    fun name args => do
      match ← treeAt args name 0 with
      | .object fields => pure (.tree (.object (Assoc.erase fields (textAt args 1))))
      | .array items =>
        let place ← placeAt args name 1 items.length
        pure (.tree (.array (items.eraseIdx place)))
      | scalar => pure (.tree scalar)

/-! ## Text and lists -/

/-- How far a level is moved to the right unless a width is given. -/
def defaultIndent : Nat := 4

def jsonIndent : Builtin :=
  computing "json.indent" (.upTo 1 1)
    "Pretty-printed JSON text, indenting by the given width (default 4)"
    fun name args => do
      let tree ← treeAt args name 0
      if args.length = 1 then pure (.text (tree.renderIndented defaultIndent))
      else pure (.text (tree.renderIndented (← intAt args name 1).toNat))

def jsonFromList : Builtin :=
  computing "json.fromList" (.upTo 1 1) "Array built from a string list"
    fun _ args =>
      .ok (.tree (StringList.toJson (textAt args 0)
        (delimiterAt args 1 StringList.defaultDelimiter)))

def jsonFromStrProp : Builtin :=
  computing "json.fromStrProp" (.upTo 1 1) "Object built from a property list"
    fun _ args =>
      .ok (.tree (PropertyList.parse (textAt args 0)
        (delimiterAt args 1 PropertyList.defaultDelimiter)).toJson)

def jsonToList : Builtin :=
  computing "json.toList" (.upTo 1 1) "String list of array elements or object keys"
    fun name args => do
      let tree ← treeAt args name 0
      pure (.text (StringList.ofJson tree (delimiterAt args 1 StringList.defaultDelimiter)))

def jsonToStrProp : Builtin :=
  computing "json.toStrProp" (.upTo 1 1) "Property list of an object's fields"
    fun name args => do
      let tree ← treeAt args name 0
      match PropertyList.textOfJson? tree (delimiterAt args 1 PropertyList.defaultDelimiter) with
      | some s => pure (.text s)
      | none => fault name 0 .notObject

/-- The functions on trees. -/
def trees : List Builtin :=
  [jsonGet, jsonSet, jsonLength, jsonFields, jsonType, jsonIsEmpty, jsonContains, jsonAppend,
    jsonRemove, jsonIndent, jsonFromList, jsonFromStrProp, jsonToList, jsonToStrProp]

end Builtin

end Tabletop
