import Tabletop.Value
import Tabletop.Text.Split

/-
  String lists: items in one text with a separator between them.

  1. **Reading** — blank text has no items; any other text has one more item than separators, each
     without the blanks around it.  Empty items count.

  2. **Writing** — items are joined with a comma and a blank, whatever separator they were read with.

  3. **Trees** — an array is written as the list of its items, an object as the list of its keys.
-/
namespace Tabletop.StringList

/-- The separator of a list unless another one is given. -/
def defaultDelimiter : String := ","

/-- What stands between the items of a list that is written. -/
def joiner : String := ", "

/-- The items of a list. -/
def items (s : String) (delimiter : String) : List String :=
  if Text.isBlankText s then []
  else (Text.split (if delimiter = "" then defaultDelimiter else delimiter) s).map Text.trim

/-- The items of a list as values. -/
def values (s : String) (delimiter : String) : List Value :=
  (items s delimiter).map Value.coerce

/-- The list with these items. -/
def render (xs : List String) : String := Text.join joiner xs

/-! ## Trees -/

/-- The array of a list's values. -/
def toJson (s : String) (delimiter : String) : Json :=
  .array ((values s delimiter).map Value.toJson)

/-- The items of an array or the keys of an object; a scalar is written by itself. -/
def ofJson (j : Json) (delimiter : String) : String :=
  match j with
  | .array xs => Text.join delimiter (xs.map fun x => (Value.ofJson x).display)
  | .object fs => Text.join delimiter (Assoc.keys fs)
  | scalar => (Value.ofJson scalar).display

end Tabletop.StringList
