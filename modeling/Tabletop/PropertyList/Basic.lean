import Tabletop.Value
import Tabletop.Text.Uppercase
import Tabletop.Text.Split

/-
  Property lists: an ordered map from keys to texts, written as `hp=10 ; ac=15 ; `.

  1. **Keys** — two keys are the same key if they agree in upper case.  A key keeps the spelling with
     which it came first; blanks around a key that is asked for do not count.

  2. **Edits** — `set` overwrites a value in place or appends an entry, `delete` takes an entry out.
     Values are kept without the blanks around them.

  3. **Layout** — an entry remembers the text that stood between the entry before it and its key, so
     that a list that was read can be written back with its own separators.
-/
namespace Tabletop

/-- A key, its value, and the text that stood in front of the key. -/
structure Property where
  key : String
  value : String
  /-- None for the first entry of a text and for entries that were added later. -/
  leading : Option String
deriving DecidableEq, Repr, Inhabited

/-- An ordered map from keys to texts. -/
structure PropertyList where
  entries : List Property
  delimiter : String
deriving DecidableEq, Repr, Inhabited

namespace PropertyList

/-- The separator of a list unless another one is given. -/
def defaultDelimiter : String := ";"

/-- The list without entries. -/
def new (delimiter : String) : PropertyList :=
  ⟨[], if delimiter = "" then defaultDelimiter else delimiter⟩

/-! ## Keys -/

/-- The form of a key that decides whether two keys are the same. -/
def keyForm (key : String) : List Char := Text.upperChars key.toList

/-- The form of a key that is asked for. -/
def soughtForm (key : String) : List Char := Text.upperChars (Text.trimChars key.toList)

/-- A key that is kept without the blanks around it is the key that was asked for. -/
theorem keyForm_trim (key : String) : keyForm (Text.trim key) = soughtForm key := by
  rw [keyForm, Text.trim, String.toList_ofList, soughtForm]

/-- The position of a key. -/
def position? (entries : List Property) (key : String) : Option Nat :=
  entries.findIdx? fun e => keyForm e.key == soughtForm key

/-- The text of a key. -/
def get? (l : PropertyList) (key : String) : Option String :=
  (l.entries.find? fun e => keyForm e.key == soughtForm key).map Property.value

/-- The value of a key. -/
def value? (l : PropertyList) (key : String) : Option Value := (l.get? key).map Value.coerce

def contains (l : PropertyList) (key : String) : Bool := (l.get? key).isSome

def keys (l : PropertyList) : List String := l.entries.map Property.key

/-- The keys and values in order. -/
def pairs (l : PropertyList) : List (String × String) := l.entries.map fun e => (e.key, e.value)

/-! ## Edits -/

/-- Overwrites the value of the first entry that has the key, if there is one. -/
def overwrite (form : List Char) (value : String) : List Property → Option (List Property)
  | [] => none
  | e :: es =>
    if keyForm e.key = form then some ({ e with value } :: es)
    else (overwrite form value es).map (e :: ·)

/-- Sets a key to a text. -/
def set (l : PropertyList) (key value : String) : PropertyList :=
  match overwrite (soughtForm key) (Text.trim value) l.entries with
  | some es => { l with entries := es }
  | none => { l with entries := l.entries ++ [⟨Text.trim key, Text.trim value, none⟩] }

/-- Takes the entry of a key out, and says whether there was one. -/
def remove (l : PropertyList) (key : String) : Bool × PropertyList :=
  match position? l.entries key with
  | some i => (true, { l with entries := l.entries.eraseIdx i })
  | none => (false, l)

/-- Takes the entry of a key out. -/
def delete (l : PropertyList) (key : String) : PropertyList := (l.remove key).2

theorem delete_eq (l : PropertyList) (key : String) : l.delete key =
    { l with entries := l.entries.eraseP fun e => keyForm e.key == soughtForm key } := by
  rw [delete, remove, position?, List.eraseP_eq_eraseIdx]
  cases l.entries.findIdx? fun e => keyForm e.key == soughtForm key <;> rfl

/-! ## Trees -/

/-- The object of the keys and coerced values. -/
def toJson (l : PropertyList) : Json :=
  .object (Assoc.ofList (l.pairs.map fun p => (p.1, (Value.coerce p.2).toJson)))

/-- The list of an object's fields; other documents have none. -/
def ofJson? (j : Json) (delimiter : String) : Option PropertyList :=
  match j with
  | .object fs =>
    some (fs.foldl (fun l f => l.set f.1 (Value.ofJson f.2).display) (new delimiter))
  | _ => none

/-- An object's fields as text, each as it is, with the separator between them. -/
def textOfJson? (j : Json) (delimiter : String) : Option String :=
  match j with
  | .object fs => some (Text.join delimiter (fs.map fun f => f.1 ++ "=" ++ (Value.ofJson f.2).display))
  | _ => none

end PropertyList

end Tabletop
