import Tabletop.Json.Basic

/-
  Writing JSON.

  1. **Strings** — only the quote, the backslash and the control characters below U+0020 are
     escaped; five of the latter have short forms, the others four hexadecimal digits in lower case.

  2. **Compact and indented** — `render` writes no blank at all.  `renderIndented` puts every item
     and field on a line of its own, one indent deeper than its container, and a blank behind the
     colon; an empty container stays on its line.
-/
namespace Tabletop.Json

/-! ## Scalars -/

/-- The hexadecimal digit of a number below 16. -/
def hexDigit (n : Nat) : Char := Nat.digitChar n

/-- One character of a string. -/
def escapeChar (c : Char) : List Char :=
  if c = '"' then ['\\', '"']
  else if c = '\\' then ['\\', '\\']
  else if c = '\x08' then ['\\', 'b']
  else if c = '\t' then ['\\', 't']
  else if c = '\n' then ['\\', 'n']
  else if c = '\x0c' then ['\\', 'f']
  else if c = '\r' then ['\\', 'r']
  else if c.toNat < 0x20 then
    ['\\', 'u', '0', '0', hexDigit (c.toNat / 16), hexDigit (c.toNat % 16)]
  else [c]

/-- The inside of a string. -/
def escape (cs : List Char) : List Char := cs.flatMap escapeChar

/-- A string in quotes. -/
def quote (s : String) : List Char := '"' :: escape s.toList ++ ['"']

/-- A number. -/
def renderNumber : JsonNumber → List Char
  | .integer n => (Decimal.ofInt n).renderChars
  | .float x => x.renderChars

/-! ## Compact text -/

mutual

/-- The compact text of a document. -/
def renderChars : Json → List Char
  | .null => ['n', 'u', 'l', 'l']
  | .bool true => ['t', 'r', 'u', 'e']
  | .bool false => ['f', 'a', 'l', 's', 'e']
  | .number n => renderNumber n
  | .string s => quote s
  | .array [] => ['[', ']']
  | .array (x :: xs) => '[' :: renderChars x ++ renderItems xs
  | .object [] => ['\x7b', '\x7d']
  | .object ((k, x) :: fs) => '\x7b' :: quote k ++ ':' :: renderChars x ++ renderFields fs

/-- The items behind the first one, and the end of the array. -/
def renderItems : List Json → List Char
  | [] => [']']
  | x :: xs => ',' :: renderChars x ++ renderItems xs

/-- The fields behind the first one, and the end of the object. -/
def renderFields : List (String × Json) → List Char
  | [] => ['\x7d']
  | (k, x) :: fs => ',' :: quote k ++ ':' :: renderChars x ++ renderFields fs

end

/-- The compact text of a document. -/
def render (j : Json) : String := String.ofList j.renderChars

/-! ## Indented text -/

/-- A new line, `depth` indents deep. -/
def newLine (indent : List Char) (depth : Nat) : List Char :=
  '\n' :: (List.replicate depth indent).flatten

mutual

/-- The indented text of a document that starts `depth` indents deep. -/
def indentedChars (indent : List Char) (depth : Nat) : Json → List Char
  | .array [] => ['[', ']']
  | .array (x :: xs) =>
    '[' :: newLine indent (depth + 1) ++ indentedChars indent (depth + 1) x ++
      indentedItems indent depth xs
  | .object [] => ['\x7b', '\x7d']
  | .object ((k, x) :: fs) =>
    '\x7b' :: newLine indent (depth + 1) ++ quote k ++ ':' :: ' ' ::
      indentedChars indent (depth + 1) x ++ indentedFields indent depth fs
  | .null => renderChars .null
  | .bool b => renderChars (.bool b)
  | .number n => renderNumber n
  | .string s => quote s

/-- The items behind the first one, and the end of the array. -/
def indentedItems (indent : List Char) (depth : Nat) : List Json → List Char
  | [] => newLine indent depth ++ [']']
  | x :: xs =>
    ',' :: newLine indent (depth + 1) ++ indentedChars indent (depth + 1) x ++
      indentedItems indent depth xs

/-- The fields behind the first one, and the end of the object. -/
def indentedFields (indent : List Char) (depth : Nat) : List (String × Json) → List Char
  | [] => newLine indent depth ++ ['\x7d']
  | (k, x) :: fs =>
    ',' :: newLine indent (depth + 1) ++ quote k ++ ':' :: ' ' ::
      indentedChars indent (depth + 1) x ++ indentedFields indent depth fs

end

/-- The indented text of a document, each level `width` blanks deeper. -/
def renderIndented (width : Nat) (j : Json) : String :=
  String.ofList (indentedChars (List.replicate width ' ') 0 j)

end Tabletop.Json
