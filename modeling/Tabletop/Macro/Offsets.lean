import Tabletop.Macro.Body
import Tabletop.Text.Utf8

/-
  Bodies that are read by offsets.

  The segments of a body can also be found on the octets of its text.  A scan then goes from octet to
  octet, signs are told by their octets, and a part of the text is cut out between two offsets.

  1. **Stops** — what such a reading may end with and a reading of characters cannot: an offset behind the
     end of the text or inside of a character, and more closing signs than opening ones.

  2. **One scan** — `positionFrom` looks for a sign outside of quotes.  The closing sign of a bracket and a
     mark outside of parentheses are two rules for it.

  3. **Segments** — what is found is cut out of the text and read like `Segment.ofBody` reads it.
-/
namespace Tabletop

/-! ## Offsets -/

/-- Why a reading by offsets ends without an answer. -/
inductive OctetStop where
  /-- An offset is behind the end of the text. -/
  | outside
  /-- An offset is inside of a character. -/
  | insideCharacter
  /-- A sign is closed that was not opened. -/
  | underflow
  /-- A bracket is not closed. -/
  | unclosed (opener : Char)
deriving DecidableEq, Repr

namespace Text.Utf8

/-- How many octets a text has. -/
def size (cs : List Char) : Nat := (encode cs).length

/-- What stands in front of an offset and behind it. -/
def cutAt : Nat → List Char → Except OctetStop (List Char × List Char)
  | 0, cs => .ok ([], cs)
  | _ + 1, [] => .error .outside
  | n + 1, c :: cs =>
    if n + 1 < (encodeChar c).length then .error .insideCharacter
    else (cutAt (n + 1 - (encodeChar c).length) cs).map fun r => (c :: r.1, r.2)

end Text.Utf8

/-! ## Looking for a sign -/

end Tabletop
