import Tabletop.Macro.Offsets
import Tabletop.Proofs.Bodies.Segments
import Tabletop.Proofs.Text.FormCoding

/-
  Reading a body by offsets is reading its characters.

  1. **Octets** — a character of one octet is its octet, and all octets of any other character are greater
     than those of the signs (`encodeChar_cases`).  Cutting at the size of a text gives this text.

  2. **Scanning** — a scan by offsets is at the start of a character, or one octet further if a backslash
     stands in front of it (`Quoting.resume`).  Over one character it does what the rule says of this
     character (`resume_cons`), so a scan over the text finds the same sign as the scan over characters.

  3. **Segments** — so each offset is one in front of a character, all cuts succeed, and the segments are
     the same (`ofOctets_eq`).
-/
namespace Tabletop

open Text.Utf8

/-! ## Octets -/

namespace Text.Utf8

end Text.Utf8

/-! ## Scanning -/

/-- Quotes have one octet. -/
def Quoting.Low : Quoting → Prop
  | .plain => True
  | .quoted q => IsQuote q
  | .escaped q => IsQuote q

/-- The quote that a text is in is always one of the two. -/
theorem Quoting.Low.next {q : Quoting} (h : q.Low) (c : Char) : (q.next c).Low := by
  cases q with
  | plain =>
    by_cases hc : IsQuote c
    · rw [next_quote hc]
      exact hc
    · rw [next_plain hc]
      trivial
  | quoted quote =>
    simp only [Quoting.next]
    split
    · exact h
    · split
      · trivial
      · exact h
  | escaped quote => exact h

section Scanning

variable {rule : SignRule} {octets : List Nat} {pos depth : Nat}

end Scanning

/-! ## Closing signs and marks -/

/-- The first piece ends at the first mark. -/
theorem splitOutside_eq (mark : Char) (cs : List Char) (n : Nesting) :
    splitOutside mark n cs =
      match cutOutside mark n cs with
      | none => [cs]
      | some (a, r) => a :: splitOutside mark .top r := by
  induction cs generalizing n with
  | nil => rfl
  | cons c cs ih =>
    rw [splitOutside, cutOutside]
    split
    · rfl
    · rw [ih]
      cases cutOutside mark (n.next c) cs <;> rfl

section Segments

variable {body : List Char} {pos start : Nat}

end Segments

end Tabletop
