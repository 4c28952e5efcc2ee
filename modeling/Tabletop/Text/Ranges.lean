/-
  Classes of characters given as tables of code ranges.

  A table lists its ranges from low to high, so a look-up may stop at the first range that starts
  above the character.
-/
namespace Tabletop.Text

/-- Looks `n` up in a table of ranges, both ends included, sorted from low to high. -/
def inRanges : List (Nat × Nat) → Nat → Bool
  | [], _ => false
  | (lo, hi) :: rest, n => if n < lo then false else n ≤ hi || inRanges rest n

end Tabletop.Text
