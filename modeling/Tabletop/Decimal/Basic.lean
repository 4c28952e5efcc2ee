import Tabletop.Power

/-
  Decimal numbers: an integer coefficient and a count of decimal places.

  1. **The numbers** — `⟨c, s⟩` stands for `c / 10 ^ s`.  The places are kept as written, so `1.50`
     and `1.5` are two representations of one number; `same` compares the numbers, `normalize`
     picks the representation without zeros at the end.

  2. **The bounds** — the numbers of the language have a coefficient below `2 ^ 96` and at most 28
     places.  `Fits` says so; the reader and every arithmetic operation answer with a number that
     fits or with none.
-/
namespace Tabletop

/-- `⟨c, s⟩` is the number `c / 10 ^ s`. -/
structure Decimal where
  /-- All digits as one integer. -/
  coefficient : Int
  /-- How many of the digits stand behind the point. -/
  scale : Nat
deriving DecidableEq, Repr, Inhabited

namespace Decimal

/-- The first coefficient that is too large. -/
def coefficientBound : Nat := 2 ^ 96

/-- The largest number of places. -/
def maxScale : Nat := 28

/-- The numbers that the language can hold. -/
def Fits (d : Decimal) : Prop := d.coefficient.natAbs < coefficientBound ∧ d.scale ≤ maxScale

instance (d : Decimal) : Decidable d.Fits := inferInstanceAs (Decidable (_ ∧ _))

/-- A whole number. -/
def ofInt (n : Int) : Decimal := ⟨n, 0⟩

/-- The number zero, in whatever representation. -/
def isZero (d : Decimal) : Bool := d.coefficient == 0

/-! ## Comparing -/

/-- The coefficient that the number has with `scale` places; exact from its own scale on. -/
def coefficientAt (d : Decimal) (scale : Nat) : Int := d.coefficient * 10 ^ (scale - d.scale)

/-- The order of the numbers: both are written with the places of the longer one. -/
def compare (a b : Decimal) : Ordering :=
  Ord.compare (a.coefficientAt (max a.scale b.scale)) (b.coefficientAt (max a.scale b.scale))

/-- Equality of the numbers, whatever their places. -/
def same (a b : Decimal) : Bool := compare a b == .eq

/-! ## The representation without zeros at the end -/

/-- Drops up to `scale` zeros from the end of a coefficient, a place for each. -/
def stripZeros (c : Int) : Nat → Decimal
  | 0 => ⟨c, 0⟩
  | s + 1 => if c % 10 = 0 then stripZeros (c / 10) s else ⟨c, s + 1⟩

/-- The same number without zeros behind the last digit that counts. -/
def normalize (d : Decimal) : Decimal := stripZeros d.coefficient d.scale

/-- The number without its places, toward zero. -/
def truncate (d : Decimal) : Int := d.coefficient.tdiv (10 ^ d.scale)

/-! ## Integers of 64 bits -/

/-- The integers that a 64-bit word with sign holds. -/
def InWord (n : Int) : Prop := -2 ^ 63 ≤ n ∧ n < 2 ^ 63

instance (n : Int) : Decidable (InWord n) := inferInstanceAs (Decidable (_ ∧ _))

/-! ## Small laws -/

theorem stripZeros_scale_le (c : Int) (s : Nat) : (stripZeros c s).scale ≤ s := by
  induction s generalizing c with
  | zero => simp [stripZeros]
  | succ s ih =>
    simp only [stripZeros]
    split
    · exact Nat.le_succ_of_le (ih _)
    · simp

/-- Stripping zeros keeps the number. -/
theorem stripZeros_value (c : Int) (s : Nat) :
    (stripZeros c s).coefficient * 10 ^ (s - (stripZeros c s).scale) = c := by
  induction s generalizing c with
  | zero => simp [stripZeros]
  | succ s ih =>
    simp only [stripZeros]
    split
    · next h =>
      have hle := stripZeros_scale_le (c / 10) s
      have hs : s + 1 - (stripZeros (c / 10) s).scale =
          (s - (stripZeros (c / 10) s).scale) + 1 := by omega
      rw [hs, Int.pow_succ, ← Int.mul_assoc, ih]
      omega
    · simp

example : stripZeros 150 2 = ⟨15, 1⟩ := by decide

@[simp] theorem normalize_ofInt (n : Int) : (ofInt n).normalize = ofInt n := rfl

end Decimal

end Tabletop
