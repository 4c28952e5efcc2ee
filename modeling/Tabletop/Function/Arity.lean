import Tabletop.Decimal.Text

/-
  How many arguments a function takes: at least some, and at most some others or any number.
-/
namespace Tabletop

/-- The counts of arguments that a function takes. -/
structure Arity where
  min : Nat
  /-- No value means that there is no upper bound. -/
  max : Option Nat
  min_le_max : ∀ n, max = some n → min ≤ n
deriving DecidableEq, Repr

namespace Arity

/-- Bounds of which the lower one is greater. -/
structure BoundsFault where
  min : Nat
  max : Nat
deriving DecidableEq, Repr, Inhabited

/-- The wording of the fault. -/
def BoundsFault.message (f : BoundsFault) : String :=
  "Invalid arity: min " ++ Decimal.displayInt f.min ++ " exceeds max " ++ Decimal.displayInt f.max

/-- `min` arguments or more. -/
def atLeast (min : Nat) : Arity := ⟨min, none, nofun⟩

/-- From `min` to `min + more` arguments. -/
def upTo (min more : Nat) : Arity := ⟨min, some (min + more), by intro n h; simp at h; omega⟩

/-- `n` arguments and no others. -/
def exactly (n : Nat) : Arity := upTo n 0

instance : Inhabited Arity := ⟨exactly 0⟩

/-- The bounds as they are given, if they leave something between them. -/
def make (min : Nat) (max : Option Nat) : Except BoundsFault Arity :=
  match max with
  | none => .ok (atLeast min)
  | some m => if h : min ≤ m then .ok ⟨min, some m, by intro n e; cases e; exact h⟩
    else .error ⟨min, m⟩

/-- This many arguments may be given. -/
def accepts (a : Arity) (count : Nat) : Bool := a.min ≤ count && a.max.all (count ≤ ·)

/-- The bounds in words. -/
def describe (a : Arity) : String :=
  match a.max with
  | none => "at least " ++ Decimal.displayInt a.min
  | some m =>
    if m = a.min then "exactly " ++ Decimal.displayInt a.min
    else "between " ++ Decimal.displayInt a.min ++ " and " ++ Decimal.displayInt m

end Arity

end Tabletop
