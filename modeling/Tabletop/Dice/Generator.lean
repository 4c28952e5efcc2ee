import Tabletop.Dice.Roll

/-
  A generator of dice.

  1. **State** — one word of 64 bits, which is advanced by an odd constant; a draw is the state with
     its bits mixed.

  2. **Faces** — a die takes the remainder of a draw.  With at most a million sides, faces differ in
     frequency by less than one part in ten million million.
-/
namespace Tabletop.Dice

/-- The state of a generator. -/
structure Generator where
  state : UInt64
deriving DecidableEq, Repr, Inhabited

namespace Generator

/-- The next state. -/
def advance (g : Generator) : Generator := ⟨g.state + 0x9e3779b97f4a7c15⟩

/-- The word that a state stands for. -/
def word (g : Generator) : UInt64 :=
  let a := (g.state ^^^ (g.state >>> 30)) * 0xbf58476d1ce4e5b9
  let b := (a ^^^ (a >>> 27)) * 0x94d049bb133111eb
  b ^^^ (b >>> 31)

/-- Throws a die with `n` sides. -/
def face (n : Nat) (g : Generator) : Nat × Generator :=
  (1 + g.advance.word.toNat % n, g.advance)

/-! ## Small laws -/

/-- A face lies on the die. -/
theorem face_mem {n : Nat} (hn : 1 ≤ n) (g : Generator) : 1 ≤ (face n g).1 ∧ (face n g).1 ≤ n := by
  have := Nat.mod_lt g.advance.word.toNat hn
  simp only [face]
  omega

end Generator

end Tabletop.Dice
