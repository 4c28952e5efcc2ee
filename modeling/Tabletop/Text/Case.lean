import Tabletop.Text.Blank

/-
  Comparisons that ignore the case of the letters A to Z, and the small case map that they use.

  1. **Names** — token names, property names and list items are compared with `sameName`: the
     letters `A` to `Z` count as `a` to `z`, every other character as itself.

  2. **Keywords** — a keyword is looked up in `lower s`.  The full lower-case map of the character
     database would change nothing there: only `K` (the Kelvin sign) and `İ` have a lower-case form
     with an ASCII letter in it; `İ` brings a combining dot along, which no keyword contains, and no
     keyword that is looked up with `lower` contains a `k`.
-/
namespace Tabletop.Text

/-- The text with `A` to `Z` in lower case. -/
def lower (s : String) : String := String.ofList (s.toList.map Char.toLower)

/-- Equality up to the case of the letters `A` to `Z`. -/
def sameName (a b : String) : Bool := a.toList.map Char.toLower == b.toList.map Char.toLower

/-- `startsWith p s` when the characters `p` come first in `s`. -/
def startsWith (p s : String) : Bool := p.toList.isPrefixOf s.toList

@[simp] theorem sameName_refl (a : String) : sameName a a = true := by simp [sameName]

theorem sameName_comm (a b : String) : sameName a b = sameName b a := by
  simp only [sameName]
  exact Bool.eq_iff_iff.2 (by simp only [beq_iff_eq]; exact ⟨Eq.symm, Eq.symm⟩)

theorem sameName_trans {a b c : String} (h : sameName a b = true) (h' : sameName b c = true) :
    sameName a c = true := by
  simp only [sameName, beq_iff_eq] at *
  exact h.trans h'

end Tabletop.Text
