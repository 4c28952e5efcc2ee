import Tabletop.Text.Split

/-
  Putting one text in the place of another.
-/
namespace Tabletop.Text

/-- Puts `new` in the place of every `old`, found from left to right without overlap. -/
def replace (old new s : String) : String := join new (split old s)

/-- Puts `new` in the place of the first `old`. -/
def replaceFirst (old new s : String) : String :=
  match split old s with
  | [] => s
  | [_] => s
  | before :: rest => before ++ new ++ join old rest

end Tabletop.Text
