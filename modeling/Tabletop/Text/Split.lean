/-
  Cutting a text at a separator, and joining the pieces again.

  1. **Cutting at every separator** — `splitChars` gives the pieces between the occurrences of a
     separator, found from left to right without overlap.  There is always at least one piece.

  2. **Cutting once** — `cutAt` gives what stands before and after the first character of a class.

  3. **Joining** — `joinChars` puts a separator between the pieces.
-/
namespace Tabletop.Text

/-! ## Cutting -/

/-- `splitFrom d skip cs` cuts `cs` at each `d`; the first `skip` characters belong to a separator
    that was found already. -/
def splitFrom (d : List Char) : Nat → List Char → List (List Char)
  | _, [] => [[]]
  | skip + 1, _ :: cs => splitFrom d skip cs
  | 0, c :: cs =>
    if d.isPrefixOf (c :: cs) then [] :: splitFrom d (d.length - 1) cs
    else (splitFrom d 0 cs).modifyHead (c :: ·)

/-- The pieces of `cs` between the occurrences of the separator `d`. -/
def splitChars (d cs : List Char) : List (List Char) := splitFrom d 0 cs

/-- The pieces of a text between the occurrences of a separator. -/
def split (d s : String) : List String := (splitChars d.toList s.toList).map String.ofList

/-- What stands before and after the first character that satisfies `p`. -/
def cutAt (p : Char → Bool) : List Char → Option (List Char × List Char)
  | [] => none
  | c :: cs => if p c then some ([], cs) else (cutAt p cs).map fun r => (c :: r.1, r.2)

/-- `cutAt` on text. -/
def cut (p : Char → Bool) (s : String) : Option (String × String) :=
  (cutAt p s.toList).map fun r => (String.ofList r.1, String.ofList r.2)

/-! ## Joining -/

/-- The pieces in order with `d` between them. -/
def joinChars (d : List Char) : List (List Char) → List Char
  | [] => []
  | [p] => p
  | p :: ps => p ++ d ++ joinChars d ps

/-- The pieces in order with `d` between them. -/
def join (d : String) (ps : List String) : String :=
  String.ofList (joinChars d.toList (ps.map String.toList))

/-! ## Laws -/

theorem splitFrom_ne_nil (d : List Char) (skip : Nat) (cs : List Char) :
    splitFrom d skip cs ≠ [] := by
  induction cs generalizing skip with
  | nil => cases skip <;> simp [splitFrom]
  | cons c cs ih =>
    cases skip with
    | succ k => simpa [splitFrom] using ih k
    | zero =>
      simp only [splitFrom]
      split
      · simp
      · cases h : splitFrom d 0 cs with
        | nil => exact absurd h (ih 0)
        | cons p ps => simp

@[simp] theorem joinChars_cons_cons (d p q : List Char) (ps : List (List Char)) :
    joinChars d (p :: q :: ps) = p ++ d ++ joinChars d (q :: ps) := rfl

end Tabletop.Text
