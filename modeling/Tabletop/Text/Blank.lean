/-
  Blank characters, and the trimming of text at both ends.

  1. **The class** — `isBlank` is the White_Space property of the character database, so that a
     no-break space, a line separator or an ideographic space around a number or a key is dropped
     just like an ordinary space.

  2. **Trimming** — `trimChars` works on `List Char`, where the recursion is visible; `trim` is the
     same on `String`.
-/
namespace Tabletop.Text

/-! ## The class of blanks -/

/-- The characters with the White_Space property. -/
def isBlank (c : Char) : Bool :=
  let n := c.toNat
  (9 ≤ n && n ≤ 13) || n == 0x20 || n == 0x85 || n == 0xA0 || n == 0x1680 ||
    (0x2000 ≤ n && n ≤ 0x200A) || n == 0x2028 || n == 0x2029 || n == 0x202F || n == 0x205F ||
    n == 0x3000

/-! ## Trimming -/

/-- Drops the blanks in front. -/
def trimStart (cs : List Char) : List Char := cs.dropWhile isBlank

/-- Drops the blanks at the end. -/
def trimEnd (cs : List Char) : List Char := (cs.reverse.dropWhile isBlank).reverse

/-- Drops the blanks at both ends. -/
def trimChars (cs : List Char) : List Char := trimEnd (trimStart cs)

/-- The blanks at the end: what `trimEnd` drops. -/
def blanksAtEnd (cs : List Char) : List Char := (cs.reverse.takeWhile isBlank).reverse

/-- `trim s` is `s` without the blanks at both ends. -/
def trim (s : String) : String := String.ofList (trimChars s.toList)

/-- Text that trims to nothing. -/
def isBlankText (s : String) : Bool := s.toList.all isBlank

/-- Nothing is lost: a text is what `trimEnd` keeps, then the blanks that it drops. -/
@[simp] theorem trimEnd_append_blanksAtEnd (cs : List Char) : trimEnd cs ++ blanksAtEnd cs = cs := by
  unfold trimEnd blanksAtEnd
  rw [← List.reverse_append, List.takeWhile_append_dropWhile, List.reverse_reverse]

@[simp] theorem trimStart_nil : trimStart [] = [] := rfl
@[simp] theorem trimChars_nil : trimChars [] = [] := rfl

end Tabletop.Text
