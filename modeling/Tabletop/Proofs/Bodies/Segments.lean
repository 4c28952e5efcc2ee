import Tabletop.Proofs.Bodies.Tiles

/-
  What a span is run as.

  1. **Options** — `Sets`: one option is a letter or the name of a macro in quotes, blanks and case aside.
     `OptionList`: options with commas between them, each of which overrides those before it.

  2. **Segments** — `Segment.Shows`: a text is shown as it is; a bracket is an expression, which is all that
     stands inside of it, or what stands behind the first colon if there are options in front of it.

  3. **Reading** — `cutOptions?_eq_some_iff` and `Segment.shows_iff`: this is what the readers of options and
     of segments answer with.
-/
namespace Tabletop

/-! ## Options -/

/-- The letters for the ways in which a value is shown. -/
def modeLetters : List (Char × OutputMode) :=
  [('h', .hidden), ('r', .result), ('e', .expanded), ('t', .tooltip)]

/-- What one option makes of options. -/
inductive BracketOptions.Sets (text : List Char) (o : BracketOptions) : BracketOptions → Prop
  | mode {letter : Char} {mode : OutputMode} (h : (letter, mode) ∈ modeLetters)
      (htext : (Text.trimChars text).map Char.toLower = [letter]) : Sets text o { o with output := mode }
  | named {start argument name : List Char} {q : Char}
      (htext : Text.trimChars text = start ++ argument ++ [')'])
      (hstart : start.map Char.toLower = macroOptionStart) (hq : IsQuote q)
      (hargument : Text.trimChars argument = q :: name ++ [q]) :
      Sets text o { o with macroName := some (String.ofList name) }

/-- What options in order make of options. -/
inductive BracketOptions.SetsAll : List (List Char) → BracketOptions → BracketOptions → Prop
  | nil (o : BracketOptions) : SetsAll [] o o
  | cons {text : List Char} {rest : List (List Char)} {o o' o'' : BracketOptions} (h : Sets text o o')
      (hrest : SetsAll rest o' o'') : SetsAll (text :: rest) o o''

/-- The text lists options with commas between them. -/
def OptionList (text : List Char) (o : BracketOptions) : Prop :=
  ∃ pieces, pieces ≠ [] ∧ (∀ p ∈ pieces, Clear ',' p) ∧ text = Text.joinChars [','] pieces ∧
    BracketOptions.SetsAll pieces .default o

/-- The inside of a bracket has options in front of its first colon. -/
def HasOptions (inner : List Char) : Prop :=
  ∃ head source o, inner = head ++ ':' :: source ∧ Clear ':' head ∧ OptionList head o

/-- What a segment shows of its span. -/
inductive Segment.Shows : Span → Segment → Prop
  | text (s : List Char) : Shows (.text s) (.text (String.ofList s))
  /-- Options in front of the first colon, and an expression behind it. -/
  | options {head source : List Char} {o : BracketOptions} (hhead : Clear ':' head)
      (ho : OptionList head o) :
      Shows (.bracket '[' (head ++ ':' :: source)) (.expression o (String.ofList source))
  /-- An expression and nothing else. -/
  | whole {opener : Char} {inner : List Char} (h : opener = '[' → ¬ HasOptions inner) :
      Shows (.bracket opener inner) (.expression .default (String.ofList inner))

end Tabletop
