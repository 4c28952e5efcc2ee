import Tabletop.Text.Blank
import Tabletop.Text.Case

/-
  The bodies of macros: text with expressions in brackets.

  1. **Spans** — a body is cut into plain text and brackets, `[…]` or `\x7b…\x7d`.  A bracket ends at the
     closing sign of its own kind on the same depth; quoted text inside is passed over.  Outside of
     brackets quotes and closing signs are plain text.

  2. **One pass** — `Scan.step` takes one character, so that a body that is cut in two is scanned by
     scanning its parts one after the other.

  3. **Options** — a square bracket may start with options and a colon.  If something in front of the
     first colon is no option, the whole inside is an expression.
-/
namespace Tabletop

/-! ## Quotes -/

/-- Where a scan stands with respect to quoted text. -/
inductive Quoting where
  | plain
  | quoted (quote : Char)
  /-- Behind a backslash in quoted text. -/
  | escaped (quote : Char)
deriving DecidableEq, Repr, Inhabited

/-- Goes on over a character. -/
def Quoting.next (q : Quoting) (c : Char) : Quoting :=
  match q with
  | .plain => if c = '"' ∨ c = '\'' then .quoted c else .plain
  | .quoted quote =>
    if c = '\\' then .escaped quote else if c = quote then .plain else .quoted quote
  | .escaped quote => .quoted quote

/-! ## Spans -/

/-- A part of a body. -/
inductive Span where
  | text (s : List Char)
  | bracket (opener : Char) (inner : List Char)
deriving DecidableEq, Repr, Inhabited

/-- The sign that closes a bracket. -/
def closerOf? (c : Char) : Option Char :=
  if c = '[' then some ']' else if c = '\x7b' then some '\x7d' else none

/-- What a scan is in the middle of; texts are held in reverse. -/
inductive ScanMode where
  | outside (text : List Char)
  /-- `depth` more brackets of the kind are open inside of this one. -/
  | inside (opener closer : Char) (depth : Nat) (quoting : Quoting) (inner : List Char)
deriving DecidableEq, Repr, Inhabited

/-- The spans so far, the last one first, and what comes next. -/
structure Scan where
  done : List Span
  mode : ScanMode
deriving DecidableEq, Repr, Inhabited

namespace Scan

/-- Nothing read yet. -/
def start : Scan := ⟨[], .outside []⟩

/-- The spans with a plain text, if there is any. -/
def withText (done : List Span) (text : List Char) : List Span :=
  if text.isEmpty then done else .text text.reverse :: done

/-- Reads one character. -/
def step (s : Scan) (c : Char) : Scan :=
  match s.mode with
  | .outside text =>
    match closerOf? c with
    | some closer => ⟨withText s.done text, .inside c closer 0 .plain []⟩
    | none => ⟨s.done, .outside (c :: text)⟩
  | .inside opener closer depth quoting inner =>
    let on (depth : Nat) : Scan :=
      ⟨s.done, .inside opener closer depth (quoting.next c) (c :: inner)⟩
    if quoting ≠ .plain then on depth
    else if c = opener then on (depth + 1)
    else if c = closer then
      match depth with
      | 0 => ⟨.bracket opener inner.reverse :: s.done, .outside []⟩
      | d + 1 => on d
    else on depth

/-- The spans of a text that was read to its end, or the bracket that was not closed. -/
def finish (s : Scan) : Except Char (List Span) :=
  match s.mode with
  | .outside text => .ok (withText s.done text).reverse
  | .inside opener .. => .error opener

end Scan

/-- The spans of a body. -/
def Span.ofBody (body : List Char) : Except Char (List Span) := (body.foldl Scan.step .start).finish

/-- The characters of a span. -/
def Span.chars : Span → List Char
  | .text s => s
  | .bracket opener inner => opener :: inner ++ (closerOf? opener).toList

/-! ## Cutting outside of quotes and parentheses -/

/-- Where a scan stands with respect to parentheses and quoted text. -/
structure Nesting where
  parens : Nat
  quoting : Quoting
deriving DecidableEq, Repr, Inhabited

namespace Nesting

/-- Outside of everything. -/
def top : Nesting := ⟨0, .plain⟩

/-- Goes on over a character; a closing parenthesis without an opening one is passed over. -/
def next (n : Nesting) (c : Char) : Nesting :=
  let quoting := n.quoting.next c
  if n.quoting ≠ .plain then ⟨n.parens, quoting⟩
  else if c = '(' then ⟨n.parens + 1, quoting⟩
  else if c = ')' then ⟨n.parens - 1, quoting⟩
  else ⟨n.parens, quoting⟩

end Nesting

/-- What stands before and after the first `mark` outside of quotes and parentheses. -/
def cutOutside (mark : Char) (n : Nesting) : List Char → Option (List Char × List Char)
  | [] => none
  | c :: cs =>
    if n = .top ∧ c = mark then some ([], cs)
    else (cutOutside mark (n.next c) cs).map fun r => (c :: r.1, r.2)

/-- The pieces between the `mark`s outside of quotes and parentheses. -/
def splitOutside (mark : Char) (n : Nesting) : List Char → List (List Char)
  | [] => [[]]
  | c :: cs =>
    if n = .top ∧ c = mark then [] :: splitOutside mark .top cs
    else (splitOutside mark (n.next c) cs).modifyHead (c :: ·)

/-! ## Segments -/

/-- How the value of an expression is shown. -/
inductive OutputMode where
  | hidden
  | result
  /-- The expression, an equals sign and the value. -/
  | expanded
  | tooltip
deriving DecidableEq, Repr, Inhabited

/-- The options in front of an expression. -/
structure BracketOptions where
  output : OutputMode
  /-- The macro that is run with the value as its arguments. -/
  macroName : Option String
deriving DecidableEq, Repr, Inhabited

/-- The options of a bracket without any. -/
def BracketOptions.default : BracketOptions := ⟨.tooltip, none⟩

/-- A part of a body, ready to be run. -/
inductive Segment where
  | text (s : String)
  | expression (options : BracketOptions) (source : String)
deriving DecidableEq, Repr, Inhabited

/-- What the option that names a macro starts with. -/
def macroOptionStart : List Char := ['m', 'a', 'c', 'r', 'o', '(']

/-- A text without the quotes around it. -/
def unquote? (quote : Char) (cs : List Char) : Option (List Char) :=
  match cs with
  | [] => none
  | c :: rest =>
    if c = quote ∧ rest.getLast? = some quote then some rest.dropLast else none

/-- The macro that an option names. -/
def readMacroOption? (option : List Char) : Option String :=
  if macroOptionStart.isPrefixOf (option.map Char.toLower) ∧ option.getLast? = some ')' then
    let argument := Text.trimChars (option.drop macroOptionStart.length).dropLast
    ((unquote? '"' argument).or (unquote? '\'' argument)).map String.ofList
  else none

/-- Reads one option; a later one of a kind overrides an earlier one. -/
def BracketOptions.read? (options : BracketOptions) (text : List Char) : Option BracketOptions :=
  let option := Text.trimChars text
  match option.map Char.toLower with
  | ['h'] => some { options with output := .hidden }
  | ['r'] => some { options with output := .result }
  | ['e'] => some { options with output := .expanded }
  | ['t'] => some { options with output := .tooltip }
  | _ => (readMacroOption? option).map fun name => { options with macroName := some name }

/-- The options and the expression inside a square bracket that has options. -/
def cutOptions? (inner : List Char) : Option (BracketOptions × List Char) := do
  let (head, expression) ← cutOutside ':' .top inner
  let options ← (splitOutside ',' .top head).foldlM BracketOptions.read? .default
  pure (options, expression)

/-- The segment of a span. -/
def Segment.ofSpan : Span → Segment
  | .text s => .text (String.ofList s)
  | .bracket opener inner =>
    match if opener = '[' then cutOptions? inner else none with
    | some (options, source) => .expression options (String.ofList source)
    | none => .expression .default (String.ofList inner)

/-- The segments of a body, or the bracket that is not closed. -/
def Segment.ofBody (body : String) : Except Char (List Segment) :=
  (Span.ofBody body.toList).map (·.map ofSpan)

end Tabletop
