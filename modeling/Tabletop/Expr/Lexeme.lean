import Tabletop.Decimal.Text
import Tabletop.Text.Literal
import Tabletop.Text.Blank

/-
  The words and signs that expressions are written with.

  1. **Tokens** — numbers, dice, quoted texts, names, signs.

  2. **Words** — a word starts with a letter, a digit or `_` of ASCII and goes on with these or a
     point.  A word in the shape of dice is dice; any other word that starts with a digit has to be a
     number; the rest are names.

  3. **Order of errors** — the text is cut from left to right and the first fault is the answer.
-/
namespace Tabletop

/-- The signs of operators. -/
inductive OperatorSign where
  | plus
  | minus
  | star
  | slash
  | not
  | eq
  | ne
  | lt
  | le
  | gt
  | ge
  | and
  | or
  | assign
deriving DecidableEq, Repr, Inhabited

/-- A word or sign. -/
inductive Lexeme where
  | number (d : Decimal)
  | dice (s : String)
  | quoted (s : String)
  | name (s : String)
  | leftParen
  | rightParen
  | comma
  | semicolon
  | sign (o : OperatorSign)
deriving DecidableEq, Repr, Inhabited

/-- What can be wrong with the text of an expression. -/
inductive SyntaxFault where
  | unexpectedCharacter (c : Char)
  | invalidNumber (word : String)
  | unterminatedQuote
  | unexpectedToken (t : Lexeme)
  | unexpectedEnd
deriving DecidableEq, Repr, Inhabited

/-! ## How tokens are named in messages -/

/-- The name of a sign. -/
def OperatorSign.label : OperatorSign → String
  | .plus => "Plus"
  | .minus => "Minus"
  | .star => "Star"
  | .slash => "Slash"
  | .not => "Not"
  | .eq => "Eq"
  | .ne => "Ne"
  | .lt => "Lt"
  | .le => "Le"
  | .gt => "Gt"
  | .ge => "Ge"
  | .and => "And"
  | .or => "Or"
  | .assign => "Assign"

/-- The description of a token: numbers with the places that were written, texts in quotes. -/
def Lexeme.describe : Lexeme → String
  | .number d => "Number(" ++ d.render ++ ")"
  | .dice s => "Dice(" ++ Text.literal s ++ ")"
  | .quoted s => "Str(" ++ Text.literal s ++ ")"
  | .name s => "Ident(" ++ Text.literal s ++ ")"
  | .leftParen => "LParen"
  | .rightParen => "RParen"
  | .comma => "Comma"
  | .semicolon => "Semicolon"
  | .sign o => "Op(" ++ o.label ++ ")"

/-- The wording of a fault. -/
def SyntaxFault.message : SyntaxFault → String
  | .unexpectedCharacter c => "Unexpected character '" ++ String.singleton c ++ "'"
  | .invalidNumber w => "Invalid number '" ++ w ++ "'"
  | .unterminatedQuote => "Unterminated string literal"
  | .unexpectedToken t => "Unexpected token " ++ t.describe
  | .unexpectedEnd => "Unexpected end of expression"

namespace Lexeme

/-! ## Words -/

/-- A character that starts a word. -/
def startsWord (c : Char) : Bool := c.isAlphanum || c == '_'

/-- A character that a word goes on with. -/
def continuesWord (c : Char) : Bool := startsWord c || c == '.'

/-- A word in the shape of dice: digits or none, `d`, digits, and `kh` or `kl` with digits or
    nothing; case does not count. -/
def isDiceWord (word : List Char) : Bool :=
  match (word.map Char.toLower).dropWhile Char.isDigit with
  | 'd' :: cs =>
    !(cs.takeWhile Char.isDigit).isEmpty &&
      match cs.dropWhile Char.isDigit with
      | [] => true
      | 'k' :: 'h' :: n => Decimal.isDigits n
      | 'k' :: 'l' :: n => Decimal.isDigits n
      | _ => false
  | _ => false

/-- The token of a word. -/
def ofWord (word : List Char) : Except SyntaxFault Lexeme :=
  if isDiceWord word then .ok (.dice (String.ofList word))
  else if word.head?.any Char.isDigit then
    match Decimal.readSigned? word with
    | some d => .ok (.number d)
    | none => .error (.invalidNumber (String.ofList word))
  else .ok (.name (String.ofList word))

/-! ## Quoted texts -/

/-- The character that a backslash and `c` stand for. -/
def escaped : Char → Char
  | 'n' => '\n'
  | 't' => '\t'
  | c => c

/-- Reads a text up to its closing quote; a backslash at the very end is a character like others. -/
def readQuoted (quote : Char) : List Char → Option (List Char × List Char)
  | [] => none
  | '\\' :: c :: cs => (readQuoted quote cs).map fun r => (escaped c :: r.1, r.2)
  | c :: cs =>
    if c = quote then some ([], cs) else (readQuoted quote cs).map fun r => (c :: r.1, r.2)

/-! ## Signs -/

/-- Reads a sign, a long one before a short one. -/
def readSign? : List Char → Option (Lexeme × List Char)
  | '=' :: '=' :: cs => some (.sign .eq, cs)
  | '!' :: '=' :: cs => some (.sign .ne, cs)
  | '<' :: '=' :: cs => some (.sign .le, cs)
  | '>' :: '=' :: cs => some (.sign .ge, cs)
  | '&' :: '&' :: cs => some (.sign .and, cs)
  | '|' :: '|' :: cs => some (.sign .or, cs)
  | '=' :: cs => some (.sign .assign, cs)
  | '!' :: cs => some (.sign .not, cs)
  | '<' :: cs => some (.sign .lt, cs)
  | '>' :: cs => some (.sign .gt, cs)
  | '+' :: cs => some (.sign .plus, cs)
  | '-' :: cs => some (.sign .minus, cs)
  | '*' :: cs => some (.sign .star, cs)
  | '/' :: cs => some (.sign .slash, cs)
  | '(' :: cs => some (.leftParen, cs)
  | ')' :: cs => some (.rightParen, cs)
  | ',' :: cs => some (.comma, cs)
  | ';' :: cs => some (.semicolon, cs)
  | _ => none

/-! ## All tokens -/

/-- Reads one token at a character that is no blank. -/
def read (c : Char) (cs : List Char) : Except SyntaxFault (Lexeme × List Char) :=
  if c = '"' ∨ c = '\'' then
    match readQuoted c cs with
    | some (s, rest) => .ok (.quoted (String.ofList s), rest)
    | none => .error .unterminatedQuote
  else if startsWord c then do
    pure (← ofWord (c :: cs.takeWhile continuesWord), cs.dropWhile continuesWord)
  else
    match readSign? (c :: cs) with
    | some r => .ok r
    | none => .error (.unexpectedCharacter c)

/-- Reads tokens, `fuel` of them at most. -/
def readAll : (fuel : Nat) → List Char → Except SyntaxFault (List Lexeme)
  | 0, _ => .ok []
  | fuel + 1, cs =>
    match Text.trimStart cs with
    | [] => .ok []
    | c :: cs => do
      let (t, rest) ← read c cs
      pure (t :: (← readAll fuel rest))

/-- The tokens of a text: there are no more than it has characters. -/
def scan (s : String) : Except SyntaxFault (List Lexeme) := readAll (s.toList.length + 1) s.toList

end Lexeme

end Tabletop
