import Tabletop.Assoc
import Tabletop.Text.Alphanumeric
import Tabletop.Text.Blank

/-
  Files with variables of the environment.

  1. **Lines** — every line sets a variable, `NAME=value`, perhaps with `export` in front.  A line goes
     on in the next one as long as a quote is open.  Blank lines and comments are passed over.

  2. **Values** — end at the first blank outside of quotes; only a comment may follow.  A backslash
     takes the meaning from a few characters, in double quotes and outside of quotes.

  3. **References** — `$NAME` and `${NAME}` stand for the value of a variable, except in single
     quotes.

  4. **Precedence** — a variable that the environment has already is left alone, and nothing is read
     behind the first line with a fault.  What a file says does not depend on the environment, so
     reading (`assignments`) and setting (`extend`) are apart.
-/
namespace Tabletop

/-- The values of variables. -/
abbrev Environment := List (String × String)

namespace EnvFile

/-- The name of such a file. -/
def name : String := ".env"

/-! ## Lines -/

/-- What the end of a line stands in. -/
inductive LineState where
  | complete
  /-- Behind a backslash outside of quotes. -/
  | escape
  | single
  | singleEscape
  | double
  | doubleEscape
  /-- Behind one blank outside of quotes. -/
  | blank
deriving DecidableEq, Repr, Inhabited

/-- What an opening character outside of quotes leads to. -/
def LineState.opened (c : Char) : LineState :=
  if c = '\\' then .escape else if c = '"' then .double else if c = '\'' then .single else .complete

/-- Goes on over a character; `none` at the sign of a comment. -/
def LineState.next? (s : LineState) (c : Char) : Option LineState :=
  match s with
  | .complete => some (if Text.isBlank c ∧ c ≠ '\n' ∧ c ≠ '\r' then .blank else .opened c)
  | .blank => if c = '#' then none else some (.opened c)
  | .escape => some .complete
  | .double => some (if c = '\\' then .doubleEscape else if c = '"' then .complete else .double)
  | .doubleEscape => some .double
  | .single => some (if c = '\\' then .singleEscape else if c = '\'' then .complete else .single)
  | .singleEscape => some .single

/-- The characters in front of a comment, and the state at the end unless there is a comment. -/
def scanLine (s : LineState) : List Char → List Char × Option LineState
  | [] => ([], some s)
  | c :: cs =>
    match s.next? c with
    | none => ([], none)
    | some s =>
      let (kept, last) := scanLine s cs
      (c :: kept, last)

/-- The lines of a text, each with its line feed. -/
def physicalLines : List Char → List (List Char)
  | [] => []
  | '\n' :: cs => ['\n'] :: physicalLines cs
  | c :: cs =>
    match physicalLines cs with
    | [] => [[c]]
    | l :: ls => (c :: l) :: ls

/-- The first character that is no blank starts a comment. -/
def startsComment (cs : List Char) : Bool := (Text.trimStart cs).head? = some '#'

/-- The lines with those joined that belong together; `none` is a quote that stays open. -/
def logicalLines (held : List Char) (s : LineState) : List (List Char) → List (Option (List Char))
  | [] => if s = .complete then [] else [none]
  | l :: ls =>
    if startsComment (held ++ l) then logicalLines [] .complete ls
    else
      let (kept, last) := scanLine s l
      match last with
      | none => some (held ++ kept) :: logicalLines [] .complete ls
      | some .complete => some (held ++ l) :: logicalLines [] .complete ls
      | some s => logicalLines (held ++ l) s ls

/-! ## Values -/

/-- A part of a value. -/
inductive Piece where
  | char (c : Char)
  /-- The value of the variable of this name. -/
  | reference (name : String)
deriving DecidableEq, Repr, Inhabited

/-- What a value is in the middle of. -/
inductive ValueMode where
  | plain
  | escaped
  | single
  | name
  | bracedName
  /-- Behind the end, where only a comment may come. -/
  | ended
  | comment
deriving DecidableEq, Repr, Inhabited

/-- A value that is being read. -/
structure ValueState where
  mode : ValueMode
  /-- A double quote is open. -/
  double : Bool
  name : List Char
  value : List Piece
deriving DecidableEq, Repr, Inhabited

namespace ValueState

/-- Before the first character. -/
def start : ValueState := ⟨.plain, false, [], []⟩

/-- Adds a character to the value. -/
def push (s : ValueState) (c : Char) : ValueState := { s with value := s.value ++ [.char c] }

/-- Adds a reference by the name that was read. -/
def refer (s : ValueState) : ValueState :=
  { s with value := s.value ++ [.reference (String.ofList s.name)], name := [], mode := .plain }

/-- Goes on over a character of the value itself. -/
def stepPlain (s : ValueState) (c : Char) : ValueState :=
  if c = '$' then { s with mode := .name }
  else if c = '\\' then { s with mode := .escaped }
  else if c = '"' then { s with double := !s.double }
  else if s.double then s.push c
  else if c = '\'' then { s with mode := .single }
  else if c = ' ' ∨ c = '\t' then { s with mode := .ended }
  else s.push c

/-- Goes on over a character; `none` is a fault. -/
def step (s : ValueState) (c : Char) : Option ValueState :=
  match s.mode with
  | .comment => some s
  | .ended =>
    if c = ' ' ∨ c = '\t' then some s
    else if c = '#' then some { s with mode := .comment }
    else none
  | .escaped =>
    if c = 'n' then some ({ s with mode := .plain }.push '\n')
    else if c ∈ ['\\', '\'', '"', '$', ' '] then some ({ s with mode := .plain }.push c)
    else none
  | .single => some (if c = '\'' then { s with mode := .plain } else s.push c)
  | .name =>
    if Text.isAlphanumeric c then some { s with name := s.name ++ [c] }
    else if c = '\x7b' ∧ s.name = [] then some { s with mode := .bracedName }
    else if c = '$' then some { s.refer with mode := .name }
    else some (s.refer.push c)
  | .bracedName =>
    some (if c = '\x7d' then s.refer else { s with name := s.name ++ [c] })
  | .plain => some (s.stepPlain c)

/-- The value that was read, unless something is still open. -/
def finish (s : ValueState) : Option (List Piece) :=
  if s.mode = .bracedName ∨ s.mode = .single ∨ s.double then none
  else if s.mode = .name then some s.refer.value
  else some s.value

end ValueState

/-- Reads a value. -/
def readValue (cs : List Char) : Option (List Piece) :=
  (cs.foldlM ValueState.step .start).bind ValueState.finish

/-! ## Assignments -/

/-- A line that sets a variable. -/
structure Assignment where
  name : String
  value : List Piece
deriving DecidableEq, Repr, Inhabited

/-- A character that a name starts with. -/
def startsName (c : Char) : Bool := c.isAlpha || c == '_'

/-- A character that a name goes on with. -/
def continuesName (c : Char) : Bool := c.isAlphanum || c == '_' || c == '.'

/-- Reads a name and the blanks behind it. -/
def readName (cs : List Char) : Option (List Char × List Char) :=
  if cs.head?.any startsName then
    some (cs.takeWhile continuesName, Text.trimStart (cs.dropWhile continuesName))
  else none

/-- Reads an equals sign and the blanks behind it. -/
def readEquals : List Char → Option (List Char)
  | '=' :: cs => some (Text.trimStart cs)
  | _ => none

/-- The word that may stand in front of an assignment. -/
def exportWord : List Char := ['e', 'x', 'p', 'o', 'r', 't']

/-- Reads a name and an equals sign; answers with the name and the text of the value. -/
def readTarget (cs : List Char) : Option (List Char × List Char) := do
  let (name, rest) ← readName cs
  match readEquals rest with
  | some value => pure (name, value)
  | none =>
    if name = exportWord then
      let (name, rest) ← readName rest
      pure (name, ← readEquals rest)
    else none

/-- Reads a line: the inner `none` is a line without an assignment, the outer one a fault. -/
def readLine (line : List Char) : Option (Option Assignment) :=
  let cs := Text.trimStart (Text.trimEnd line)
  if cs.isEmpty || startsComment cs then some none
  else do
    let (name, value) ← readTarget cs
    if value.isEmpty || startsComment value then pure (some ⟨String.ofList name, []⟩)
    else pure (some ⟨String.ofList name, ← readValue value⟩)

/-- The assignments of lines, up to the first fault. -/
def readLines : List (Option (List Char)) → List Assignment
  | some line :: rest =>
    match readLine line with
    | some assignment => assignment.toList ++ readLines rest
    | none => []
  | _ => []

/-- The mark of byte order that a file may start with. -/
def byteOrderMark : Char := Char.ofNat 0xFEFF

/-- The assignments of a file, up to the first fault. -/
def assignments (file : String) : List Assignment :=
  let cs := match file.toList with
    | c :: cs => if c = byteOrderMark then cs else c :: cs
    | [] => []
  readLines (logicalLines [] .complete (physicalLines cs))

/-! ## Setting -/

namespace Piece

/-- What a part of a value stands for; a variable that is not set is empty. -/
def expand (env : Environment) : Piece → List Char
  | .char c => [c]
  | .reference name => ((Assoc.get? env name).getD "").toList

end Piece

namespace Assignment

/-- The variables that an assignment depends on. -/
def mentioned (a : Assignment) : List String :=
  a.name :: a.value.filterMap fun
    | .reference name => some name
    | .char _ => none

/-- Sets the variable unless it is set already. -/
def apply (env : Environment) (a : Assignment) : Environment :=
  if Assoc.contains env a.name then env
  else env ++ [(a.name, String.ofList (a.value.flatMap (Piece.expand env)))]

end Assignment

/-- The environment with the variables of a file. -/
def extend (env : Environment) (file : String) : Environment :=
  (assignments file).foldl Assignment.apply env

end EnvFile

end Tabletop
