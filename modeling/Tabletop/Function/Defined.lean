import Tabletop.SortedMap

/-
  Functions that macros define while the table runs.

  1. **Definitions** — the body of a macro, whether its text counts as the result, and whether it
     sees the variables of its caller.

  2. **Earlier definitions** — a new definition of a name keeps the older ones behind it, newest
     first, each under the name that it was made under.  They can be called from the newer ones only.
-/
namespace Tabletop

/-- A definition of a function. -/
structure Definition where
  body : String
  /-- The text that the body produces is thrown away. -/
  ignoreOutput : Bool
  /-- The body starts without variables. -/
  freshVariables : Bool
  /-- The location of the body, which it sees as its own. -/
  location : String
deriving DecidableEq, Repr, Inhabited

/-- A definition of a name with those that it replaced, newest first. -/
structure UserFunction where
  name : String
  definition : Definition
  previous : List (String × Definition)
deriving DecidableEq, Repr, Inhabited

namespace UserFunction

/-- All definitions under their names, newest first. -/
def named (f : UserFunction) : List (String × Definition) := (f.name, f.definition) :: f.previous

/-- All definitions, newest first. -/
def chain (f : UserFunction) : List Definition := f.named.map Prod.snd

/-- The function of some definitions, the newest of which comes first. -/
def ofChain? : List (String × Definition) → Option UserFunction
  | [] => none
  | (name, d) :: ds => some ⟨name, d, ds⟩

/-- The function before the last definition. -/
def older? (f : UserFunction) : Option UserFunction := ofChain? f.previous

end UserFunction

/-- The functions that are defined, by name. -/
structure FunctionTable where
  functions : SortedMap UserFunction
deriving DecidableEq, Repr, Inhabited

namespace FunctionTable

/-- The table without functions. -/
def empty : FunctionTable := ⟨.empty⟩

/-- The function of a name. -/
def get? (t : FunctionTable) (name : String) : Option UserFunction := t.functions.get? name

def contains (t : FunctionTable) (name : String) : Bool := (t.get? name).isSome

/-- The names in order. -/
def names (t : FunctionTable) : List String := t.functions.keys

/-- Puts a function in the place of the one that its name has.  The definitions before it are those of
    the table, whatever it was given as its own. -/
def submit (t : FunctionTable) (f : UserFunction) : FunctionTable :=
  let previous := ((t.get? f.name).map UserFunction.named).getD []
  ⟨t.functions.insert f.name { f with previous }⟩

/-- Adds a definition in front of those that the name has. -/
def define (t : FunctionTable) (name : String) (d : Definition) : FunctionTable :=
  t.submit ⟨name, d, []⟩

/-- Takes all functions out. -/
def clear (_ : FunctionTable) : FunctionTable := empty

end FunctionTable

end Tabletop
