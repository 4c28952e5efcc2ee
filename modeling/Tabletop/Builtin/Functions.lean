import Tabletop.Builtin.Basic

/-
  User-defined functions, and text that runs as a macro.
-/
namespace Tabletop.Builtin

open Arguments

/-- Text with a bracket in it is a body; any other text names a macro. -/
def isBody (s : String) : Bool := s.toList.any fun c => c == '[' || c == '\x7b'

/-- The body that a text is or names, and its location. -/
def bodyOf (source : String) : Action (String × String) := do
  let f ← Action.frame
  if isBody source then pure (source, f.location)
  else
    let m ← Action.ofExcept ((← Action.campaign).locate (Text.trim source) f.subject f.location)
    pure (m.body, m.location)

/-- Adds a definition. -/
def addDefinition (name : String) (d : Definition) : Action Unit :=
  modify fun s => { s with table := { s.table with functions := s.table.functions.define name d } }

/-- What the function that defines functions is called. -/
def definerName : String := "defineFunction"

/-- Defines a function for a trusted macro. -/
def defineTrusted (name : String) (d : Definition) : Action Unit := do
  Action.requireTrust definerName
  addDefinition name d

def defineFunction : Builtin := trustedOnly <|
  acting definerName (.upTo 2 2) "Define a function from body text or a `name@location` macro"
    fun _ name args => do
      let defined := Text.trim (textAt args 0)
      if defined = "" then Action.ofExcept (fault name 0 (.emptyName .function))
      let (body, location) ← bodyOf (textAt args 1)
      defineTrusted defined ⟨body, flagAt args 2 false, flagAt args 3 true, location⟩
      pure .empty

def isFunctionDefined : Builtin :=
  acting "isFunctionDefined" (.exactly 1) "Whether a user function or built-in exists under a name"
    fun calls _ args => do
      let name := textAt args 0
      pure (.ofBool ((← get).table.functions.contains name || calls.hasBuiltin name))

/-- Calls the function before a function: the definition whose place it took, or else the built-in
    function of its name. -/
def callOlder (calls : Calls) (f : UserFunction) (args : List Value) : Action Value :=
  match f.older? with
  | some older => invoke calls.evaluate older args
  | none => calls.builtin f.name args

def oldFunction : Builtin :=
  acting "oldFunction" (.atLeast 0)
    ("Call the definition the current user function replaced: the previous user definition of the " ++
      "same name, or the shadowed built-in")
    fun calls _ args => do
      match (← Action.frame).function with
      | none => Action.failEvaluation .outsideFunction
      | some f => callOlder calls f args

def evalMacro : Builtin := trustedOnly <|
  acting "evalMacro" (.exactly 1) "Evaluate macro text in the caller's scope"
    fun calls _ args => runText calls.evaluate (textAt args 0) true

def execMacro : Builtin := trustedOnly <|
  acting "execMacro" (.exactly 1) "Evaluate macro text in a fresh scope"
    fun calls _ args => runText calls.evaluate (textAt args 0) false

def getMacroName : Builtin :=
  acting "getMacroName" (.exactly 0) "Name of the running macro or user function"
    fun _ _ _ => return .text (← Action.frame).name

def getMacroLocation : Builtin :=
  acting "getMacroLocation" (.exactly 0)
    "Location of the running macro: `TOKEN`, a library token name, or `chat`"
    fun _ _ _ => return .text (← Action.frame).location

/-- The functions on functions and macro text. -/
def functions : List Builtin :=
  [defineFunction, isFunctionDefined, oldFunction, evalMacro, execMacro, getMacroName,
    getMacroLocation]

end Tabletop.Builtin
