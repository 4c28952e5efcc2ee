import Tabletop.Builtin.Basic

/-
  Reading and changing tokens.

  1. **Which token** — the subject, or the token that an argument stands for.

  2. **Trust** — a macro may change its subject; to change any other token it has to be trusted.
-/
namespace Tabletop.Builtin

open Arguments

/-- The token that the argument at `i` stands for, or the subject if it is missing. -/
def readToken (function : String) (args : List Value) (i : Nat) : Action Token :=
  match args[i]? with
  | none => Action.subjectToken function
  | some v => Action.namedToken function v.display

/-- The same for a token that is going to be changed. -/
def tokenToChange (function : String) (args : List Value) (i : Nat) : Action Token :=
  match args[i]? with
  | none => Action.subjectToken function
  | some v => do
    let t ← Action.namedToken function v.display
    unless (← Action.frame).subject = some t.id do Action.requireTrust function
    pure t

/-- Stores a changed token. -/
def store (function : String) (t : Token) : Action Unit := do
  match (← Action.campaign).token? t.id with
  | some _ => Action.modifyCampaign (·.putToken t)
  | none => Action.fail (.unknownToken function t.id.render)

/-- The separator that asks for an array. -/
def listAsArray : String := "json"

/-- Names with a separator between them, or an array of them. -/
def joined (names : List String) (delimiter : String) : Value :=
  if Text.sameName delimiter listAsArray then .tree (.array (names.map .string))
  else .text (Text.join delimiter names)

/-- What stands between names unless a separator is given. -/
def nameDelimiter : String := ","

/-- A name in an argument, which may not be blank. -/
def nameAt (kind : NameKind) (function : String) (args : List Value) (i : Nat) : Action String := do
  let name := Text.trim (textAt args i)
  if name = "" then Action.ofExcept (fault function i (.emptyName kind)) else pure name

/-! ## Names -/

def currentToken : Builtin :=
  acting "currentToken" (.exactly 0) "Id of the Subject token, or empty text"
    fun _ _ _ => return .text (((← Action.frame).subject.map TokenId.render).getD "")

/-- The other name of `getName`. -/
def setterName : String := "setName"

/-- Refuses counts of arguments that one of the names of a function does not take. -/
def checkCount (function : String) (accepted : Arity) (args : List Value) : Action Unit := do
  unless accepted.accepts args.length do
    Action.fail (.arity function accepted args.length)

/-- Reads or changes a name, depending on how the function was called. -/
def nameFunction (function : String) (args : List Value) : Action Value := do
  if function = setterName then
    checkCount function (.upTo 1 1) args
    let name ← nameAt .token function args 0
    let t ← tokenToChange function args 1
    store function { t with name }
    pure .empty
  else
    checkCount function (.upTo 0 1) args
    return .text (← readToken function args 0).name

def getName : Builtin :=
  ⟨⟨["getName", setterName], .upTo 0 2, false, true, "Read or change a token's name"⟩,
    .acts fun _ => nameFunction⟩

/-! ## Properties and states -/

def getProperty : Builtin :=
  acting "getProperty" (.upTo 1 1) "Property value of a token, or empty text when unset"
    fun _ name args => do
      let t ← readToken name args 1
      pure (((t.property? (textAt args 0)).map Value.coerce).getD .empty)

def setProperty : Builtin :=
  acting "setProperty" (.upTo 2 1) ""
    fun _ name args => do
      let property ← nameAt .property name args 0
      let t ← tokenToChange name args 2
      store name (t.setProperty property (textAt args 1))
      pure .empty

def getState : Builtin :=
  acting "getState" (.upTo 1 1) "Whether a named state is set on a token"
    fun _ name args => do
      let t ← readToken name args 1
      pure (.ofBool (t.state (textAt args 0)))

def setState : Builtin :=
  acting "setState" (.upTo 2 1) ""
    fun _ name args => do
      let state ← nameAt .state name args 0
      let t ← tokenToChange name args 2
      let on := flagAt args 1 false
      store name (t.setState state on)
      pure (.ofBool on)

/-! ## Owners, selection and players -/

def getOwners : Builtin :=
  acting "getOwners" (.upTo 0 2) "Owners of a token; `(delim=\",\", token)`"
    fun _ name args => do
      let t ← readToken name args 1
      pure (joined t.owners.keys (delimiterAt args 0 nameDelimiter))

def findToken : Builtin :=
  acting "findToken" (.exactly 1) "Id of a token by id or name, or empty text"
    fun _ _ args => do
      let found := (← Action.campaign).findToken? (textAt args 0)
      pure (.text ((found.map fun t => t.id.render).getD ""))

def getSelected : Builtin :=
  acting "getSelected" (.upTo 0 1) "Ids of the selected tokens"
    fun _ _ args => do
      let ids := (← Action.campaign).selected.map TokenId.render
      pure (joined ids (delimiterAt args 0 nameDelimiter))

def isGM : Builtin :=
  acting "isGM" (.upTo 0 1) "Whether a player, by default the caller, is a GM"
    fun _ _ args => do
      let player := textOr args 0 (← Action.frame).player
      pure (.ofBool ((← Action.campaign).isGm player))

def getPlayerName : Builtin :=
  acting "getPlayerName" (.exactly 0) "" fun _ _ _ => return .text (← Action.frame).player

/-- The functions on tokens and players. -/
def tokens : List Builtin :=
  [currentToken, getName, getProperty, setProperty, getState, setState, getOwners, findToken,
    getSelected, isGM, getPlayerName]

end Tabletop.Builtin
