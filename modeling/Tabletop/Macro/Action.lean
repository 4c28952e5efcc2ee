import Tabletop.Macro.Locate
import Tabletop.Macro.Variables
import Tabletop.Table.Basic

/-
  What a macro does while it runs.

  1. **The frame** — what stays the same while a body runs: its subject, whether it is trusted, its
     name and location, the player, and the user-defined function whose body it is.

  2. **The state** — the table, the variables, and the text produced so far.  All of it survives an
     interrupt.

  3. **Nested bodies** — `nested` runs an action with a frame of its own and with no text.  The
     caller's text comes back as it was; the caller's variables are shared or come back as they
     were.
-/
namespace Tabletop

/-- What stays the same while a body runs. -/
structure Frame where
  subject : Option TokenId
  trusted : Bool
  name : String
  location : String
  player : String
  /-- The user-defined function whose body runs. -/
  function : Option UserFunction
deriving DecidableEq, Repr, Inhabited

/-- What changes while a body runs. -/
structure RunState where
  table : Table
  bindings : Variables
  /-- The text produced so far. -/
  output : String
deriving Repr, Inhabited

/-- Something that a macro does. -/
abbrev Action (α : Type) := ReaderT Frame (ExceptT Interrupt (StateM RunState)) α

/-- The value of a computation that does not depend on the state. -/
def Action.ofExcept {α : Type} : Except MacroError α → Action α
  | .ok a => pure a
  | .error e => throw (.error e)

namespace Action

/-- Stops with an error. -/
def fail {α : Type} (e : MacroError) : Action α := throw (.error e)

/-- Stops with an error of evaluation. -/
def failEvaluation {α : Type} (e : EvaluationFault) : Action α := fail (.evaluation e)

/-- The value of an evaluation that does not depend on the state. -/
def ofEvaluation {α : Type} : Except EvaluationFault α → Action α
  | .ok a => pure a
  | .error e => failEvaluation e

/-- The frame that runs. -/
def frame : Action Frame := read

/-- Lets something happen at the table. -/
def atTable {α : Type} (act : TableM α) : Action α := fun _ s =>
  let (r, t) := act s.table
  (r, { s with table := t })

/-! ## The campaign -/

/-- Looks at the campaign. -/
def campaign : Action Campaign := return (← get).table.campaign

/-- Changes the campaign. -/
def modifyCampaign (f : Campaign → Campaign) : Action Unit :=
  modify fun s => { s with table := { s.table with campaign := f s.table.campaign } }

/-! ## Variables and text -/

/-- Adds to the text. -/
def emit (text : String) : Action Unit := modify fun s => { s with output := s.output ++ text }

/-- Changes the variables. -/
def modifyVariables (f : Variables → Variables) : Action Unit :=
  modify fun s => { s with bindings := f s.bindings }

/-- Sets a variable. -/
def bindVariable (name : String) (v : Value) : Action Unit :=
  modifyVariables (Assoc.insert · name v)

/-- The value of a name: a variable, or else a property of the subject. -/
def lookup? (name : String) : Action (Option Value) := fun f s =>
  let property := do
    let t ← s.table.campaign.token? (← f.subject)
    pure (Value.coerce (← t.property? name))
  (.ok ((Assoc.get? s.bindings name).or property), s)

/-! ## Trust and tokens -/

/-- Stops unless the macro is trusted. -/
def requireTrust (function : String) : Action Unit := do
  unless (← frame).trusted do fail (.permission function)

/-- The subject, which there has to be. -/
def requireSubject (function : String) : Action TokenId := do
  match (← frame).subject with
  | some id => pure id
  | none => fail (.noSubject function)

/-- The token of the subject. -/
def subjectToken (function : String) : Action Token := do
  let id ← requireSubject function
  match (← campaign).token? id with
  | some t => pure t
  | none => fail (.unknownToken function id.render)

/-- The token that an id or a name stands for. -/
def namedToken (function idOrName : String) : Action Token := do
  match (← campaign).findToken? idOrName with
  | some t => pure t
  | none => fail (.unknownToken function idOrName)

/-! ## Nested bodies -/

/-- What a nested body left behind. -/
structure Nested (α : Type) where
  value : α
  output : String
  returned : Option Value
deriving Inhabited

/-- Runs an action with a frame of its own; it shares the variables or starts with none. -/
def nested {α : Type} (f : Frame) (share : Bool) (act : Action α) : Action (Nested α) := fun _ s =>
  let (r, t) := act f ⟨s.table, if share then s.bindings else [], ""⟩
  let back : RunState := ⟨t.table, if share then t.bindings else s.bindings, s.output⟩
  match r with
  | .ok a => (.ok ⟨a, t.output, Variables.returned? t.bindings⟩, back)
  | .error i => (.error i, back)

/-- An abort is the end of the action. -/
def untilAbort (act : Action Unit) : Action Unit := fun f s =>
  match act f s with
  | (.error (.abort _), s) => (.ok (), s)
  | r => r

/-- Hands on the value that a nested body handed back. -/
def passReturn {α : Type} (n : Nested α) : Action Unit :=
  match n.returned with
  | some v => bindVariable Variables.returnName v
  | none => pure ()

end Action

end Tabletop
