import Tabletop.Macro.Action

/-
  Starting a body.

  1. **Macros** — a macro runs at a table with variables of its own.  Its trust follows from where
     its text comes from at the moment when it starts.  An abort ends it without an error.

  2. **User-defined functions** — the body of a function runs inside its caller: with the caller's
     trust and subject, and with the caller's variables or fresh ones.

  3. **Text** — `evalMacro` and `execMacro` run text in the place of the macro that calls them, so
     that an abort in it also ends the caller.

  The evaluator of bodies is a parameter here: `evaluate` runs a body in the frame that is given.
-/
namespace Tabletop

/-- The circumstances in which a macro is started. -/
structure RunRequest where
  origin : Origin
  subject : Option TokenId
  name : String
  location : String
  player : String
  /-- The text of the arguments, if the macro is given any. -/
  arguments : Option String
deriving DecidableEq, Repr, Inhabited

/-- What a macro leaves behind. -/
structure MacroOutput where
  text : String
  aborted : Bool
  returned : Option Value
deriving Repr, Inhabited

namespace RunRequest

/-- Text without a name. -/
def ofText (origin : Origin) (player : String) (subject : Option TokenId) : RunRequest :=
  ⟨origin, subject, chatLocation, chatLocation, player, none⟩

/-- A macro that was found, with arguments. -/
def ofLocated (m : LocatedMacro) (player : String) (subject : Option TokenId) (arguments : String) :
    RunRequest :=
  ⟨.token m.holder, subject, m.name, m.location, player, some arguments⟩

/-- The frame in which the macro runs. -/
def frame (r : RunRequest) (trusted : Bool) : Frame :=
  ⟨r.subject, trusted, r.name, r.location, r.player, none⟩

/-- The variables with which the macro starts. -/
def bindings (r : RunRequest) : Variables :=
  match r.arguments with
  | some s => Variables.bindArgumentText [] s
  | none => []

end RunRequest

variable (evaluate : String → Action Unit)

/-! ## Macros -/

/-- Runs a body. -/
def runBody (body : String) (r : RunRequest) : TableM MacroOutput := fun t =>
  let (end_, s) := evaluate body (r.frame (t.campaign.trusts r.origin)) ⟨t, r.bindings, ""⟩
  let output (aborted : Bool) : MacroOutput := ⟨s.output, aborted, Variables.returned? s.bindings⟩
  match end_ with
  | .ok () => (.ok (output false), s.table)
  | .error (.abort _) => (.ok (output true), s.table)
  | .error i => (.error i, s.table)

/-- Runs a macro that was found. -/
def runLocated (m : LocatedMacro) (arguments : String) (subject : Option TokenId) (player : String) :
    TableM MacroOutput :=
  runBody evaluate m.body (.ofLocated m player subject arguments)

/-- Runs the macro of a name inside another one; answers with its text. -/
def runNamed (name arguments : String) : Action String := do
  let f ← Action.frame
  let m ← Action.ofExcept ((← Action.campaign).locate name f.subject f.location)
  let output ← Action.atTable (runLocated evaluate m arguments f.subject f.player)
  match output.returned with
  | some v => Action.bindVariable Variables.returnName v
  | none => pure ()
  pure output.text

/-! ## Functions and text -/

/-- The value of a call from what the body left behind. -/
def Definition.result (d : Definition) (n : Action.Nested Unit) : Value :=
  if d.ignoreOutput then n.returned.getD .empty
  else if Text.isBlankText n.output then n.returned.getD (.text n.output)
  else .ofOutput n.output

/-- Calls a user-defined function. -/
def invoke (f : UserFunction) (args : List Value) : Action Value := do
  let caller ← Action.frame
  let frame : Frame :=
    { caller with name := f.name, location := f.definition.location, function := some f }
  let n ← Action.nested frame (!f.definition.freshVariables) do
    Action.modifyVariables (Assoc.erase · Variables.returnName)
    Action.modifyVariables (Variables.bindArguments · args)
    Action.untilAbort (evaluate f.definition.body)
  Action.passReturn n
  pure (f.definition.result n)

/-- Runs text in the place of the macro that runs. -/
def runText (text : String) (share : Bool) : Action Value := do
  let n ← Action.nested (← Action.frame) share (evaluate text)
  Action.passReturn n
  pure (.ofOutput n.output)

end Tabletop
