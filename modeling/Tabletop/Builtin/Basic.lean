import Tabletop.Function.Registry
import Tabletop.Macro.Evaluate

/-
  Built-in functions, and what all of them have in common.

  1. **Behaviour** — most functions compute a value from their arguments; the others look at the
     table or change it.  A function is told the name by which it was called.

  2. **Calling** — the name has to be known, the count of the arguments has to be accepted, and the
     macro has to be trusted where the function says so, in this order.  A result that writes a
     number is that number.

  3. **Arguments** — a missing argument counts as empty text unless the function has a default.
     Positions in errors count from one.
-/
namespace Tabletop

/-- What a function does. -/
inductive Behaviour where
  /-- The value depends on the arguments alone. -/
  | computes (f : String → List Value → Except MacroError Value)
  | acts (f : Calls → String → List Value → Action Value)

/-- Does what a function does. -/
def Behaviour.run (b : Behaviour) (calls : Calls) (name : String) (args : List Value) :
    Action Value :=
  match b with
  | .computes f => Action.ofExcept (f name args)
  | .acts f => f calls name args

/-- A function that is part of the language. -/
abbrev Builtin := Registered Behaviour

namespace Builtin

/-- A function that computes its value. -/
def computing (name : String) (arity : Arity) (description : String)
    (f : String → List Value → Except MacroError Value) : Builtin :=
  ⟨⟨[name], arity, false, true, description⟩, .computes f⟩

/-- A function that looks at the table or changes it. -/
def acting (name : String) (arity : Arity) (description : String)
    (f : Calls → String → List Value → Action Value) : Builtin :=
  ⟨⟨[name], arity, false, true, description⟩, .acts f⟩

/-- The function, for trusted macros only. -/
def trustedOnly (b : Builtin) : Builtin :=
  { b with descriptor := { b.descriptor with trusted := true } }

/-- The function, whose equal calls may have different results. -/
def varying (b : Builtin) : Builtin :=
  { b with descriptor := { b.descriptor with deterministic := false } }

end Builtin

/-! ## Calling -/

/-- Calls a built-in function. -/
def Registry.call (r : Registry Behaviour) (calls : Calls) (name : String) (args : List Value) :
    Action Value := do
  match r.find? name with
  | none => Action.fail (.unknownFunction name)
  | some b =>
    if b.descriptor.arity.accepts args.length then
      if b.descriptor.trusted then Action.requireTrust name
      let v ← b.function.run calls name args
      pure v.coerced
    else Action.fail (.arity name b.descriptor.arity args.length)

/-! ## Arguments -/

namespace Arguments

variable (args : List Value)

/-- An argument, or empty text. -/
def valueAt (i : Nat) : Value := args[i]?.getD .empty

/-- The text of an argument. -/
def textAt (i : Nat) : String := (valueAt args i).display

/-- The text of an argument, or a default if it is missing. -/
def textOr (i : Nat) (default : String) : String := (args[i]?.map Value.display).getD default

/-- The text of an argument, or a default if it is missing or empty. -/
def delimiterAt (i : Nat) (default : String) : String :=
  if textAt args i = "" then default else textAt args i

/-- The truth of an argument, or a default if it is missing. -/
def flagAt (i : Nat) (default : Bool) : Bool := (args[i]?.map Value.isTrue).getD default

variable (function : String)

/-- An error of an argument. -/
def fault {α : Type} (i : Nat) (f : ArgumentFault) : Except MacroError α :=
  .error (.malformedArgument function (i + 1) f)

/-- A number. -/
def numberAt (i : Nat) : Except MacroError Decimal :=
  match (valueAt args i).asNumber? with
  | some n => .ok n
  | none => fault function i (.notNumber (textAt args i))

/-- A number without its places, if 64 bits hold it. -/
def intAt (i : Nat) : Except MacroError Int := do
  let n ← numberAt args function i
  if Decimal.InWord n.truncate then pure n.truncate else fault function i (.outOfRange n)

/-- A number that is not negative. -/
def indexAt (i : Nat) : Except MacroError Nat := do
  let n ← intAt args function i
  if 0 ≤ n then pure n.toNat else fault function i (.negativeIndex n)

/-- A position in a list; a negative one is none. -/
def positionAt (i : Nat) : Except MacroError (Option Nat) := do
  let n ← intAt args function i
  pure (if 0 ≤ n then some n.toNat else none)

/-- An array or an object. -/
def treeAt (i : Nat) : Except MacroError Json :=
  match (valueAt args i).asTree? with
  | some j => .ok j
  | none => fault function i (.notTree (textAt args i))

/-- An array or an object, or a default for blank text. -/
def treeOr (i : Nat) (default : Json) : Except MacroError Json :=
  if Text.isBlankText (textAt args i) then .ok default else treeAt args function i

end Arguments

end Tabletop
