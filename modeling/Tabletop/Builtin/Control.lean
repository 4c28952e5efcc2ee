import Tabletop.Builtin.Basic

/-
  Arguments, variables and ways to stop.
-/
namespace Tabletop.Builtin

open Arguments

/-- The argument of the running function at a position. -/
def passedArgument (vars : Variables) (function : String) (i : Nat) : Except MacroError Value :=
  if i < vars.argumentCount then .ok ((Assoc.get? vars (Variables.argumentName i)).getD .empty)
  else fault function 0 (.noSuchArgument i vars.argumentCount)

def arg : Builtin :=
  acting "arg" (.exactly 1) "Argument passed to the current user function"
    fun _ name args => do
      let i ← Action.ofExcept (indexAt args name 0)
      Action.ofExcept (passedArgument (← get).bindings name i)

def argCount : Builtin :=
  acting "argCount" (.exactly 0) "Number of arguments passed to the current user function"
    fun _ _ _ => return .ofWord (← get).bindings.argumentCount

/-- Binds names and values that follow each other; stops at a name that is blank. -/
def bindPairs (function : String) : List Value → Action Unit
  | name :: v :: rest => do
    if Text.isBlankText name.display then
      Action.ofExcept (fault function 0 (.emptyName .variable))
    Action.bindVariable name.display v
    bindPairs function rest
  | _ => pure ()

def set : Builtin :=
  acting "set" (.atLeast 2) "Bind name/value pairs in the current scope"
    fun _ name args => do
      if args.length % 2 = 1 then Action.ofExcept (fault name (args.length - 1) .unpairedNames)
      else
        bindPairs name args
        pure .empty

def abort : Builtin :=
  acting "abort" (.upTo 0 1) "Stop the current macro silently"
    fun _ _ args => throw (.abort (args[0]?.map Value.display))

/-- What a failed assertion puts in front of its message. -/
def assertionLead : String := "Macro-defined error: "

def assert : Builtin :=
  computing "assert" (.upTo 2 1) "Fail with a user-visible message when the condition is false"
    fun _ args =>
      if (valueAt args 0).isTrue then .ok (.ofBool true)
      else
        let lead := if flagAt args 2 true then assertionLead else ""
        .error (.assertionFailed (lead ++ textAt args 1))

/-- The functions on arguments and variables, and those that stop. -/
def control : List Builtin := [arg, argCount, set, abort, assert]

end Tabletop.Builtin
