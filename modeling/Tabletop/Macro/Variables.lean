import Tabletop.Value

/-
  Variables, and how a macro is given its arguments.

  1. **Variables** — values by name.

  2. **Arguments of functions** — all of them as an array, their count, and each under its own name.

  3. **Arguments of macros** — one text, which is read like the output of a macro.

  4. **Results** — a macro hands a value back in the variable `macro.return`.
-/
namespace Tabletop

/-- The values of variables. -/
abbrev Variables := List (String × Value)

namespace Variables

/-- The variable with all arguments. -/
def argumentsName : String := "macro.args"

/-- The variable with the count of the arguments. -/
def countName : String := "macro.args.num"

/-- The variable that hands a value back. -/
def returnName : String := "macro.return"

/-- The variable with one argument. -/
def argumentName (index : Nat) : String := argumentsName ++ "." ++ Decimal.displayInt index

/-- The value of all arguments together. -/
def packed (args : List Value) : Value :=
  if args.isEmpty then .empty else .tree (.array (args.map Value.toJson))

/-- Binds arguments from a position on. -/
def bindFrom (vars : Variables) (index : Nat) : List Value → Variables
  | [] => vars
  | v :: vs => bindFrom (Assoc.insert vars (argumentName index) v) (index + 1) vs

/-- Binds the arguments of a function. -/
def bindArguments (vars : Variables) (args : List Value) : Variables :=
  bindFrom
    (Assoc.insert (Assoc.insert vars argumentsName (packed args)) countName (.ofInt args.length))
    0 args

/-- Binds the arguments of a macro. -/
def bindArgumentText (vars : Variables) (s : String) : Variables :=
  Assoc.insert vars argumentsName (.ofOutput s)

/-- The value that a macro handed back. -/
def returned? (vars : Variables) : Option Value := Assoc.get? vars returnName

/-- How many arguments a function was given. -/
def argumentCount (vars : Variables) : Nat :=
  match (Assoc.get? vars countName).bind Value.asNumber? with
  | some n => if 0 ≤ n.truncate ∧ n.truncate < 2 ^ 64 then n.truncate.toNat else 0
  | none => 0

end Variables

end Tabletop
