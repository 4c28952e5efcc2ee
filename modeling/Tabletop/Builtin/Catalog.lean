import Tabletop.Builtin.Chat
import Tabletop.Builtin.Control
import Tabletop.Builtin.Dice
import Tabletop.Builtin.Functions
import Tabletop.Builtin.Links
import Tabletop.Builtin.PropertyLists
import Tabletop.Builtin.StringLists
import Tabletop.Builtin.Tokens
import Tabletop.Builtin.Trees
import Tabletop.Builtin.TurnOrder

/-
  All built-in functions, in the order of their registration.
-/
namespace Tabletop

/-- All built-in functions. -/
def Builtin.all : List Builtin :=
  propertyLists ++ stringLists ++ trees ++ control ++ functions ++ links ++ tokens ++ chat ++
    turnOrder ++ diceRolls

/-- The registry of all built-in functions. -/
def Registry.builtins : Registry Behaviour := .ofList Builtin.all

end Tabletop
