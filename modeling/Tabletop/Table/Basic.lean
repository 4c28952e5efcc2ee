import Tabletop.Campaign.Basic
import Tabletop.Dice.Generator
import Tabletop.Function.Defined
import Tabletop.Macro.Fault

/-
  A running table: the campaign and what macros have set up beside it.

  `TableM` is the type of what happens at a table.  A change that was made before an interrupt stays.
-/
namespace Tabletop

/-- Everything that lasts from one macro to the next. -/
structure Table where
  campaign : Campaign
  /-- The functions that macros have defined. -/
  functions : FunctionTable
  /-- Links to be followed when the line is done, the first one in front. -/
  queue : List String
  dice : Dice.Generator
deriving DecidableEq, Repr, Inhabited

/-- The table of a campaign before any macro has run. -/
def Table.ofCampaign (c : Campaign) (dice : Dice.Generator) : Table := ⟨c, .empty, [], dice⟩

/-- Something that happens at a table. -/
abbrev TableM (α : Type) := ExceptT Interrupt (StateM Table) α

namespace TableM

/-- Stops with an error. -/
def fail {α : Type} (e : MacroError) : TableM α := throw (.error e)

/-- The value of a computation that does not depend on the table. -/
def ofExcept {α : Type} : Except MacroError α → TableM α
  | .ok a => pure a
  | .error e => fail e

/-- Looks at the campaign. -/
def campaign : TableM Campaign := return (← get).campaign

/-- Changes the campaign. -/
def modifyCampaign (f : Campaign → Campaign) : TableM Unit :=
  modify fun t => { t with campaign := f t.campaign }

/-- Goes on with an error as a value; other interrupts stop as before. -/
def attempt {α : Type} (act : TableM α) : TableM (Except MacroError α) := fun t =>
  match act t with
  | (.ok a, t) => (.ok (.ok a), t)
  | (.error (.error e), t) => (.ok (.error e), t)
  | (.error i, t) => (.error i, t)

end TableM

end Tabletop
