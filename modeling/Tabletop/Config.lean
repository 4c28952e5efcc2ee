import Tabletop.Text.Case
import Tabletop.Text.Blank

/-
  The settings of a table.

  1. **Settings** — the player at this table, whether chat text is trusted, and the macro that
     libraries run when a campaign is loaded.

  2. **From the environment** — three variables override the defaults.
-/
namespace Tabletop

/-- The settings of a table. -/
structure Config where
  /-- The player at this table. -/
  player : String
  /-- Chat text may use the privileged functions. -/
  trustChat : Bool
  /-- The label of the macro that libraries run when a campaign is loaded. -/
  loadHook : String
deriving DecidableEq, Repr, Inhabited

namespace Config

/-- The load macro unless another one is set. -/
def defaultLoadHook : String := "onCampaignLoad"

/-- The settings for a player. -/
def forPlayer (name : String) : Config := ⟨name, false, defaultLoadHook⟩

/-- The settings without an environment. -/
def default : Config := forPlayer "Player"

/-- A word that switches a setting on. -/
def isYes (s : String) : Bool := ["1", "true", "yes"].contains (Text.lower (Text.trim s))

/-- The settings that the variables of an environment give. -/
def ofEnvironment (variable_ : String → Option String) : Config where
  player := (variable_ "VTT_PLAYER").getD default.player
  trustChat := ((variable_ "VTT_TRUST_CHAT").map isYes).getD default.trustChat
  loadHook := (variable_ "VTT_ONLOAD_MACRO").getD default.loadHook

end Config

end Tabletop
