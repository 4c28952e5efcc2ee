import Tabletop.Table.Session

/-
  A table to try macros on.

  It has a GM, Gina, and a player, Pat.  The library token `Lib:Test` is Gina's, the hero is Pat's
  and is impersonated, and the third token is everyone's.  Macros run as the hero: for Pat without
  trust, or for the player of the settings with it.
-/
namespace Tabletop.Trial

/-- The GM. -/
def gmName : String := "Gina"

/-- The player who is no GM. -/
def playerName : String := "Pat"

/-- The ids of the three tokens. -/
structure TokenIds where
  library : TokenId
  hero : TokenId
  shared : TokenId
deriving DecidableEq, Repr, Inhabited

/-- The campaign of the table. -/
def campaign (ids : TokenIds) : Campaign :=
  { Campaign.new "Test Campaign" with
    players := [⟨gmName, .gm⟩, ⟨playerName, .player⟩]
    tokens := [
      { Token.named ids.library "Lib:Test" with owners := .ofNames [gmName] },
      { Token.named ids.hero "Hero" with
        owners := .ofNames [playerName]
        properties := .ofList [("HP", "12"), ("Strength", "16")] },
      { Token.named ids.shared "Shared" with ownedByAll := true }]
    impersonated := some ids.hero }

variable (i : Interpreter) (ids : TokenIds)

/-! ## Running -/

/-- Runs a body for Pat. -/
def run (body : String) : TableM MacroOutput :=
  i.run body (.ofText (.unattached false) playerName (some ids.hero))

/-- Runs a body with trust. -/
def runTrusted (body : String) : TableM MacroOutput :=
  i.run body (.ofText (.unattached true) i.config.player (some ids.hero))

/-- Gives a token a button in the place of those with its label. -/
def putButton (id : TokenId) (b : MacroButton) : TableM Unit :=
  TableM.modifyCampaign fun c =>
    match c.token? id with
    | none => c
    | some t => c.putToken { t with buttons := t.buttons.filter (·.label != b.label) ++ [b] }

/-! ## Expectations -/

/-- A body with trust produces this text. -/
def expectOutput (body expected : String) : TableM Bool := do
  match ← TableM.attempt (runTrusted i ids body) with
  | .ok output => pure (output.text == expected)
  | .error _ => pure false

/-- A body without trust is refused a function. -/
def expectRefused (body function : String) : TableM Bool := do
  match ← TableM.attempt (run i ids body) with
  | .error (.permission f) => pure (f == function)
  | _ => pure false

/-- A property of a token has this text, or is not set. -/
def expectProperty (id : TokenId) (name : String) (expected : Option String) : TableM Bool := do
  pure ((← TableM.campaign).token? id |>.any fun t => t.property? name == expected)

end Tabletop.Trial
