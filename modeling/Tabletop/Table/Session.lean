import Tabletop.Builtin.Catalog
import Tabletop.Campaign.Saved
import Tabletop.Table.Interpreter

/-
  What a player does at a table, line by line.

  1. **Chat** — a line runs as a macro.  Then the links in its output that may be followed without
     being asked are followed, then the links that were put off.  The answer holds the messages that
     came up meanwhile.

  2. **Tokens** — the player can act as a token and select tokens, by id or name.

  3. **Saves** — a campaign can be opened in the place of the one at the table; its load macros run
     at once.
-/
namespace Tabletop

/-- The answer to a line of chat. -/
structure ChatReply where
  output : MacroOutput
  /-- The links that were followed. -/
  links : List LinkReport
  messages : List ChatMessage
deriving Repr, Inhabited

/-- Why a request of the player was refused. -/
inductive RequestFault where
  | interrupt (i : Interrupt)
  | noToken (name : String)
  | save (f : SaveFault)
deriving DecidableEq, Repr, Inhabited

/-- An interrupt in words. -/
def Interrupt.message : Interrupt → String
  | .error e => e.message
  | .abort message => abortText message
  | .exhausted => "Calls are nested too deeply"

/-- The wording of a fault. -/
def RequestFault.message : RequestFault → String
  | .interrupt i => i.message
  | .noToken name => "No token matches '" ++ name ++ "'"
  | .save f => f.message

namespace Campaign

/-- The token that a player means. -/
def tokenFor (c : Campaign) (name : String) : Except RequestFault TokenId :=
  match c.findToken? name with
  | some t => .ok t.id
  | none => .error (.noToken name)

/-- A table to try things out: the player is its GM, with a library token and a hero. -/
def demo (player : String) (library hero : TokenId) : Campaign :=
  let owners := NameSet.ofNames [player]
  { (new "Headless Table").addPlayer ⟨player, .gm⟩ with
    tokens := [{ Token.named library "Lib:Table" with owners },
      { Token.named hero "Hero" with owners, properties := .ofList [("HP", "10")] }]
    impersonated := some hero }

end Campaign

/-- Takes the messages out of the transcript. -/
def TableM.drain : TableM (List ChatMessage) := do
  let messages := (← campaign).transcript
  modifyCampaign fun c => { c with transcript := [] }
  pure messages

/-- Acts as a token from now on. -/
def Table.impersonate (t : Table) (name : String) : Except RequestFault (TokenId × Table) := do
  let id ← t.campaign.tokenFor name
  pure (id, { t with campaign := { t.campaign with impersonated := some id } })

/-- Selects tokens in the place of those that are selected. -/
def Table.select (t : Table) (names : List String) : Except RequestFault (List TokenId × Table) := do
  let ids ← names.mapM t.campaign.tokenFor
  pure (ids, { t with campaign := { t.campaign with selected := ids } })

namespace Interpreter

/-- How deep calls may nest at a table of players. -/
def maxDepth : Nat := 1000000

/-- All built-in functions with these settings. -/
def standard (config : Config) : Interpreter := ⟨config, .builtins, maxDepth⟩

variable (i : Interpreter)

/-- Follows those links that may be followed without being asked. -/
def followByThemselves : List String → TableM (List LinkReport)
  | [] => pure []
  | text :: rest => do
    if (← TableM.campaign).followsByItself text then
      let report ← i.follow text false
      let reports ← followByThemselves rest
      pure (report :: reports)
    else followByThemselves rest

/-- Answers a line of chat. -/
def send (text : String) : TableM ChatReply := do
  let output ← i.runChat text
  let links ← i.followByThemselves (MacroLink.scan output.text)
  let later ← i.followQueue
  pure ⟨output, links ++ later, ← TableM.drain⟩

/-- Follows a link for the player; errors of recipients are reported. -/
def click (text : String) : TableM (LinkReport × List ChatMessage) := do
  let report ← i.follow text true
  pure (report, ← TableM.drain)

/-- Puts another campaign on the table and runs its load macros. -/
def openCampaign (c : Campaign) : TableM (List (String × MacroError)) := do
  TableM.modifyCampaign fun _ => c
  i.reload

/-- The table of a campaign after its load macros have run. -/
def tableOf (c : Campaign) (dice : Dice.Generator) : Table :=
  (i.reload (Table.ofCampaign c dice)).2

end Interpreter

end Tabletop
