import Tabletop.Console.Command
import Tabletop.Console.Files
import Tabletop.Console.Options
import Tabletop.Table.Session

/-
  A table at a console.

  1. **Answers** — every command is answered with lines.  A fault is a line that starts with
     `[ERROR]`, and the table stays open.

  2. **Beginning** — the campaign of a save, or a demo table.  A save that cannot be opened ends the
     program at once.

  3. **The conversation** — goes on until the player quits or the lines end.
-/
namespace Tabletop

namespace Console

/-! ## Lines of an answer -/

/-- The line of a fault. -/
def errorLine (message : String) : String := "[ERROR] " ++ message

/-- The line of a message. -/
def messageLine (m : ChatMessage) : String :=
  "[" ++ m.channel.describe ++ "] " ++ m.sender ++ ": " ++ m.text

/-- The lines of what went wrong with a link. -/
def reportLines (r : LinkReport) : List String :=
  r.failures.map fun f => errorLine (f.recipient ++ ": " ++ f.error.message)

/-- The lines of the answer to chat. -/
def replyLines (r : ChatReply) : List String :=
  (if r.output.aborted then ["[ABORTED]"]
    else if Text.isBlankText r.output.text then []
    else ["[OUT] " ++ r.output.text]) ++
  r.links.flatMap reportLines ++ r.messages.map messageLine

/-- The lines that a table is opened with. -/
def banner (i : Interpreter) (t : Table) : List String :=
  ["=== Headless Table ===", "Campaign: " ++ t.campaign.name, "Player: " ++ i.config.player] ++
    Command.helpLines ++ [""]

/-! ## Answers -/

variable {m : Type → Type} [Monad m] (files : Files m) (i : Interpreter)

/-- The answer to something that happens at the table. -/
def happening {α : Type} (act : TableM α) (lines : α → List String) (t : Table) :
    List String × Table :=
  match act t with
  | (.ok a, t) => (lines a, t)
  | (.error e, t) => ([errorLine e.message], t)

/-- The answer to a change that the player makes. -/
def changing {α : Type} (r : Except RequestFault (α × Table)) (line : α → String) (t : Table) :
    List String × Table :=
  match r with
  | .ok (a, t) => ([line a], t)
  | .error e => ([errorLine e.message], t)

/-- Answers a command. -/
def answer (t : Table) : Command → m (List String × Table)
  | .chat text => pure (happening (i.send text) replyLines t)
  | .quit => pure ([], t)
  | .help => pure (Command.helpLines, t)
  | .save path => do
    match ← files.save path t.campaign with
    | .ok () => pure (["[SAVED] " ++ path], t)
    | .error e => pure ([errorLine ("Save failed: " ++ e.message)], t)
  | .load path => do
    match ← files.openSave path with
    | .ok c =>
      pure (happening (i.openCampaign c) (fun failures => ("[LOADED] " ++ path) ::
        failures.map fun f => errorLine ("Load hook on " ++ f.1 ++ ": " ++ f.2.message)) t)
    | .error e => pure ([errorLine ("Load failed: " ++ e.message)], t)
  | .link text =>
    pure (happening (i.click text) (fun r => reportLines r.1 ++ r.2.map messageLine) t)
  | .impersonate token =>
    pure (changing (t.impersonate token) (fun id => "[AS] " ++ token ++ " (" ++ id.render ++ ")") t)
  | .select tokens =>
    pure (changing (t.select tokens) (fun ids => "[SELECTED] " ++ Decimal.displayInt ids.length) t)
  | .functions => pure (t.functions.names.map ("  " ++ ·), t)
  | .incomplete name => pure ([errorLine ("Usage: #" ++ name ++ " <argument>")], t)
  | .unknown => pure ([errorLine "Unknown command. Type #help for help."], t)

/-! ## The program -/

/-- The campaign to begin with; a demo table needs two ids. -/
def firstCampaign (o : Options) (config : Config) (library hero : TokenId) :
    m (Except SaveFault Campaign) :=
  match o.campaign with
  | some path => files.openSave path
  | none => pure (.ok (.demo config.player library hero))

/-- Answers lines until one of them quits. -/
def converse (t : Table) : List String → m (List String)
  | [] => pure []
  | line :: rest =>
    match Command.ofLine? line with
    | none => converse t rest
    | some .quit => pure []
    | some command => do
      let (lines, t) ← answer files i t command
      pure (lines ++ (← converse t rest))

/-- How the program ends. -/
structure Ending where
  /-- Zero unless the program could not begin. -/
  code : Nat
  lines : List String
deriving DecidableEq, Repr, Inhabited

/-- The environment with the variables of the folder's own file. -/
def environment (env : Environment) : m Environment := do
  match ← files.read EnvFile.name with
  | .ok text => pure (EnvFile.extend env text)
  | .error _ => pure env

/-- Runs the program on all lines of its input. -/
def run (env : Environment) (arguments input : List String) (library hero : TokenId)
    (dice : Dice.Generator) : m Ending := do
  let o := Options.ofArguments arguments
  if o.help then pure ⟨0, Options.helpLines⟩
  else
    let i := Interpreter.standard (o.config (← environment files env))
    match ← firstCampaign files o i.config library hero with
    | .error _ => pure ⟨1, []⟩
    | .ok c =>
      let t := i.tableOf c dice
      pure ⟨0, banner i t ++ (← converse files i t input)⟩

end Console

end Tabletop
