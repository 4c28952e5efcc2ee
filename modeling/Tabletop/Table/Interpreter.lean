import Tabletop.Config
import Tabletop.Macro.Engine
import Tabletop.Macro.Follow

/-
  Running macros at a table.

  1. **Starting** — text from chat, macros by name, links.  Each is run for the player of the
     settings.

  2. **Loading** — all user-defined functions are forgotten, and every trusted library token that has
     the load macro runs it.  A macro that fails does not keep the others from running.

  3. **The queue** — links that macros have put off are followed in order, and so are the links that
     are put off meanwhile.  An error leaves the rest of the queue alone.
-/
namespace Tabletop

/-- What macros are run with. -/
structure Interpreter where
  config : Config
  registry : Registry Behaviour
  /-- How deep calls may nest, and how many links may be taken from the queue. -/
  depth : Nat

namespace Interpreter

variable (i : Interpreter)

/-- The calls that bodies can make. -/
def calls : Calls := Calls.ofDepth i.registry i.depth

/-! ## Starting -/

/-- Runs a body. -/
def run (body : String) (r : RunRequest) : TableM MacroOutput := runBody i.calls.evaluate body r

/-- Runs text from chat as the impersonated token. -/
def runChat (text : String) : TableM MacroOutput := do
  let subject := (← TableM.campaign).impersonated
  i.run text (.ofText (.unattached i.config.trustChat) i.config.player subject)

/-- Runs a macro by its name; a blank name does nothing. -/
def runMacro (name arguments : String) (subject : Option TokenId) : TableM MacroOutput := do
  if Text.isBlankText name then pure ⟨"", false, none⟩
  else
    let m ← TableM.ofExcept ((← TableM.campaign).locate name subject "")
    runLocated i.calls.evaluate m arguments subject i.config.player

/-- There is a function of this name, user-defined or built-in. -/
def knows (t : Table) (name : String) : Bool :=
  t.functions.contains name || i.registry.contains name

/-! ## Loading -/

/-- The name of the load macro of a library token. -/
def hookName (t : Token) : String := i.config.loadHook ++ "@" ++ t.name

/-- Runs the load macro of a token that has one and is trusted; answers with the error. -/
def runHook (t : Token) : TableM (Option MacroError) := do
  if (t.button? i.config.loadHook).isSome && (← TableM.campaign).trustsToken t then
    match ← TableM.attempt (i.runMacro (i.hookName t) "" none) with
    | .ok _ => pure none
    | .error e => pure (some e)
  else pure none

/-- Runs the load macros of tokens; answers with the names of those that failed. -/
def runHooks : List Token → TableM (List (String × MacroError))
  | [] => pure []
  | t :: ts => do
    let failure ← i.runHook t
    let failures ← runHooks ts
    pure (((failure.map fun e => (t.name, e)).toList) ++ failures)

/-- Forgets the user-defined functions and runs the load macros. -/
def reload : TableM (List (String × MacroError)) := do
  modify fun t => { t with functions := t.functions.clear }
  i.runHooks (← TableM.campaign).libraryTokens

/-! ## Links -/

/-- Follows the link of a text. -/
def follow (text : String) (apart : Bool) : TableM LinkReport :=
  followLink i.calls.evaluate text i.config.player apart

/-- Puts a link at the end of the queue. -/
def enqueue (text : String) : TableM Unit := modify fun t => { t with queue := t.queue ++ [text] }

/-- Takes links from the queue and follows them, until the queue is empty. -/
def followQueued : Nat → TableM (List LinkReport)
  | 0 => throw .exhausted
  | n + 1 => do
    match (← get).queue with
    | [] => pure []
    | text :: rest => do
      modify fun t => { t with queue := rest }
      let report ← i.follow text false
      let reports ← followQueued n
      pure (report :: reports)

/-- Follows all links of the queue. -/
def followQueue : TableM (List LinkReport) := i.followQueued (i.depth + 1)

end Interpreter

end Tabletop
