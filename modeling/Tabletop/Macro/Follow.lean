import Tabletop.MacroLink.Wire
import Tabletop.Macro.Run

/-
  Following links.

  1. **Recipients** — the macro of a link runs once for every recipient, each time with variables of
     its own.  Who the recipients are is settled before the first one runs.

  2. **Output** — text that is not blank goes to the channels of the link, one message after each
     recipient.

  3. **Errors** — an error of a recipient stops the link, or is reported beside the outputs of the
     others.  An abort ends the recipient alone.

  4. **By itself** — a link in chat is followed without being asked if its macro says so and lies on
     a library token that only GMs own.
-/
namespace Tabletop

/-- The macro of a link ran for a recipient. -/
structure RecipientOutput where
  subject : Option TokenId
  text : String
  aborted : Bool
deriving DecidableEq, Repr, Inhabited

/-- The macro of a link failed for a recipient. -/
structure RecipientFailure where
  recipient : String
  error : MacroError
deriving DecidableEq, Repr, Inhabited

/-- What came of following a link. -/
structure LinkReport where
  outputs : List RecipientOutput
  failures : List RecipientFailure
deriving DecidableEq, Repr, Inhabited

/-- Nothing yet. -/
def LinkReport.empty : LinkReport := ⟨[], []⟩

/-- The channels that see the output of a link that `player` follows. -/
def OutputTarget.channels (player : String) : OutputTarget → List Channel
  | .caller => [.player player]
  | .gm => [.gm]
  | .all => [.all]
  | .callerAndGm => [.player player, .gm]
  | .none => []

/-! ## Recipients -/

/-- A recipient as the link calls it, and its token. -/
structure Recipient where
  label : String
  subject : Except MacroError (Option TokenId)
deriving Inhabited

namespace Campaign

/-- The impersonated token, if there is one. -/
def impersonatedRecipient (c : Campaign) : Recipient :=
  ⟨RecipientTarget.impersonatedWord, .ok c.impersonated⟩

/-- The selected tokens. -/
def selectedRecipients (c : Campaign) : List Recipient :=
  c.selected.map fun id => ⟨id.render, .ok (some id)⟩

/-- The recipients that one item of a list stands for. -/
def recipientsNamed (c : Campaign) (item : String) : List Recipient :=
  if Text.sameName item RecipientTarget.impersonatedWord then [c.impersonatedRecipient]
  else if Text.sameName item RecipientTarget.selectedWord then c.selectedRecipients
  else
    match c.findToken? item with
    | some t => [⟨item, .ok (some t.id)⟩]
    | none => [⟨item, .error (.unknownToken "macroLink" item)⟩]

/-- The recipients of a link. -/
def recipients (c : Campaign) : RecipientTarget → List Recipient
  | .impersonated => [c.impersonatedRecipient]
  | .selected => c.selectedRecipients
  | .tokens items => items.flatMap c.recipientsNamed

/-! ## Links that are followed by themselves -/

/-- The link of a text may be followed without being asked. -/
def followsByItself (c : Campaign) (text : String) : Bool :=
  match MacroLink.decode text with
  | none => false
  | some link =>
    match Text.cut (· == '@') link.name with
    | none => false
    | some (_, location) =>
      isLibraryName location &&
        match c.locate link.name none "" with
        | .error _ => false
        | .ok m => m.autoExecute && (c.token? m.holder).any c.trustsToken

end Campaign

/-! ## Following -/

/-- Sends a text to channels. -/
def deliverTo (channels : List Channel) (player text : String) : TableM Unit :=
  TableM.modifyCampaign fun c =>
    channels.foldl (fun c channel => c.deliver ⟨channel, player, text⟩) c

variable (evaluate : String → Action Unit)

/-- Runs the macro of a link for one recipient. -/
def runRecipient (link : MacroLink) (player : String) (r : Recipient) : TableM RecipientOutput := do
  let subject ← TableM.ofExcept r.subject
  let m ← TableM.ofExcept ((← TableM.campaign).locate link.name subject subjectLocation)
  let output ← runLocated evaluate m link.payload.text subject player
  unless Text.isBlankText output.text do
    deliverTo (link.output.channels player) player output.text
  pure ⟨subject, output.text, output.aborted⟩

/-- Runs the macro of a link for recipients in order, up to the first error. -/
def runRecipients (link : MacroLink) (player : String) (report : LinkReport) :
    List Recipient → TableM LinkReport
  | [] => pure report
  | r :: rs => do
    let output ← runRecipient evaluate link player r
    runRecipients link player { report with outputs := report.outputs ++ [output] } rs

/-- Runs the macro of a link for all recipients in order and reports the errors. -/
def runRecipientsApart (link : MacroLink) (player : String) (report : LinkReport) :
    List Recipient → TableM LinkReport
  | [] => pure report
  | r :: rs => do
    match ← TableM.attempt (runRecipient evaluate link player r) with
    | .ok output =>
      runRecipientsApart link player { report with outputs := report.outputs ++ [output] } rs
    | .error e =>
      runRecipientsApart link player { report with failures := report.failures ++ [⟨r.label, e⟩] } rs

/-- Follows the link of a text.  With `apart`, errors of recipients are reported. -/
def followLink (text player : String) (apart : Bool) : TableM LinkReport := do
  match MacroLink.decode text with
  | none => TableM.fail (.unknownMacro text .notLink)
  | some link =>
    let recipients := (← TableM.campaign).recipients link.recipients
    if apart then runRecipientsApart evaluate link player .empty recipients
    else runRecipients evaluate link player .empty recipients

end Tabletop
