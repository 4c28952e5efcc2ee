import Tabletop.Value
import Tabletop.Text.Split

/-
  Macro links: a macro button to press, from chat.

  1. **What a link says** — the macro, who sees the output, the tokens that it runs for, and the
     arguments.

  2. **Arguments** — a JSON tree, or segments of a property list.  Text that writes a tree is one,
     any other text is cut at its semicolons.

  3. **For the macro** — segments are joined again with ` ; `; a semicolon inside a segment is written
     `&#59`, so that the list still splits in the same way.
-/
namespace Tabletop

/-- Who sees the output of a link. -/
inductive OutputTarget where
  /-- The player who follows the link. -/
  | caller
  | gm
  | all
  /-- The player who follows the link, and the GMs. -/
  | callerAndGm
  | none
deriving DecidableEq, Repr, Inhabited

/-- The tokens that a link runs for. -/
inductive RecipientTarget where
  | impersonated
  | selected
  /-- Ids or names of tokens; the two keywords may be among them. -/
  | tokens (names : List String)
deriving DecidableEq, Repr, Inhabited

/-- The arguments of a link. -/
inductive LinkPayload where
  | tree (j : Json)
  | segments (xs : List String)
deriving Repr, Inhabited

/-- A macro link. -/
structure MacroLink where
  name : String
  output : OutputTarget
  recipients : RecipientTarget
  payload : LinkPayload
deriving Repr, Inhabited

/-! ## Targets -/

/-- The name of an output target. -/
def OutputTarget.name : OutputTarget → String
  | .caller => "self"
  | .gm => "gm"
  | .all => "all"
  | .callerAndGm => "gm-self"
  | .none => "none"

/-- The output target of a name, in any case; unknown names show the output to nobody. -/
def OutputTarget.parse (s : String) : OutputTarget :=
  match Text.lower (Text.trim s) with
  | "self" => .caller
  | "gm" => .gm
  | "all" => .all
  | "say" => .all
  | "gm-self" => .callerAndGm
  | "gmself" => .callerAndGm
  | _ => .none

/-- The word for the impersonated token. -/
def RecipientTarget.impersonatedWord : String := "impersonated"

/-- The word for the selected tokens. -/
def RecipientTarget.selectedWord : String := "selected"

/-- The recipients that a text lists. -/
def RecipientTarget.parse (s : String) : RecipientTarget :=
  let t := Text.trim s
  if Text.sameName t impersonatedWord then .impersonated
  else if Text.sameName t selectedWord then .selected
  else .tokens (((Text.split "," t).map Text.trim).filter (· ≠ ""))

/-- The text that lists recipients. -/
def RecipientTarget.render : RecipientTarget → String
  | .impersonated => impersonatedWord
  | .selected => selectedWord
  | .tokens names => Text.join "," names

/-! ## Arguments -/

/-- The arguments that a text writes. -/
def LinkPayload.ofText (s : String) : LinkPayload :=
  match Json.parseTree? s with
  | some j => .tree j
  | none => .segments (((Text.split ";" s).map Text.trim).filter (· ≠ ""))

/-- The text that the macro is given. -/
def LinkPayload.text : LinkPayload → String
  | .tree j => j.render
  | .segments xs =>
    Text.join " ; " (xs.map fun x => Text.join "&#59" (Text.split ";" x))

/-- Equality of arguments; the order of an object's fields does not count. -/
def LinkPayload.same : LinkPayload → LinkPayload → Bool
  | .tree a, .tree b => a.same b
  | .segments xs, .segments ys => xs == ys
  | _, _ => false

/-- Equality of links. -/
def MacroLink.same (a b : MacroLink) : Bool :=
  a.name == b.name && a.output == b.output && a.recipients == b.recipients && a.payload.same b.payload

/-- The link with these parts and the arguments that a text writes. -/
def MacroLink.make (name : String) (output : OutputTarget) (recipients : RecipientTarget)
    (arguments : String) : MacroLink :=
  ⟨name, output, recipients, .ofText arguments⟩

end Tabletop
