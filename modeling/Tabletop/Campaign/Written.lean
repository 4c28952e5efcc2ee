import Tabletop.Campaign.Basic
import Tabletop.Json.Record
import Tabletop.Json.Printer

/-
  Campaigns as JSON documents.

  1. **Writing** — every record is an object that lists all its fields in the order of its
     definition.  Owners, properties and states come in the order of their names.

  2. **Reading** — what writing produces is read back.  Besides that, most fields of tokens and
     campaigns may be missing, and every record may be an array.

  3. **Choices** — roles and channels are written by name; the channel of one player is an object
     with that player's name.
-/
namespace Tabletop

/-! ## Ids, roles and players -/

def TokenId.toJson (id : TokenId) : Json := .string id.render

/-- An id is read as it stands: no blanks around it. -/
def TokenId.ofJson? : Json → Option TokenId
  | .string s => ofChars? s.toList
  | _ => none

def Role.toJson : Role → Json
  | .gm => .string "Gm"
  | .player => .string "Player"

def Role.ofJson? (j : Json) : Option Role :=
  match Json.readChoice j with
  | some ("Gm", none) => some .gm
  | some ("Player", none) => some .player
  | _ => none

def Player.toJson (p : Player) : Json := .object [("name", .string p.name), ("role", p.role.toJson)]

def Player.ofJson? (j : Json) : Option Player := do
  let r ← JsonRecord.ofJson? ["name", "role"] j
  pure ⟨← r.required "name" Json.readText, ← r.required "role" Role.ofJson?⟩

/-! ## Tokens -/

def MacroButton.toJson (b : MacroButton) : Json :=
  .object [("label", .string b.label), ("command", .string b.command),
    ("auto_execute", .bool b.autoExecute), ("group", .string b.group)]

def MacroButton.ofJson? (j : Json) : Option MacroButton := do
  let r ← JsonRecord.ofJson? ["label", "command", "auto_execute", "group"] j
  pure ⟨← r.required "label" Json.readText, ← r.required "command" Json.readText,
    ← r.defaulted "auto_execute" false Json.readFlag, ← r.defaulted "group" "" Json.readText⟩

/-- The names of a set. -/
def NameSet.toJson (s : NameSet) : Json := .array (s.keys.map .string)

def NameSet.ofJson? (j : Json) : Option NameSet := (Json.readList Json.readText j).map ofNames

/-- The entries of a map. -/
def SortedMap.toJson {α : Type} (write : α → Json) (m : SortedMap α) : Json :=
  .object (m.entries.map fun e => (e.1, write e.2))

def SortedMap.ofJson? {α : Type} (read : Json → Option α) (j : Json) : Option (SortedMap α) :=
  (Json.readFieldList read j).map ofList

namespace Token

/-- The fields of a token. -/
def fieldNames : List String :=
  ["id", "name", "owners", "owned_by_all", "properties", "states", "macros"]

def toJson (t : Token) : Json :=
  .object [("id", t.id.toJson), ("name", .string t.name), ("owners", NameSet.toJson t.owners),
    ("owned_by_all", .bool t.ownedByAll), ("properties", t.properties.toJson .string),
    ("states", t.states.toJson .bool), ("macros", .array (t.buttons.map MacroButton.toJson))]

def ofJson? (j : Json) : Option Token := do
  let r ← JsonRecord.ofJson? fieldNames j
  pure {
    id := ← r.required "id" TokenId.ofJson?
    name := ← r.required "name" Json.readText
    owners := ← r.defaulted "owners" SortedMap.empty NameSet.ofJson?
    ownedByAll := ← r.defaulted "owned_by_all" false Json.readFlag
    properties := ← r.defaulted "properties" .empty (SortedMap.ofJson? Json.readText)
    states := ← r.defaulted "states" .empty (SortedMap.ofJson? Json.readFlag)
    buttons := ← r.defaulted "macros" [] (Json.readList MacroButton.ofJson?) }

end Token

/-! ## Turn order -/

/-- A value that may be missing. -/
def Json.ofOption {α : Type} (write : α → Json) : Option α → Json
  | some a => write a
  | none => .null

def InitiativeEntry.toJson (e : InitiativeEntry) : Json :=
  .object [("token", e.token.toJson), ("initiative", Json.ofOption .string e.initiative)]

def InitiativeEntry.ofJson? (j : Json) : Option InitiativeEntry := do
  let r ← JsonRecord.ofJson? ["token", "initiative"] j
  pure ⟨← r.required "token" TokenId.ofJson?, ← r.optional "initiative" Json.readText⟩

namespace InitiativeList

/-- The first number that is too large for a position. -/
def positionBound : Nat := 2 ^ 64

def toJson (l : InitiativeList) : Json :=
  .object [("round", Json.ofInt l.round), ("current", Json.ofOption (fun n => Json.ofInt (n : Nat)) l.current),
    ("entries", .array (l.entries.map InitiativeEntry.toJson))]

def ofJson? (j : Json) : Option InitiativeList := do
  let r ← JsonRecord.ofJson? ["round", "current", "entries"] j
  pure ⟨← r.required "round" (Json.readIntWithin (-2 ^ 63) (2 ^ 63)),
    ← r.optional "current" (Json.readNatBelow positionBound),
    ← r.required "entries" (Json.readList InitiativeEntry.ofJson?)⟩

end InitiativeList

/-! ## Chat -/

def Channel.toJson : Channel → Json
  | .player name => .object [("Player", .string name)]
  | .gm => .string "Gm"
  | .all => .string "All"

def Channel.ofJson? (j : Json) : Option Channel :=
  match Json.readChoice j with
  | some ("Player", some (.string name)) => some (.player name)
  | some ("Gm", none) => some .gm
  | some ("All", none) => some .all
  | _ => none

def ChatMessage.toJson (m : ChatMessage) : Json :=
  .object [("channel", m.channel.toJson), ("sender", .string m.sender), ("text", .string m.text)]

def ChatMessage.ofJson? (j : Json) : Option ChatMessage := do
  let r ← JsonRecord.ofJson? ["channel", "sender", "text"] j
  pure ⟨← r.required "channel" Channel.ofJson?, ← r.required "sender" Json.readText,
    ← r.required "text" Json.readText⟩

/-! ## Campaigns -/

namespace Campaign

/-- The fields of a campaign. -/
def fieldNames : List String :=
  ["name", "players", "tokens", "selected", "impersonated", "initiative", "transcript"]

def toJson (c : Campaign) : Json :=
  .object [("name", .string c.name), ("players", .array (c.players.map Player.toJson)),
    ("tokens", .array (c.tokens.map Token.toJson)),
    ("selected", .array (c.selected.map TokenId.toJson)),
    ("impersonated", Json.ofOption TokenId.toJson c.impersonated),
    ("initiative", c.initiative.toJson),
    ("transcript", .array (c.transcript.map ChatMessage.toJson))]

def ofJson? (j : Json) : Option Campaign := do
  let r ← JsonRecord.ofJson? fieldNames j
  pure {
    name := ← r.required "name" Json.readText
    players := ← r.defaulted "players" [] (Json.readList Player.ofJson?)
    tokens := ← r.defaulted "tokens" [] (Json.readList Token.ofJson?)
    selected := ← r.defaulted "selected" [] (Json.readList TokenId.ofJson?)
    impersonated := ← r.defaulted "impersonated" none (Json.readNullable TokenId.ofJson?)
    initiative := ← r.defaulted "initiative" .new InitiativeList.ofJson?
    transcript := ← r.defaulted "transcript" [] (Json.readList ChatMessage.ofJson?) }

end Campaign

end Tabletop
