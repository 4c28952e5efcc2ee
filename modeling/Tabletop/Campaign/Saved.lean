import Tabletop.Campaign.Written
import Tabletop.Json.Reader
import Tabletop.Text.Alphanumeric

/-
  Saved campaigns.

  1. **A save** — a campaign with the version of the format, the time when it was saved and a
     summary.  It is written as a JSON document in lines, two blanks for each level.

  2. **Loading** — the whole document has to make sense before its version is looked at; a document
     of another version is refused.

  3. **Summaries** — the summary can be read without the campaign.  Listing the saves of a folder
     passes over all files that are not saves of this version.

  4. **File names** — all characters of a campaign's name that are neither letters nor digits become
     `_`.
-/
namespace Tabletop

/-- What a save says about its campaign. -/
structure SaveSummary where
  campaignName : String
  players : Nat
  tokens : Nat
  libraryTokens : List String
deriving DecidableEq, Repr, Inhabited

/-- A campaign in a file. -/
structure SavedCampaign where
  version : Nat
  savedAt : String
  summary : SaveSummary
  campaign : Campaign
deriving DecidableEq, Repr, Inhabited

/-- Why a file could not be read or written. -/
inductive SaveFault where
  /-- The file or folder is out of reach. -/
  | unreachable (reason : String)
  /-- The text of the file is no save. -/
  | malformed
  | wrongVersion (found : Nat)
deriving DecidableEq, Repr, Inhabited

/-- The version of the format. -/
def saveVersion : Nat := 1

/-- The wording of a fault. -/
def SaveFault.message : SaveFault → String
  | .unreachable reason => "IO error: " ++ reason
  | .malformed => "JSON error"
  | .wrongVersion found =>
    "Version mismatch: expected " ++ Decimal.displayInt saveVersion ++ ", found " ++
      Decimal.displayInt found

/-! ## Summaries -/

namespace SaveSummary

/-- The summary of a campaign. -/
def ofCampaign (c : Campaign) : SaveSummary :=
  ⟨c.name, c.players.length, c.tokens.length, c.libraryTokens.map Token.name⟩

/-- The first number that is too large for a count. -/
def countBound : Nat := 2 ^ 64

def toJson (s : SaveSummary) : Json :=
  .object [("campaign_name", .string s.campaignName), ("players", Json.ofInt s.players),
    ("tokens", Json.ofInt s.tokens), ("library_tokens", .array (s.libraryTokens.map .string))]

def ofJson? (j : Json) : Option SaveSummary := do
  let r ← JsonRecord.ofJson? ["campaign_name", "players", "tokens", "library_tokens"] j
  pure ⟨← r.required "campaign_name" Json.readText,
    ← r.required "players" (Json.readNatBelow countBound),
    ← r.required "tokens" (Json.readNatBelow countBound),
    ← r.defaulted "library_tokens" [] (Json.readList Json.readText)⟩

end SaveSummary

/-! ## Writing -/

namespace SavedCampaign

/-- The save of a campaign. -/
def ofCampaign (c : Campaign) (savedAt : String) : SavedCampaign :=
  ⟨saveVersion, savedAt, .ofCampaign c, c⟩

def toJson (s : SavedCampaign) : Json :=
  .object [("version", Json.ofInt s.version), ("saved_at", .string s.savedAt),
    ("metadata", s.summary.toJson), ("campaign", s.campaign.toJson)]

/-- The text of the file. -/
def render (s : SavedCampaign) : String := s.toJson.renderIndented 2

/-! ## Reading -/

/-- The first number that is too large for a version. -/
def versionBound : Nat := 2 ^ 32

def ofJson? (j : Json) : Option SavedCampaign := do
  let r ← JsonRecord.ofJson? ["version", "saved_at", "metadata", "campaign"] j
  pure ⟨← r.required "version" (Json.readNatBelow versionBound),
    ← r.required "saved_at" Json.readText, ← r.required "metadata" SaveSummary.ofJson?,
    ← r.required "campaign" Campaign.ofJson?⟩

/-- Refuses other versions. -/
def checkVersion (found : Nat) : Except SaveFault Unit :=
  if found = saveVersion then .ok () else .error (.wrongVersion found)

/-- Reads a file. -/
def parse (s : String) : Except SaveFault SavedCampaign :=
  match (Json.readDocument? s).bind ofJson? with
  | none => .error .malformed
  | some saved => do
    checkVersion saved.version
    pure saved

/-- The version and the summary in a document. -/
def peekJson? (j : Json) : Option (Nat × SaveSummary) := do
  let r ← JsonRecord.ofJson? ["version", "metadata"] j
  pure (← r.required "version" (Json.readNatBelow versionBound),
    ← r.required "metadata" SaveSummary.ofJson?)

/-- Reads the summary of a file. -/
def peek (s : String) : Except SaveFault SaveSummary :=
  match (Json.readDocument? s).bind peekJson? with
  | none => .error .malformed
  | some (version, summary) => do
    checkVersion version
    pure summary

/-! ## Files -/

/-- What the names of save files end with. -/
def fileSuffix : String := ".json"

/-- The name of a file that may be a save: something in front of the suffix. -/
def isFileName (name : String) : Bool :=
  fileSuffix.toList.isSuffixOf name.toList && name ≠ fileSuffix

/-- The summaries of the saves among files, sorted by name. -/
def list (files : List (String × String)) : List (String × SaveSummary) :=
  (files.filterMap fun f =>
    if isFileName f.1 then (peek f.2).toOption.map (f.1, ·) else none).mergeSort
    fun a b => decide (a.1 ≤ b.1)

/-- The path of a campaign's save in a folder. -/
def path (folder campaignName : String) : String :=
  let safe := campaignName.toList.map fun c => if Text.isAlphanumeric c then c else '_'
  folder ++ "/" ++ String.ofList safe ++ fileSuffix

end SavedCampaign

end Tabletop
