import Tabletop.Campaign.Saved
import Tabletop.Proofs.Campaign.Written

/-
  Saved campaigns are loaded as they were.

  1. **Documents** — the summary and the save are records like those of the campaign.  Their counts and
     the version have ranges of their own (`SaveSummary.Fits`, `SavedCampaign.Fits`).

  2. **Files** — the file of a save is the indented text of its document, and loading reads the whole
     document before it looks at the version.  So a file of this version gives the save
     (`SavedCampaign.parse_render`), and a file of another version is refused for its version and for
     nothing else.
-/
namespace Tabletop

open Json (ReadsBack Within)

/-! ## Documents -/

section Documents

variable {n : Nat}

/-- The counts are numbers of 64 bits without a sign. -/
structure SaveSummary.Fits (s : SaveSummary) : Prop where
  players : s.players < SaveSummary.countBound
  tokens : s.tokens < SaveSummary.countBound

theorem SaveSummary.readsBack {s : SaveSummary} (h : s.Fits) :
    ReadsBack (n + 2) SaveSummary.toJson SaveSummary.ofJson? s := by
  have hplayers : ReadsBack (n + 1) (fun k : Nat => Json.ofInt k) (Json.readNatBelow countBound)
      s.players := .nat h.players (Nat.le_refl _)
  have htokens : ReadsBack (n + 1) (fun k : Nat => Json.ofInt k) (Json.readNatBelow countBound)
      s.tokens := .nat h.tokens (Nat.le_refl _)
  have hlibrary : ReadsBack (n + 1) (fun xs => .array (xs.map .string)) (Json.readList Json.readText)
      s.libraryTokens := .list fun x _ => .text x
  refine .record rfl (fun _ => rfl) rfl (by decide) ?_ ?_
  · simp [Within.string, hplayers.within, htokens.within, hlibrary.within]
  · simp -implicitDefEqProofs [JsonRecord.required, JsonRecord.defaulted, Assoc.get?, Json.readText,
      hplayers.read_write, htokens.read_write, hlibrary.read_write]

/-- The numbers of a save fit their formats. -/
structure SavedCampaign.Fits (s : SavedCampaign) : Prop where
  version : s.version < SavedCampaign.versionBound
  summary : s.summary.Fits
  initiative : s.campaign.initiative.Fits

theorem SavedCampaign.readsBack {s : SavedCampaign} (h : s.Fits) :
    ReadsBack (n + 6) SavedCampaign.toJson SavedCampaign.ofJson? s := by
  have hversion : ReadsBack (n + 5) (fun k : Nat => Json.ofInt k) (Json.readNatBelow versionBound)
      s.version := .nat h.version (by decide)
  have hsummary : ReadsBack (n + 5) SaveSummary.toJson SaveSummary.ofJson? s.summary :=
    SaveSummary.readsBack h.summary
  have hcampaign : ReadsBack (n + 5) Campaign.toJson Campaign.ofJson? s.campaign :=
    Campaign.readsBack h.initiative
  refine .record rfl (fun _ => rfl) rfl (by decide) ?_ ?_
  · simp [Within.string, hversion.within, hsummary.within, hcampaign.within]
  · simp -implicitDefEqProofs [JsonRecord.required, Assoc.get?, Json.readText, hversion.read_write,
      hsummary.read_write, hcampaign.read_write]

end Documents

/-! ## Files -/

namespace SavedCampaign

/-- **The file of a save** holds the save.  Only its version is left to be looked at. -/
theorem parse_render {s : SavedCampaign} (h : s.Fits) :
    parse s.render = (checkVersion s.version).map fun _ => s := by
  have hsave : ReadsBack 6 toJson ofJson? s := readsBack (n := 0) h
  have hdocument : Json.readDocument? s.render = some s.toJson :=
    Json.readDocument?_renderIndented 2 hsave.within.plain
      (Nat.le_trans hsave.within.depth (by decide))
  have hread : (Json.readDocument? s.render).bind ofJson? = some s := by
    rw [hdocument, Option.bind_some, hsave.read_write]
  rw [parse, hread]
  dsimp only
  cases checkVersion s.version <;> rfl

end SavedCampaign

/-- The numbers of a campaign and the counts of its summary fit their formats. -/
structure Campaign.Fits (c : Campaign) : Prop where
  initiative : c.initiative.Fits
  players : c.players.length < SaveSummary.countBound
  tokens : c.tokens.length < SaveSummary.countBound

/-- **A saved campaign is loaded as it was**, and the same file with another version is refused for its
    version. -/
theorem SavedCampaign.parse_render_ofCampaign {c : Campaign} (h : c.Fits) (savedAt : String) :
    (parse (ofCampaign c savedAt).render).map campaign = .ok c ∧
      ∀ v < versionBound, v ≠ saveVersion →
        parse { ofCampaign c savedAt with version := v }.render = .error (.wrongVersion v) := by
  have hfits (v : Nat) (hv : v < versionBound) : Fits { ofCampaign c savedAt with version := v } :=
    ⟨hv, ⟨h.players, h.tokens⟩, h.initiative⟩
  constructor
  · have hsave : (ofCampaign c savedAt).Fits := hfits saveVersion (by decide)
    have hversion : checkVersion (ofCampaign c savedAt).version = .ok () := if_pos rfl
    rw [parse_render hsave, hversion]
    rfl
  · intro v hv hother
    have hversion : checkVersion ({ ofCampaign c savedAt with version := v } : SavedCampaign).version =
        .error (.wrongVersion v) := if_neg hother
    rw [parse_render (hfits v hv), hversion]
    rfl

/-- A campaign with something of everything that a save can hold. -/
def stocked : Campaign where
  name := "Käfig \"Ω\"\n😀"
  players := [⟨"Gina", .gm⟩, ⟨"Pat", .player⟩]
  tokens := [{ Token.named ⟨1⟩ "Hero\x01" with
      owners := .ofNames ["Pat", "Gina"]
      properties := .ofList [("HP", "7"), ("ac", "\\")]
      states := .ofList [("Prone", true), ("Dead", false)]
      buttons := [⟨"hit", "[r: 1d20]", true, "fight"⟩] },
    { Token.named ⟨2⟩ "Lib:Rules" with ownedByAll := true }]
  selected := [⟨1⟩, ⟨9⟩]
  impersonated := some ⟨2⟩
  initiative := ⟨-3, some 1, [⟨⟨1⟩, some "12"⟩, ⟨⟨2⟩, none⟩]⟩
  transcript := [⟨.player "Pat", "Gina", "psst"⟩, ⟨.gm, "Pat", ""⟩, ⟨.all, "Gina", "Hello"⟩]

/-- The campaign is loaded as it was, and not from a file of version 2. -/
theorem SavedCampaign.parse_render_ofCampaign_stocked :
    stocked.Fits ∧ (parse (ofCampaign stocked "0").render).map campaign = .ok stocked ∧
      parse { ofCampaign stocked "0" with version := 2 }.render = .error (.wrongVersion 2) := by
  have hfits : stocked.Fits := {
    initiative := ⟨⟨by decide, by decide⟩, fun i hi => by cases hi; decide⟩
    players := by decide
    tokens := by decide }
  obtain ⟨hsame, hother⟩ := parse_render_ofCampaign hfits "0"
  exact ⟨hfits, hsame, hother 2 (by decide) (by decide)⟩

end Tabletop
