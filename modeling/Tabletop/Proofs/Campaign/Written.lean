import Tabletop.Campaign.Written
import Tabletop.Proofs.Campaign.TokenId
import Tabletop.Proofs.Json.Records

/-
  Campaigns are read as they were written.

  1. **Parts** — options, maps and sets are read back if what they hold is.  A map lists its keys in
     order, so reading it puts one entry behind the other.

  2. **Records** — one lemma for every record, in the order in which they are put together.  Its fields
     are found by their names, and each is read back by the lemma of its own kind.

  3. **Ranges** — the turn order counts rounds in 64 bits with a sign and positions without one
     (`InitiativeList.Fits`).  Nothing else in a campaign has a range.
-/
namespace Tabletop

/-! ## Parts -/

namespace Json.ReadsBack

variable {α : Type} {n : Nat} {write : α → Json} {read : Json → Option α}

/-- A value that may be missing is written as null then, so it must not be so written when it is
    there. -/
theorem option {o : Option α} (h : ∀ a ∈ o, ReadsBack n write read a) (hnull : ∀ a, write a ≠ .null) :
    ReadsBack n (Json.ofOption write) (readNullable read) o := by
  cases o with
  | none => exact ⟨.null, rfl⟩
  | some a =>
    obtain ⟨hwithin, hread⟩ := h a rfl
    refine ⟨hwithin, ?_⟩
    rw [Json.ofOption, readNullable, hread]
    · rfl
    · exact hnull a

/-- A map lists its keys in order, so none of them is there twice. -/
theorem map {m : SortedMap α} (h : ∀ e ∈ m.entries, ReadsBack n write read e.2) :
    ReadsBack (n + 1) (SortedMap.toJson write) (SortedMap.ofJson? read) m where
  within := by
    have hkeys : Assoc.keys (m.entries.map fun e => (e.1, write e.2)) = m.keys := by
      rw [Assoc.keys, List.map_map]
      rfl
    refine .object (hkeys ▸ m.nodup_keys) fun f hf => ?_
    obtain ⟨e, he, rfl⟩ := List.mem_map.1 hf
    exact (h e he).within
  read_write := by
    have hentries : (m.entries.map fun e => (e.1, write e.2)).mapM
        (fun f => (read f.2).map (f.1, ·)) = some m.entries :=
      mapM_map fun e he => by rw [(h e he).read_write]; rfl
    show ((m.entries.map fun e => (e.1, write e.2)).mapM
      fun f => (read f.2).map (f.1, ·)).map SortedMap.ofList = some m
    rw [hentries, Option.map_some, m.ofList_entries]

/-- A set is the list of its names. -/
theorem names (s : NameSet) : ReadsBack (n + 1) NameSet.toJson NameSet.ofJson? s where
  within := (list fun x _ => text x).within
  read_write := by
    have hnames : (s.keys.map Json.string).mapM readText = some s.keys := mapM_map fun _ _ => rfl
    have hentries : (s.keys.map fun x => (x, ())) = s.entries := by
      rw [SortedMap.keys, List.map_map]
      exact List.map_id s.entries
    show ((s.keys.map Json.string).mapM readText).map NameSet.ofNames = some s
    rw [hnames, Option.map_some, NameSet.ofNames, hentries, s.ofList_entries]

end Json.ReadsBack

open Json (ReadsBack Within)

/-! ## Ids, roles and players -/

section Records

variable {n : Nat}

/-- An id is read back from its digits. -/
theorem TokenId.readsBack (id : TokenId) : ReadsBack n TokenId.toJson TokenId.ofJson? id where
  within := .string _
  read_write := by
    show ofChars? id.render.toList = some id
    rw [render, String.toList_ofList, ofChars?_chars]

/-- A role is a word. -/
theorem Role.readsBack (r : Role) : ReadsBack n Role.toJson Role.ofJson? r := by
  cases r with
  | gm => exact ⟨.string _, rfl⟩
  | player => exact ⟨.string _, rfl⟩

/-- A player is a record of two fields. -/
theorem Player.readsBack (p : Player) : ReadsBack (n + 1) Player.toJson Player.ofJson? p := by
  have hrole := p.role.readsBack (n := n)
  refine .record rfl (fun _ => rfl) rfl (by decide) ?_ ?_
  · simp [Within.string, hrole.within]
  · simp [JsonRecord.required, Assoc.get?, Json.readText, hrole.read_write]

/-! ## Tokens -/

/-- A macro button is a record; its flags may be missing when it is read, but are always written. -/
theorem MacroButton.readsBack (b : MacroButton) :
    ReadsBack (n + 1) MacroButton.toJson MacroButton.ofJson? b := by
  refine .record rfl (fun _ => rfl) rfl (by decide) ?_ ?_
  · simp [Within.string, Within.bool]
  · simp [JsonRecord.required, JsonRecord.defaulted, Assoc.get?, Json.readText, Json.readFlag]

/-- A token is a record: every field by itself, and so the whole. -/
theorem Token.readsBack (t : Token) : ReadsBack (n + 3) Token.toJson Token.ofJson? t := by
  -- the fields that are more than a text or a flag
  have hid : ReadsBack (n + 2) TokenId.toJson TokenId.ofJson? t.id := t.id.readsBack
  have howners : ReadsBack (n + 2) NameSet.toJson NameSet.ofJson? t.owners := .names _
  have hproperties : ReadsBack (n + 2) (SortedMap.toJson .string) (SortedMap.ofJson? Json.readText)
      t.properties := .map fun e _ => .text e.2
  have hstates : ReadsBack (n + 2) (SortedMap.toJson .bool) (SortedMap.ofJson? Json.readFlag)
      t.states := .map fun e _ => .flag e.2
  have hbuttons : ReadsBack (n + 2) (fun bs => .array (bs.map MacroButton.toJson))
      (Json.readList MacroButton.ofJson?) t.buttons := .list fun b _ => b.readsBack
  refine .record rfl (fun _ => rfl) rfl (by decide) ?_ ?_
  · simp [Within.string, Within.bool, hid.within, howners.within, hproperties.within, hstates.within,
      hbuttons.within]
  · simp [JsonRecord.required, JsonRecord.defaulted, Assoc.get?, Json.readText, Json.readFlag,
      hid.read_write, howners.read_write, hproperties.read_write, hstates.read_write,
      hbuttons.read_write]

/-! ## Turn order -/

/-- An entry of the turn order. -/
theorem InitiativeEntry.readsBack (e : InitiativeEntry) :
    ReadsBack (n + 1) InitiativeEntry.toJson InitiativeEntry.ofJson? e := by
  have htoken := e.token.readsBack (n := n)
  have hinitiative : ReadsBack n (Json.ofOption .string) (Json.readNullable Json.readText)
      e.initiative := .option (fun s _ => .text s) fun _ => nofun
  refine .record rfl (fun _ => rfl) rfl (by decide) ?_ ?_
  · simp [htoken.within, hinitiative.within]
  · simp [JsonRecord.required, JsonRecord.optional, Assoc.get?, htoken.read_write,
      hinitiative.read_write]

/-- The round is a number of 64 bits with a sign, the position one without. -/
structure InitiativeList.Fits (l : InitiativeList) : Prop where
  round : -2 ^ 63 ≤ l.round ∧ l.round < 2 ^ 63
  current : ∀ i ∈ l.current, i < InitiativeList.positionBound

/-- The turn order, if its numbers are within their machine types. -/
theorem InitiativeList.readsBack {l : InitiativeList} (h : l.Fits) :
    ReadsBack (n + 3) InitiativeList.toJson InitiativeList.ofJson? l := by
  obtain ⟨hlow, hhigh⟩ := h.round
  have hround : ReadsBack (n + 2) Json.ofInt (Json.readIntWithin (-2 ^ 63) (2 ^ 63)) l.round :=
    .int hlow hhigh ⟨hlow, by omega⟩
  have hcurrent : ReadsBack (n + 2) (Json.ofOption fun i : Nat => Json.ofInt i)
      (Json.readNullable (Json.readNatBelow positionBound)) l.current :=
    .option (fun i hi => .nat (h.current i hi) (Nat.le_refl _)) fun _ => nofun
  have hentries : ReadsBack (n + 2) (fun es => .array (es.map InitiativeEntry.toJson))
      (Json.readList InitiativeEntry.ofJson?) l.entries := .list fun e _ => e.readsBack
  refine .record rfl (fun _ => rfl) rfl (by decide) ?_ ?_
  · simp [hround.within, hcurrent.within, hentries.within]
  · simp -implicitDefEqProofs [JsonRecord.required, JsonRecord.optional, Assoc.get?, -Int.reducePow,
      hround.read_write, hcurrent.read_write, hentries.read_write]

/-! ## Chat -/

/-- A channel is a word, or a record that has the name in it. -/
theorem Channel.readsBack (c : Channel) : ReadsBack (n + 1) Channel.toJson Channel.ofJson? c := by
  cases c with
  | player name =>
    have hkeys : (Assoc.keys [("Player", Json.string name)]).Nodup := by
      show ["Player"].Nodup
      decide
    exact ⟨.object hkeys (by simp [Within.string]), rfl⟩
  | gm => exact ⟨.string _, rfl⟩
  | all => exact ⟨.string _, rfl⟩

/-- A message is a record, too. -/
theorem ChatMessage.readsBack (m : ChatMessage) :
    ReadsBack (n + 2) ChatMessage.toJson ChatMessage.ofJson? m := by
  have hchannel := m.channel.readsBack (n := n)
  refine .record rfl (fun _ => rfl) rfl (by decide) ?_ ?_
  · simp [Within.string, hchannel.within]
  · simp [JsonRecord.required, Assoc.get?, Json.readText, hchannel.read_write]

/-! ## Campaigns -/

/-- **A campaign is read back** field by field.  Only the numbers of the turn order can be out of range.
    -/
theorem Campaign.readsBack {c : Campaign} (h : c.initiative.Fits) :
    ReadsBack (n + 5) Campaign.toJson Campaign.ofJson? c := by
  -- the fields that are more than a text, each one level further down
  have hplayers : ReadsBack (n + 4) (fun ps => .array (ps.map Player.toJson))
      (Json.readList Player.ofJson?) c.players := .list fun p _ => p.readsBack
  have htokens : ReadsBack (n + 4) (fun ts => .array (ts.map Token.toJson))
      (Json.readList Token.ofJson?) c.tokens := .list fun t _ => t.readsBack
  have hselected : ReadsBack (n + 4) (fun ids => .array (ids.map TokenId.toJson))
      (Json.readList TokenId.ofJson?) c.selected := .list fun id _ => id.readsBack
  have himpersonated : ReadsBack (n + 4) (Json.ofOption TokenId.toJson)
      (Json.readNullable TokenId.ofJson?) c.impersonated := .option (fun id _ => id.readsBack) fun _ => nofun
  have hinitiative : ReadsBack (n + 4) InitiativeList.toJson InitiativeList.ofJson? c.initiative :=
    InitiativeList.readsBack h
  have htranscript : ReadsBack (n + 4) (fun ms => .array (ms.map ChatMessage.toJson))
      (Json.readList ChatMessage.ofJson?) c.transcript := .list fun m _ => m.readsBack
  refine .record rfl (fun _ => rfl) rfl (by decide) ?_ ?_
  · simp [Within.string, hplayers.within, htokens.within, hselected.within, himpersonated.within,
      hinitiative.within, htranscript.within]
  · simp [JsonRecord.required, JsonRecord.defaulted, Assoc.get?, Json.readText, hplayers.read_write,
      htokens.read_write, hselected.read_write, himpersonated.read_write, hinitiative.read_write,
      htranscript.read_write]

end Records

end Tabletop
