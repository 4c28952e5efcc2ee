import Mathlib.Data.List.Nodup
import Tabletop.Macro.Follow
import Tabletop.Proofs.Authority.Builtins

/-
  The check of links that are followed by themselves, against what following them runs.

  The check and the run look the macro up separately: the check without a subject and from nowhere, the
  run for each recipient and from the recipient's own macros.

  1. **Libraries** — a location in a library is none of the words that depend on who asks, so the look-up
     is the same for every subject and from everywhere (`Campaign.locate_eq_inLibrary`).

  2. **Approved is what runs** — a link that passes the check leads to one macro, with the flag and with
     a trusted origin, for whatever recipient and with whatever arguments (`Campaign.Approves`,
     `Campaign.followsByItself_iff`, `runRecipient_of_approves`).

  3. **Whose trust** — the macro is found on a token, and its trust is looked up by the id of that
     token.  The two agree where ids are different (`Campaign.trusts_token_of_nodup`).  Where another
     token of the same id stands in front, the trust of that one counts.
-/
namespace Tabletop

/-! ## Libraries -/

/-- Whether a name is one of a library does not depend on its case. -/
theorem isLibraryName_congr {a b : String} (h : Text.sameName a b = true) :
    isLibraryName a = isLibraryName b := by
  rw [isLibraryName, isLibraryName, Text.lower, Text.lower, eq_of_beq h]

/-- A location in a library is none of the two words for locations. -/
theorem sameName_of_isLibraryName {location word : String} (h : isLibraryName location = true)
    (hword : isLibraryName word = false) : Text.sameName location word = false := by
  cases hsame : Text.sameName location word with
  | false => rfl
  | true =>
    rw [isLibraryName_congr hsame, hword] at h
    cases h

/-- The macro that a button of a token stands for, under the name of the token. -/
def Token.located (t : Token) (label : String) (b : MacroButton) : LocatedMacro :=
  ⟨label, t.name, t.id, b.command, b.autoExecute⟩

namespace Campaign

/-- Finds a macro of a library token. -/
def inLibrary (c : Campaign) (label location : String) : Except LookupFault LocatedMacro :=
  match c.library location with
  | .error e => .error e
  | .ok t =>
    match t.button? label with
    | none => .error .noButton
    | some b => .ok (t.located label b)

variable {c : Campaign} {name label location : String}

/-- The library of a name is the only library token that is called so. -/
theorem library_eq_ok_iff {t : Token} :
    c.library name = .ok t ↔ (c.libraryTokens.filter fun u => Text.sameName u.name name) = [t] := by
  unfold library
  constructor
  · intro h
    split at h
    · cases h
    · next hfilter =>
      cases h
      exact hfilter
    · cases h
  · intro h
    rw [h]

theorem mem_of_library {t : Token} (h : c.library name = .ok t) :
    t ∈ c.tokens ∧ t.isLibrary = true ∧ Text.sameName t.name name = true := by
  have ht : t ∈ c.libraryTokens.filter fun u => Text.sameName u.name name := by
    rw [library_eq_ok_iff.1 h]
    exact List.mem_singleton_self t
  obtain ⟨hlibrary, hname⟩ := List.mem_filter.1 ht
  obtain ⟨hmem, hlibrary⟩ := List.mem_filter.1 hlibrary
  exact ⟨hmem, hlibrary, hname⟩

theorem inLibrary_eq_ok_iff {m : LocatedMacro} : c.inLibrary label location = .ok m ↔
    ∃ u b, c.library location = .ok u ∧ u.button? label = some b ∧ m = u.located label b := by
  unfold inLibrary
  constructor
  · intro h
    -- the library must be found, and then its button
    cases hu : c.library location with
    | error e =>
      rw [hu] at h
      cases h
    | ok u =>
      rw [hu] at h
      dsimp only at h
      cases hb : u.button? label with
      | none =>
        rw [hb] at h
        cases h
      | some b =>
        rw [hb] at h
        cases h
        exact ⟨u, b, rfl, hb, rfl⟩
  · rintro ⟨u, b, hu, hb, rfl⟩
    rw [hu]
    dsimp only
    rw [hb]

/-- A location that is none of the words can only be that of a library. -/
theorem locateAt_of_no_word (hthis : Text.sameName location thisLocation = false)
    (hsubject : Text.sameName location subjectLocation = false) (subject : Option TokenId)
    (current : String) : c.locateAt subject current label location =
      if isLibraryName location then c.inLibrary label location else .error .unsupportedLocation := by
  -- the location is not that of the macro which runs
  have hactual : actualLocation current location = .ok location := by
    rw [actualLocation, hthis, if_neg Bool.false_ne_true]
  have hholder : c.holder subject location =
      if isLibraryName location then c.library location else .error .unsupportedLocation := by
    unfold holder
    rw [hsubject, if_neg Bool.false_ne_true]
  rw [locateAt, hactual, inLibrary]
  show (c.holder subject location >>= _) = _
  rw [hholder, hsubject]
  cases isLibraryName location with
  | false => rfl
  | true =>
    rw [if_pos rfl, if_pos rfl]
    cases c.library location with
    | error e => rfl
    | ok t => cases ht : t.button? label <;> simp [ht, Token.located, bind, Except.bind, pure, Except.pure]

theorem locateAt_eq_inLibrary (h : isLibraryName location = true) (subject : Option TokenId)
    (current : String) : c.locateAt subject current label location = c.inLibrary label location := by
  have hthis : Text.sameName location thisLocation = false :=
    sameName_of_isLibraryName h (by decide +kernel)
  have hsubject : Text.sameName location subjectLocation = false :=
    sameName_of_isLibraryName h (by decide +kernel)
  rw [locateAt_of_no_word hthis hsubject, if_pos h]

/-- **In a library it does not matter who looks, and from where.** -/
theorem locate_eq_inLibrary (hcut : Text.cut (· == '@') name = some (label, location))
    (h : isLibraryName location = true) (subject : Option TokenId) (current : String) :
    c.locate name subject current = (c.inLibrary label location).mapError (.unknownMacro name) := by
  rw [locate, hcut]
  dsimp only
  rw [locateAt_eq_inLibrary h]

/-! ## Approved is what runs -/

/-- A link leads to one macro, whoever follows it, and this macro may run without being asked. -/
structure Approves (c : Campaign) (link : MacroLink) (m : LocatedMacro) : Prop where
  /-- The name has a location in a library. -/
  library : ∃ label location,
    Text.cut (· == '@') link.name = some (label, location) ∧ isLibraryName location = true
  /-- Every recipient finds the same macro. -/
  located : ∀ subject, c.locate link.name subject subjectLocation = .ok m
  flag : m.autoExecute = true
  /-- The macro runs with trust. -/
  trusted : c.trusts (.token m.holder) = true

/-- **The check says yes exactly to the approved links.** -/
theorem followsByItself_iff (c : Campaign) (text : String) :
    c.followsByItself text = true ↔ ∃ link m, MacroLink.decode text = some link ∧ c.Approves link m := by
  constructor
  · intro h
    rw [followsByItself] at h
    split at h
    · cases h
    next link hlink =>
    split at h
    · cases h
    next label location hcut =>
    rw [Bool.and_eq_true] at h
    obtain ⟨hlibrary, h⟩ := h
    split at h
    · cases h
    next m hm =>
    rw [Bool.and_eq_true] at h
    refine ⟨link, m, hlink, ⟨label, location, hcut, hlibrary⟩, fun subject => ?_, h.1, h.2⟩
    -- the look-up of the check, carried over to the recipient
    rw [locate_eq_inLibrary hcut hlibrary] at hm ⊢
    exact hm
  · rintro ⟨link, m, hlink, ⟨label, location, hcut, hlibrary⟩, hlocated, hflag, htrusted⟩
    have hm : c.locate link.name none "" = .ok m := by
      have hnone := hlocated none
      rw [locate_eq_inLibrary hcut hlibrary] at hnone ⊢
      exact hnone
    rw [followsByItself, hlink]
    dsimp only
    rw [hcut]
    dsimp only
    rw [hlibrary, hm, Bool.true_and, Bool.and_eq_true]
    exact ⟨hflag, htrusted⟩

end Campaign

/-- What comes of running a macro for a recipient of a link. -/
def runLocatedFor (evaluate : String → Action Unit) (m : LocatedMacro) (link : MacroLink) (player : String)
    (subject : Option TokenId) : TableM RecipientOutput := do
  let output ← runLocated evaluate m link.payload.text subject player
  unless Text.isBlankText output.text do
    deliverTo (link.output.channels player) player output.text
  pure ⟨subject, output.text, output.aborted⟩

/-- **A recipient runs the macro that was approved**, whatever else the link says. -/
theorem runRecipient_of_approves {t : Table} {link : MacroLink} {m : LocatedMacro}
    (h : t.campaign.Approves link m) (evaluate : String → Action Unit) {other : MacroLink}
    (hname : other.name = link.name) (player label : String) (subject : Option TokenId) :
    runRecipient evaluate other player ⟨label, .ok subject⟩ t =
      runLocatedFor evaluate m other player subject t := by
  have hlocated : t.campaign.locate other.name subject subjectLocation = .ok m := by
    rw [hname]
    exact h.located subject
  unfold runRecipient
  dsimp only [TableM.ofExcept]
  rw [pure_bind, TableM.bind_apply]
  show (TableM.ofExcept (t.campaign.locate other.name subject subjectLocation) >>= _) t = _
  rw [hlocated]
  rfl

/-! ## Whose trust -/

namespace Campaign

variable {c : Campaign} {text : String} {holder : Token} {b : MacroButton}

/-- The link of a text leads to a button of a library token. -/
def LeadsTo (c : Campaign) (text : String) (holder : Token) (b : MacroButton) : Prop :=
  ∃ link label location, MacroLink.decode text = some link ∧
    Text.cut (· == '@') link.name = some (label, location) ∧ isLibraryName location = true ∧
    c.library location = .ok holder ∧ holder.button? label = some b

/-- The check of such a link. -/
theorem LeadsTo.followsByItself_eq (h : c.LeadsTo text holder b) :
    c.followsByItself text = (b.autoExecute && c.trusts (.token holder.id)) := by
  obtain ⟨link, label, location, hlink, hcut, hlibrary, hholder, hb⟩ := h
  have hlocated : c.locate link.name none "" = .ok (holder.located label b) := by
    rw [locate_eq_inLibrary hcut hlibrary, inLibrary, hholder]
    dsimp only
    rw [hb]
    rfl
  rw [followsByItself, hlink]
  dsimp only
  rw [hcut]
  dsimp only
  rw [hlibrary, hlocated, Bool.true_and]
  rfl

theorem LeadsTo.mem_tokens (h : c.LeadsTo text holder b) : holder ∈ c.tokens := by
  obtain ⟨link, label, location, -, -, -, hholder, -⟩ := h
  exact (mem_of_library hholder).1

/-- A token is not trusted if everyone owns it, or someone who is no GM. -/
theorem trustsToken_eq_false_iff (c : Campaign) (t : Token) :
    c.trustsToken t = false ↔ t.ownedByAll = true ∨ ∃ owner ∈ t.owners.keys, c.isGm owner = false := by
  rw [trustsToken, Bool.and_eq_false_iff, Bool.not_eq_false', List.all_eq_false]
  simp only [Bool.not_eq_true]

/-- Where ids are different, a token is found by its id. -/
theorem token?_of_nodup (ids : (c.tokens.map Token.id).Nodup) (h : holder ∈ c.tokens) :
    c.token? holder.id = some holder := by
  cases ht : c.token? holder.id with
  | none => exact absurd (beq_self_eq_true holder.id) (List.find?_eq_none.1 ht holder h)
  | some t =>
    obtain ⟨hmem, hid⟩ := mem_of_token?_eq_some ht
    rw [List.inj_on_of_nodup_map ids hmem h hid]

/-- Where ids are different, the trust of an id is that of its token. -/
theorem trusts_token_of_nodup (ids : (c.tokens.map Token.id).Nodup) (h : holder ∈ c.tokens) :
    c.trusts (.token holder.id) = c.trustsToken holder := by
  rw [trusts, token?_of_nodup ids h]
  rfl

/-- The macro that a text is approved for: it is what every recipient runs, whatever else their link
    says. -/
structure RunsApproved (c : Campaign) (text : String) (link : MacroLink) (m : LocatedMacro) : Prop where
  link_eq : MacroLink.decode text = some link
  approved : c.Approves link m
  runs : ∀ (evaluate : String → Action Unit) (other : MacroLink) (player label : String)
    (subject : Option TokenId) (t : Table), other.name = link.name → t.campaign = c →
      runRecipient evaluate other player ⟨label, .ok subject⟩ t =
        runLocatedFor evaluate m other player subject t

/-- What the check of a text that leads to a button says of the button and of its token. -/
structure JudgesButton (c : Campaign) (text : String) (holder : Token) (b : MacroButton) : Prop where
  flagless : b.autoExecute = false → c.followsByItself text = false
  /-- A token that everyone owns, or someone who is no GM, does not pass, unless the button has the flag
      and a token in front, with the same id, is trusted. -/
  untrusted_iff :
    ((holder.ownedByAll = true ∨ (∃ owner ∈ holder.owners.keys, c.isGm owner = false) →
        c.followsByItself text = false) ↔
      (b.autoExecute = true → c.trusts (.token holder.id) = true → c.trustsToken holder = true))
  /-- Where ids are different, no other token is in front. -/
  distinct : (c.tokens.map Token.id).Nodup → c.trusts (.token holder.id) = c.trustsToken holder

/-- What the check of a text and the runs of its link have to do with each other. -/
structure ChecksRuns (c : Campaign) (text : String) : Prop where
  passes : c.followsByItself text = true → ∃ link m, c.RunsApproved text link m
  judges : ∀ (holder : Token) (b : MacroButton), c.LeadsTo text holder b → c.JudgesButton text holder b

/-- **What the check approves is what runs.**  A link that passes the check leads every recipient to one
    macro, which has the flag and runs with trust, whatever else the link says.  A link to a button
    without the flag does not pass.  A link to a token that everyone owns, or someone who is no GM, does
    not pass either, unless the button has the flag and another token in front, with the same id, is
    trusted; so it never passes where ids are different. -/
theorem followsByItself_runs (c : Campaign) (text : String) : c.ChecksRuns text := by
  constructor
  case passes =>
    intro h
    obtain ⟨link, m, hlink, happroves⟩ := (followsByItself_iff c text).1 h
    refine ⟨link, m, hlink, happroves, fun evaluate other player label subject t hname ht => ?_⟩
    subst ht
    exact runRecipient_of_approves happroves evaluate hname player label subject
  case judges =>
    intro holder b hleads
    have hcheck := hleads.followsByItself_eq
    constructor
    case flagless =>
      intro hflag
      rw [hcheck, hflag, Bool.false_and]
    case untrusted_iff =>
      rw [hcheck, ← trustsToken_eq_false_iff]
      -- the flag, the trust of the id and that of the holder decide it
      cases b.autoExecute <;> cases c.trusts (.token holder.id) <;> cases c.trustsToken holder <;> simp
    case distinct =>
      intro ids
      exact trusts_token_of_nodup ids hleads.mem_tokens

/-- A link leads to the button that its name spells. -/
theorem leadsTo_of_name (label location : String)
    (hname : (MacroLink.decode text).map MacroLink.name = some (label ++ "@" ++ location))
    (hcut : Text.cut (· == '@') (label ++ "@" ++ location) = some (label, location))
    (hlibrary : isLibraryName location = true) (hholder : c.library location = .ok holder)
    (hb : holder.button? label = some b) : c.LeadsTo text holder b := by
  obtain ⟨link, hlink, hlinkName⟩ := Option.map_eq_some_iff.1 hname
  rw [← hlinkName] at hcut
  exact ⟨link, label, location, hlink, hcut, hlibrary, hholder, hb⟩

/-- A GM's library whose bell may ring by itself, and a library that Pat owns too. -/
def chapel : Campaign :=
  { new "Chapel" with
    players := [⟨"Gina", .gm⟩, ⟨"Pat", .player⟩]
    tokens := [
      { Token.named ⟨1⟩ "Lib:Tower" with
        owners := .ofNames ["Gina"], buttons := [⟨"bell", "bong", true, ""⟩, ⟨"bat", "eek", false, ""⟩] },
      { Token.named ⟨2⟩ "Lib:Porch" with
        owners := .ofNames ["Gina", "Pat"], buttons := [⟨"bell", "ding", true, ""⟩] }] }

/-- The link of the bell in the tower, as Gina may find it in chat. -/
def towerLink : String := "macro://bell@LIB:tower/all/selected,Bat?x"

/-- The link of the bell in the porch. -/
def porchLink : String := "macro://bell@Lib:Porch/all/selected"

/-- The bell in the tower rings by itself, the one in the porch does not. -/
theorem followsByItself_runs_chapel :
    (chapel.followsByItself towerLink = true ∧ ∃ link m, MacroLink.decode towerLink = some link ∧
      chapel.Approves link m) ∧
    (chapel.tokens.map Token.id).Nodup ∧
    ∃ holder b, chapel.LeadsTo porchLink holder b ∧ b.autoExecute = true ∧
      holder.owners.keys = ["Gina", "Pat"] ∧ chapel.followsByItself porchLink = false := by
  have htower : chapel.followsByItself towerLink = true := by decide +kernel
  have hids : (chapel.tokens.map Token.id).Nodup := by decide
  obtain ⟨holder, b, hporch, hb, howners, hpat⟩ : ∃ holder b, chapel.LeadsTo porchLink holder b ∧
      b.autoExecute = true ∧ holder.owners.keys = ["Gina", "Pat"] ∧ chapel.isGm "Pat" = false := by
    refine ⟨_, _, leadsTo_of_name "bell" "Lib:Porch" (by decide +kernel)
      (by decide +kernel) (by decide +kernel) (by rfl) (by rfl), rfl, by decide +kernel, by decide +kernel⟩
  obtain ⟨link, m, hruns⟩ := (followsByItself_runs chapel towerLink).passes htower
  have hjudges := (followsByItself_runs chapel porchLink).judges holder b hporch
  refine ⟨⟨htower, link, m, hruns.link_eq, hruns.approved⟩, hids, holder, b, hporch, hb, howners, ?_⟩
  refine hjudges.untrusted_iff.2 (fun _ htrusts => ?_) (.inr ⟨"Pat", by rw [howners]; decide, hpat⟩)
  rw [← hjudges.distinct hids]
  exact htrusts

/-- A library that everyone owns, behind a token of the GM with the same id. -/
def crypt : Campaign :=
  { new "Crypt" with
    players := [⟨"Gina", .gm⟩]
    tokens := [{ Token.named ⟨1⟩ "Hero" with owners := .ofNames ["Gina"] },
      { Token.named ⟨1⟩ "Lib:Crypt" with ownedByAll := true, buttons := [⟨"bell", "dong", true, ""⟩] }] }

/-- **A macro that everyone may write can be run by itself**, where its token shares an id. -/
theorem followsByItself_of_sharedId :
    ¬∀ (c : Campaign) (text : String) (holder : Token) (b : MacroButton), c.LeadsTo text holder b →
      b.autoExecute = false ∨ holder.ownedByAll = true ∨ (∃ owner ∈ holder.owners.keys, c.isGm owner = false) →
        c.followsByItself text = false := by
  intro h
  have hleads : ∃ holder b, crypt.LeadsTo "macro://bell@Lib:Crypt/none/selected" holder b ∧
      holder.ownedByAll = true :=
    ⟨_, _, leadsTo_of_name "bell" "Lib:Crypt" (by decide +kernel)
      (by decide +kernel) (by decide +kernel) (by rfl) (by rfl), rfl⟩
  obtain ⟨holder, b, hleads, hall⟩ := hleads
  exact absurd (h crypt _ holder b hleads (.inr (.inl hall))) (by decide +kernel)

end Campaign

end Tabletop
