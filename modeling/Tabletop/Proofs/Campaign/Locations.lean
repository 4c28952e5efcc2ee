import Tabletop.Proofs.Links.Approval
import Tabletop.Proofs.Text.Pieces

/-
  `this` stays on the token of the running macro.

  1. **Where a macro is** — `StandsAt`: a token has one spelling of its place, `TOKEN` if it is the
     subject, or its own name if it is the only library token of that name.  Whatever name a macro was
     found under, its location is such a spelling of its holder's place (`locate_eq_ok`).

  2. **Back again** — from such a spelling the look-up leads to the token, and spells its place the same
     (`StandsAt.locate_this`).  The name of a library token is none of the words for locations.

  3. **Labels with an `@`** — a name is cut at its first `@`.  If the label has one, `@this` is the end of
     a location, which no word is, and a library token may be called like that (`locate_at`).
-/
namespace Tabletop

/-- A text with an `@` in it is no word for a location. -/
theorem sameName_of_mem_at {location word : String} (h : '@' ∈ location.toList)
    (hword : '@' ∉ word.toList.map Char.toLower) : Text.sameName location word = false := by
  cases hsame : Text.sameName location word with
  | false => rfl
  | true =>
    have hlower : location.toList.map Char.toLower = word.toList.map Char.toLower := eq_of_beq hsame
    have hmem : '@' ∈ location.toList.map Char.toLower := List.mem_map.2 ⟨'@', h, by decide⟩
    rw [hlower] at hmem
    exact absurd hmem hword

/-- A name is cut behind a label without an `@`. -/
theorem cut_at {label : String} (plain : '@' ∉ label.toList) (location : String) :
    Text.cut (· == '@') (label ++ "@" ++ location) = some (label, location) := by
  have hchars : (label ++ "@" ++ location).toList = label.toList ++ '@' :: location.toList := by
    rw [String.toList_append, String.toList_append, List.append_assoc]
    rfl
  rw [Text.cut, hchars, Text.cutAt_beq _ plain, Option.map_some, String.ofList_toList,
    String.ofList_toList]

/-- Naming a fault makes no success of it. -/
theorem mapError_eq_ok_iff {ε ε' α : Type} {x : Except ε α} {g : ε → ε'} {a : α} :
    x.mapError g = .ok a ↔ x = .ok a := by
  cases x with
  | error e =>
    constructor
    · intro h
      cases h
    · intro h
      cases h
  | ok b =>
    rw [Except.mapError, Except.ok.injEq, Except.ok.injEq]

namespace Campaign

variable {c : Campaign} {subject : Option TokenId} {t : Token} {current name label location : String}

/-! ## Libraries -/

/-- A library has its name in every case. -/
theorem isLibraryName_of_library (h : c.library name = .ok t) : isLibraryName name = true := by
  obtain ⟨-, hlibrary, hname⟩ := mem_of_library h
  rw [← isLibraryName_congr hname]
  exact hlibrary

/-- **A library is found under its own name**, under whatever name it was found. -/
theorem library_name (h : c.library name = .ok t) : c.library t.name = .ok t := by
  obtain ⟨-, -, hname⟩ := mem_of_library h
  rw [library_eq_ok_iff] at h ⊢
  rw [← h]
  refine List.filter_congr fun u _ => ?_
  rw [Bool.eq_iff_iff]
  constructor
  · intro hu
    exact Text.sameName_trans hu hname
  · intro hu
    exact Text.sameName_trans hu (Text.sameName_comm t.name name ▸ hname)

/-! ## Where a macro is -/

/-- The spelling of a token's place that a macro on it is told. -/
inductive StandsAt (c : Campaign) (subject : Option TokenId) (t : Token) : String → Prop
  | subject {id : TokenId} (asks : subject = some id) (found : c.token? id = some t) :
      StandsAt c subject t subjectLocation
  | library (only : c.library t.name = .ok t) : StandsAt c subject t t.name

/-- The token at a location stands at the spelling that is told of it. -/
theorem standsAt_of_holder (h : c.holder subject location = .ok t) :
    c.StandsAt subject t (if Text.sameName location subjectLocation then subjectLocation else t.name) := by
  unfold holder at h
  -- the word for the subject, or the name of a library
  by_cases hword : Text.sameName location subjectLocation = true
  · rw [if_pos hword] at h ⊢
    cases hsubject : subject with
    | none =>
      rw [hsubject] at h
      cases h
    | some id =>
      rw [hsubject] at h
      dsimp only at h
      cases hid : c.token? id with
      | none =>
        rw [hid] at h
        cases h
      | some u =>
        rw [hid] at h
        cases h
        exact .subject rfl hid
  · rw [if_neg hword] at h ⊢
    split at h
    · exact .library (library_name h)
    · cases h

/-- What is found is on a token that stands at the location of what is found. -/
theorem locateAt_eq_ok {m : LocatedMacro} (h : c.locateAt subject current label location = .ok m) :
    ∃ t, c.StandsAt subject t m.location ∧ m.holder = t.id := by
  unfold locateAt at h
  -- each of the three steps may fail: the location, the token at it, and the button
  cases hactual : actualLocation current location with
  | error e =>
    rw [hactual] at h
    cases h
  | ok actual =>
    rw [hactual] at h
    change (c.holder subject actual >>= _) = _ at h
    cases hholder : c.holder subject actual with
    | error e =>
      rw [hholder] at h
      cases h
    | ok t =>
      rw [hholder] at h
      dsimp only [bind, Except.bind] at h
      cases hb : t.button? label with
      | none =>
        rw [hb] at h
        cases h
      | some b =>
        rw [hb] at h
        cases h
        exact ⟨t, standsAt_of_holder hholder, rfl⟩

/-- **Whatever name a macro was found under, its location spells the place of its holder.** -/
theorem locate_eq_ok {m : LocatedMacro} (h : c.locate name subject current = .ok m) :
    ∃ t, c.StandsAt subject t m.location ∧ m.holder = t.id := by
  unfold locate at h
  cases hcut : Text.cut (· == '@') name with
  | none =>
    rw [hcut] at h
    cases h
  | some p =>
    rw [hcut] at h
    dsimp only at h
    exact locateAt_eq_ok (mapError_eq_ok_iff.1 h)

/-! ## Back again -/

namespace StandsAt

/-- A token that has a place is found there. -/
theorem holder_eq (h : c.StandsAt subject t location) : c.holder subject location = .ok t := by
  cases h with
  | subject asks found =>
    unfold holder
    rw [if_pos (Text.sameName_refl _), asks]
    dsimp only
    rw [found]
  | library only =>
    have hlibrary := isLibraryName_of_library only
    have hword : Text.sameName t.name subjectLocation = false :=
      sameName_of_isLibraryName hlibrary (by decide +kernel)
    unfold holder
    rw [hword, if_neg Bool.false_ne_true, if_pos hlibrary, only]

/-- The place is spelled the same again. -/
theorem spelling_eq (h : c.StandsAt subject t location) :
    (if Text.sameName location subjectLocation then subjectLocation else t.name) = location := by
  cases h with
  | subject asks found => exact if_pos (Text.sameName_refl _)
  | library only =>
    have hword : Text.sameName t.name subjectLocation = false :=
      sameName_of_isLibraryName (isLibraryName_of_library only) (by decide +kernel)
    rw [hword, if_neg Bool.false_ne_true]

/-- The place is one that `this` may stand for. -/
theorem actualLocation_eq (h : c.StandsAt subject t location) :
    actualLocation location thisLocation = .ok location := by
  have hplace : ¬(location = "" ∨ location = chatLocation) := by
    cases h with
    | subject asks found => decide
    | library only =>
      have hlibrary := isLibraryName_of_library only
      rintro (hempty | hchat)
      · rw [hempty] at hlibrary
        exact absurd hlibrary (by decide +kernel)
      · rw [hchat] at hlibrary
        exact absurd hlibrary (by decide +kernel)
  rw [actualLocation, if_pos (Text.sameName_refl _), if_neg hplace]

/-- The token is one of the campaign. -/
theorem mem_tokens (h : c.StandsAt subject t location) : t ∈ c.tokens := by
  cases h with
  | subject asks found => exact (mem_of_token?_eq_some found).1
  | library only => exact (mem_of_library only).1

/-- **From its own place `this` leads to the token**: to the button with the label, if it has one. -/
theorem locate_this (h : c.StandsAt subject t location) {x : String} (plain : '@' ∉ x.toList) :
    c.locate (x ++ "@this") subject location =
      match t.button? x with
      | some b => .ok ⟨x, location, t.id, b.command, b.autoExecute⟩
      | none => .error (.unknownMacro (x ++ "@this") .noButton) := by
  have hcut : Text.cut (· == '@') (x ++ "@this") = some (x, thisLocation) := by
    have hname : x ++ "@" ++ thisLocation = x ++ "@this" := String.append_assoc
    rw [← hname, cut_at plain]
  rw [locate, hcut]
  dsimp only
  rw [locateAt, h.actualLocation_eq]
  change (c.holder subject location >>= _ : Except LookupFault LocatedMacro).mapError _ = _
  rw [h.holder_eq]
  dsimp only [bind, Except.bind]
  rw [h.spelling_eq]
  cases t.button? x <;> rfl

end StandsAt

/-! ## Labels with an `@` -/

/-- **Behind a label with an `@`**, `@this` is the end of a library's name. -/
theorem locate_at (plain : '@' ∉ label.toList) (rest : String) (m : LocatedMacro) :
    c.locate (label ++ "@" ++ rest ++ "@this") subject current = .ok m ↔
      ∃ u b, c.library (rest ++ "@this") = .ok u ∧ u.button? label = some b ∧ m = u.located label b := by
  -- the name is cut at the first `@`, which is not the one of `@this`
  have hcut : Text.cut (· == '@') (label ++ "@" ++ rest ++ "@this") = some (label, rest ++ "@this") := by
    rw [String.append_assoc, cut_at plain]
  have hat : '@' ∈ (rest ++ "@this").toList := by
    rw [String.toList_append]
    exact List.mem_append_right _ (by decide)
  -- what stands behind it is none of the two words, as it has an `@` in it
  have hthis : Text.sameName (rest ++ "@this") thisLocation = false := sameName_of_mem_at hat (by decide)
  have hsubject : Text.sameName (rest ++ "@this") subjectLocation = false :=
    sameName_of_mem_at hat (by decide)
  rw [locate, hcut]
  dsimp only
  rw [mapError_eq_ok_iff, locateAt_of_no_word hthis hsubject, ← inLibrary_eq_ok_iff]
  cases hlibrary : isLibraryName (rest ++ "@this") with
  | true => rw [if_pos rfl]
  | false =>
    constructor
    · intro h
      cases h
    · intro h
      obtain ⟨u, b, hu, -⟩ := inLibrary_eq_ok_iff.1 h
      rw [isLibraryName_of_library hu] at hlibrary
      cases hlibrary

/-- **`this` stays on the token of the running macro**, however the macro was found.  For a label without
    an `@`, `@this` behind it leads to the button of the macro's own holder, and to nothing if the holder
    has no such button.  A label with an `@` is cut there: then `@this` belongs to the name of a library,
    and leads to the button of the one library token of that name, if there is one, and else to nothing. -/
theorem this_stays {c : Campaign} (ids : (c.tokens.map Token.id).Nodup) {name : String}
    {subject : Option TokenId} {current : String} {m : LocatedMacro}
    (h : c.locate name subject current = .ok m) :
    ∃ t, c.token? m.holder = some t ∧
      (∀ x : String, '@' ∉ x.toList → c.locate (x ++ "@this") subject m.location =
        match t.button? x with
        | some b => .ok ⟨x, m.location, m.holder, b.command, b.autoExecute⟩
        | none => .error (.unknownMacro (x ++ "@this") .noButton)) ∧
      ∀ label rest : String, '@' ∉ label.toList → ∀ m' : LocatedMacro,
        c.locate (label ++ "@" ++ rest ++ "@this") subject m.location = .ok m' ↔
          ∃ u b, c.library (rest ++ "@this") = .ok u ∧ u.button? label = some b ∧
            m' = u.located label b := by
  obtain ⟨t, hstands, hholder⟩ := locate_eq_ok h
  refine ⟨t, ?_, fun x plain => ?_, fun label rest plain m' => locate_at plain rest m'⟩
  · rw [hholder]
    exact token?_of_nodup ids hstands.mem_tokens
  · rw [hholder]
    exact hstands.locate_this plain

/-- A library with a bell and a door. -/
def taproom : Token :=
  { Token.named ⟨1⟩ "Lib:Inn" with
    owners := .ofNames ["Gina"], buttons := [⟨"bell", "ding", false, ""⟩, ⟨"door", "creak", true, ""⟩] }

/-- A library whose name ends in `@this`, with a bell of its own. -/
def cellar : Token :=
  { Token.named ⟨2⟩ "Lib:Cellar@this" with
    owners := .ofNames ["Gina"], buttons := [⟨"bell", "dong", false, ""⟩] }

/-- The two libraries. -/
def inn : Campaign := { new "Inn" with players := [⟨"Gina", .gm⟩], tokens := [taproom, cellar] }

/-- The bell of the taproom. -/
def taproomBell : LocatedMacro := ⟨"bell", "Lib:Inn", ⟨1⟩, "ding", false⟩

theorem locate_taproomBell : inn.locate "bell@LIB:inn" none "" = .ok taproomBell := by decide +kernel

/-- From the bell of the taproom, `this` leads to its door and to no cat; behind a label with an `@` it
    leads to the cellar. -/
theorem this_stays_inn :
    (inn.tokens.map Token.id).Nodup ∧ inn.locate "bell@LIB:inn" none "" = .ok taproomBell ∧
      inn.locate ("door" ++ "@this") none taproomBell.location =
        .ok ⟨"door", "Lib:Inn", ⟨1⟩, "creak", true⟩ ∧
      inn.locate ("cat" ++ "@this") none taproomBell.location =
        .error (.unknownMacro ("cat" ++ "@this") .noButton) ∧
      inn.locate ("bell" ++ "@" ++ "Lib:Cellar" ++ "@this") none taproomBell.location =
        .ok ⟨"bell", "Lib:Cellar@this", ⟨2⟩, "dong", false⟩ := by
  have hids : (inn.tokens.map Token.id).Nodup := by decide
  have hfound : inn.token? taproomBell.holder = some taproom := rfl
  have hcellar : inn.library ("Lib:Cellar" ++ "@this") = .ok cellar := by decide +kernel
  obtain ⟨t, ht, hplain, hat⟩ := this_stays hids locate_taproomBell
  obtain rfl : taproom = t := Option.some.inj (hfound.symm.trans ht)
  refine ⟨hids, locate_taproomBell, ?_, ?_, ?_⟩
  · rw [hplain "door" (by decide)]
    rfl
  · rw [hplain "cat" (by decide)]
    rfl
  · exact (hat "bell" "Lib:Cellar" (by decide) _).2 ⟨cellar, _, hcellar, rfl, rfl⟩

/-- **Behind a label with an `@`, `this` need not stay**: it leads to a button of another token. -/
theorem this_leaves :
    ¬∀ (c : Campaign) (name : String) (subject : Option TokenId) (current : String) (m : LocatedMacro)
        (t : Token), (c.tokens.map Token.id).Nodup → c.locate name subject current = .ok m →
      c.token? m.holder = some t → ∀ x : String, t.button? x = none →
        ∃ e, c.locate (x ++ "@this") subject m.location = .error e := by
  intro h
  have hids : (inn.tokens.map Token.id).Nodup := by decide
  obtain ⟨e, he⟩ := h inn "bell@LIB:inn" none "" taproomBell taproom hids locate_taproomBell rfl
    "bell@Lib:Cellar" rfl
  have hcellar : inn.locate ("bell@Lib:Cellar" ++ "@this") none taproomBell.location =
      .ok ⟨"bell", "Lib:Cellar@this", ⟨2⟩, "dong", false⟩ := by decide +kernel
  rw [hcellar] at he
  cases he

end Campaign

end Tabletop
