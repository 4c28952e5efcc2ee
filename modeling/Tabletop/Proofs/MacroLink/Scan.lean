import Mathlib.Data.List.TakeWhile
import Tabletop.Proofs.Authority.Lawful
import Tabletop.Proofs.MacroLink.RoundTrip
import Tabletop.Table.Session

/-
  Links in chat: what was written, against what is found.

  A written link has its name and its recipients in it as they are; only the arguments are coded.  A
  link in running text reaches from its scheme to the next blank, quote or angle bracket.

  1. **One link at a time** — the scan takes the longest run of link characters behind a scheme and
     goes on behind it (`scanFrom_scheme`).  Whatever it finds has link characters only
     (`isLinkChar_of_mem_scan`).

  2. **Whole links** — codes have link characters only.  So a written link is found as a whole exactly
     if its name and its recipients have none of the characters at which a link ends (`Unbroken`).

  3. **In chat** — what is checked and followed behind a line whose output is such a link is the link.
-/
namespace Tabletop

namespace MacroLink

/-! ## One link at a time -/

/-- Characters that belong to the link before are passed over. -/
theorem scanFrom_eq_drop (skip : Nat) (cs : List Char) : scanFrom skip cs = scanFrom 0 (cs.drop skip) := by
  induction cs generalizing skip with
  | nil => cases skip <;> rfl
  | cons c cs ih =>
    cases skip with
    | zero => rfl
    | succ skip => exact ih skip

/-- **A scheme starts a link** if a link character stands behind it; the link goes on as long as there
    are link characters. -/
theorem scanFrom_scheme {cs : List Char} (h : cs.takeWhile isLinkChar ≠ []) :
    scanFrom 0 (scheme ++ cs) =
      (scheme ++ cs.takeWhile isLinkChar) :: scanFrom 0 (cs.dropWhile isLinkChar) := by
  have hstep : scanFrom 0 (scheme ++ cs) = (scheme ++ cs.takeWhile isLinkChar) ::
      scanFrom (scheme.length + (cs.takeWhile isLinkChar).length - 1) ((scheme ++ cs).drop 1) := by
    show (if (cs.takeWhile isLinkChar).isEmpty then _ else _) = _
    rw [if_neg (by simpa using h)]
    rfl
  have hcount : 1 + (scheme.length + (cs.takeWhile isLinkChar).length - 1) =
      scheme.length + (cs.takeWhile isLinkChar).length := by
    have hpos : scheme.length = 8 := rfl
    omega
  have hrest : cs.drop (cs.takeWhile isLinkChar).length = cs.dropWhile isLinkChar := by
    have hdrop : (cs.takeWhile isLinkChar ++ cs.dropWhile isLinkChar).drop
        (cs.takeWhile isLinkChar).length = cs.dropWhile isLinkChar := List.drop_left
    rwa [List.takeWhile_append_dropWhile] at hdrop
  rw [hstep, scanFrom_eq_drop, List.drop_drop, hcount, List.drop_length_add_append, hrest]

theorem isLinkChar_of_mem_scheme : ∀ c ∈ scheme, isLinkChar c = true := List.all_eq_true.1 (by decide)

/-- **A link that is found has link characters only.** -/
theorem isLinkChar_of_mem_scanFrom {skip : Nat} {cs found : List Char} (h : found ∈ scanFrom skip cs) :
    ∀ c ∈ found, isLinkChar c = true := by
  induction cs generalizing skip with
  | nil => cases skip <;> exact absurd h List.not_mem_nil
  | cons c cs ih =>
    cases skip with
    | succ skip => exact ih h
    | zero =>
      rw [scanFrom] at h
      split at h
      · exact ih h
      · next rest hrest =>
        dsimp only at h
        -- there is no link here, or one that begins with the scheme and goes on with link characters
        split at h
        · exact ih h
        · rcases List.mem_cons.1 h with rfl | h
          · intro x hx
            rcases List.mem_append.1 hx with hx | hx
            · exact isLinkChar_of_mem_scheme x hx
            · exact List.mem_takeWhile_imp hx
          · exact ih h

theorem isLinkChar_of_mem_scan {s found : String} (h : found ∈ scan s) :
    ∀ c ∈ found.toList, isLinkChar c = true := by
  obtain ⟨cs, hcs, rfl⟩ := List.mem_map.1 h
  rw [String.toList_ofList]
  exact isLinkChar_of_mem_scanFrom hcs

end MacroLink

/-! ## Whole links -/

namespace LinkPayload

/-- Codes are written with link characters. -/
theorem isLinkChar_encodeOctet :
    ∀ b < 256, (Text.FormCoding.encodeOctet b).all MacroLink.isLinkChar = true := by
  decide +kernel

theorem isLinkChar_of_mem_encodeChars {p : LinkPayload} {c : Char} (h : c ∈ p.encodeChars) :
    MacroLink.isLinkChar c = true := by
  cases p with
  | tree j => exact Text.FormCoding.forall_mem_encodeChars isLinkChar_encodeOctet h
  | segments xs =>
    rcases Text.mem_of_mem_joinChars h with h | ⟨code, hcode, hc⟩
    · rw [List.mem_singleton.1 h]
      decide
    · obtain ⟨x, -, rfl⟩ := List.mem_map.1 hcode
      exact Text.FormCoding.forall_mem_encodeChars isLinkChar_encodeOctet hc

end LinkPayload

namespace MacroLink

/-- No character of the name or of the recipients ends a link in running text. -/
def Unbroken (l : MacroLink) : Prop := ∀ c ∈ l.name.toList ++ l.recipients.render.toList, isLinkChar c = true

instance (l : MacroLink) : Decidable l.Unbroken := decidable_of_iff _ List.all_eq_true

theorem isLinkChar_of_mem_name {o : OutputTarget} : ∀ c ∈ o.name.toList, isLinkChar c = true :=
  List.all_eq_true.1 (by cases o <;> decide)

/-- What stands behind the scheme of a written link. -/
def bodyChars (l : MacroLink) : List Char :=
  l.name.toList ++ '/' :: l.output.name.toList ++ '/' :: l.recipients.render.toList ++
    '?' :: l.payload.encodeChars

theorem encodeChars_eq (l : MacroLink) : l.encodeChars = scheme ++ l.bodyChars := by
  simp only [encodeChars, bodyChars, List.append_assoc]

/-- The other parts of a link never break it. -/
theorem unbroken_iff (l : MacroLink) : l.Unbroken ↔ ∀ c ∈ l.bodyChars, isLinkChar c = true := by
  constructor
  · intro h c hc
    simp only [bodyChars, List.mem_append, List.mem_cons, List.append_assoc, List.cons_append] at hc
    rcases hc with hc | rfl | hc | rfl | hc | rfl | hc
    · exact h c (List.mem_append_left _ hc)
    · decide
    · exact isLinkChar_of_mem_name c hc
    · decide
    · exact h c (List.mem_append_right _ hc)
    · decide
    · exact LinkPayload.isLinkChar_of_mem_encodeChars hc
  · intro h c hc
    refine h c ?_
    simp only [bodyChars, List.mem_append, List.mem_cons]
    rcases List.mem_append.1 hc with hc | hc
    · exact .inl (.inl (.inl hc))
    · exact .inl (.inr (.inr hc))

/-- A written link that is found has nothing in it that breaks it. -/
theorem unbroken_of_mem_scan {l : MacroLink} (h : l.encode ∈ scan l.encode) : l.Unbroken := by
  rw [unbroken_iff]
  intro c hc
  refine isLinkChar_of_mem_scan h c ?_
  rw [encode, String.toList_ofList, encodeChars_eq]
  exact List.mem_append_right _ hc

/-- A link that nothing breaks is found, and nothing else is. -/
theorem scan_encode_of_unbroken {l : MacroLink} (h : l.Unbroken) : scan l.encode = [l.encode] := by
  rw [unbroken_iff] at h
  have htake : l.bodyChars.takeWhile isLinkChar = l.bodyChars := List.takeWhile_eq_self_iff.2 h
  have hdrop : l.bodyChars.dropWhile isLinkChar = [] := List.dropWhile_eq_nil_iff.2 h
  have hne : l.bodyChars.takeWhile isLinkChar ≠ [] := by
    rw [htake]
    simp [bodyChars]
  rw [scan, encode, String.toList_ofList, encodeChars_eq, scanFrom_scheme hne, htake, hdrop]
  rfl

end MacroLink

/-! ## In chat -/

/-- What happens at a table where the answer is known. -/
theorem TableM.eq_ok_of_toOption {α : Type} {act : TableM α} {t : Table} {a : α}
    (h : (act t).1.toOption = some a) : act t = (.ok a, (act t).2) := by
  rcases hact : act t with ⟨end_, u⟩
  rw [hact] at h
  cases end_ with
  | error e => cases h
  | ok b => rw [Option.some.inj h]

namespace Interpreter

/-- Behind the line itself come the links in its output, and then the queue. -/
theorem send_of_runChat {i : Interpreter} {text : String} {t u : Table} {output : MacroOutput}
    (h : i.runChat text t = (.ok output, u)) :
    i.send text t = (do
      let links ← i.followByThemselves (MacroLink.scan output.text)
      let later ← i.followQueue
      pure ⟨output, links ++ later, ← TableM.drain⟩ : TableM ChatReply) u := by
  rw [send, TableM.bind_apply, h]

/-- Checks a link, and follows it if the check says so. -/
def followChecked (i : Interpreter) (link : String) : TableM (List LinkReport) := do
  if (← TableM.campaign).followsByItself link then
    let report ← i.follow link false
    pure [report]
  else pure []

theorem followByThemselves_singleton (i : Interpreter) (link : String) :
    i.followByThemselves [link] = i.followChecked link := by
  simp only [followByThemselves, followChecked, pure_bind]

end Interpreter

/-- **The link in the output is the link that was written**, exactly if no character of its name or of
    its recipients ends a link in running text; else it is not even among the links that are found.
    If the output of a line is such a link, then this link is what is checked and followed. -/
theorem MacroLink.scan_encode_iff (l : MacroLink) :
    (scan l.encode = [l.encode] ↔ l.Unbroken) ∧
    (¬l.Unbroken → l.encode ∉ scan l.encode) ∧
    (l.Unbroken → ∀ (i : Interpreter) (text : String) (t u : Table) (output : MacroOutput),
      i.runChat text t = (.ok output, u) → output.text = l.encode →
        i.send text t = (do
          let links ← i.followChecked l.encode
          let later ← i.followQueue
          pure ⟨output, links ++ later, ← TableM.drain⟩ : TableM ChatReply) u) := by
  refine ⟨⟨fun h => unbroken_of_mem_scan (h ▸ List.mem_singleton_self _), scan_encode_of_unbroken⟩,
    fun h hfound => h (unbroken_of_mem_scan hfound), fun h i text t u output hrun houtput => ?_⟩
  rw [Interpreter.send_of_runChat hrun, houtput, scan_encode_of_unbroken h,
    Interpreter.followByThemselves_singleton]

/-- A link to two tokens. -/
def wolfLink : MacroLink := .make "mark@Lib:Inn" .all (.tokens ["Wolf", "Ögre"]) "<x>"

/-- A line whose output is the link. -/
def wolfLine : String := "[r: macroLinkText('mark@Lib:Inn', 'all', '<x>', 'Wolf,Ögre')]"

/-- The link that a line writes is the link that is checked behind it. -/
theorem MacroLink.scan_encode_iff_wolf :
    let i : Interpreter := ⟨.default, .builtins, 3⟩
    let t : Table := .ofCampaign (.demo "Gina" ⟨1⟩ ⟨2⟩) ⟨0⟩
    wolfLink.Unbroken ∧ scan wolfLink.encode = [wolfLink.encode] ∧
    ∃ output u, i.runChat wolfLine t = (.ok output, u) ∧ output.text = wolfLink.encode ∧
      i.send wolfLine t = (do
        let links ← i.followChecked wolfLink.encode
        let later ← i.followQueue
        pure ⟨output, links ++ later, ← TableM.drain⟩ : TableM ChatReply) u := by
  intro i t
  have hunbroken : wolfLink.Unbroken := by decide +kernel
  have hoption : (i.runChat wolfLine t).1.toOption.map MacroOutput.text = some wolfLink.encode := by
    decide +kernel
  obtain ⟨output, hoption, houtput⟩ := Option.map_eq_some_iff.1 hoption
  obtain ⟨hscan, -, hsend⟩ := scan_encode_iff wolfLink
  have hrun := TableM.eq_ok_of_toOption hoption
  exact ⟨hunbroken, hscan.2 hunbroken, output, _, hrun, houtput,
    hsend hunbroken i wolfLine t _ output hrun houtput⟩

/-- **A written link can be lost in chat**: a blank in the name of a recipient ends it. -/
theorem MacroLink.link_cut_at_blank :
    ¬∀ (name : String) (output : OutputTarget) (recipients : RecipientTarget) (raw : String),
      '/' ∉ name.toList → scan (make name output recipients raw).encode =
        [(make name output recipients raw).encode] := by
  intro h
  have hscan := h "mark@Lib:Inn" .all (.tokens ["Big Orc"]) "red" (by decide)
  exact absurd hscan (by decide +kernel)

end Tabletop
