import Tabletop.MacroLink.Wire
import Tabletop.Proofs.Json.RoundTrip
import Tabletop.Proofs.Text.FormCoding

/-
  Macro links: what a link says survives being written.

  1. **Four fields, one text** — the written link is cut again at two slashes and a question mark.
     Each cut is made at the first character of its kind, so a field comes back if that character is
     not in it: no slash in the name, no question mark in the recipients (`decode_encode_fields`).
     Names and arguments may hold anything else; the names of the output targets are harmless.

  2. **Recipients** — items are joined with commas and trimmed when they are read.  `Writable` says
     which lists survive that; a single item that spells one of the two keywords does not.

  3. **Arguments** — the reader tries the first field as a tree, and takes the fields as segments if
     it is none (`received`).  So segments come back unless the first one writes a tree, and a tree
     comes back whenever its own text does.
-/
namespace Tabletop

/-! ## Targets -/

/-- **Output targets are read back** from their names. -/
theorem OutputTarget.parse_name (o : OutputTarget) : parse o.name = o := by
  cases o <;> decide +kernel

theorem OutputTarget.slash_not_mem_name (o : OutputTarget) : '/' ∉ o.name.toList := by
  cases o <;> decide +kernel

namespace RecipientTarget

/-- A word that is read as a keyword, not as the name of a token. -/
def IsKeyword (x : String) : Prop :=
  Text.sameName x impersonatedWord = true ∨ Text.sameName x selectedWord = true

instance (x : String) : Decidable (IsKeyword x) := inferInstanceAs (Decidable (_ ∨ _))

/-- Recipients that a text can list: the items are not empty, trimmed, without the characters at
    which the text is cut, and a single item is no keyword. -/
def Writable : RecipientTarget → Prop
  | .impersonated => True
  | .selected => True
  | .tokens xs =>
    (∀ x ∈ xs, x ≠ "" ∧ Text.trim x = x ∧ ',' ∉ x.toList ∧ '?' ∉ x.toList) ∧
      ∀ x, xs = [x] → ¬IsKeyword x

/-- The items of a list, as characters between commas. -/
theorem toList_render_tokens (xs : List String) :
    (RecipientTarget.tokens xs).render.toList = Text.joinChars [','] (xs.map String.toList) := by
  rw [render, Text.join, String.toList_ofList]
  rfl

theorem comma_not_mem_keyword {x : String} (h : IsKeyword x) : ',' ∉ x.toList := by
  intro hm
  have hlower : ',' ∈ x.toList.map Char.toLower := List.mem_map.2 ⟨',', hm, by decide⟩
  -- a comma has no other case, so it would be in the keyword
  rcases h with h | h
  · rw [eq_of_beq h] at hlower
    exact absurd hlower (by decide)
  · rw [eq_of_beq h] at hlower
    exact absurd hlower (by decide)

/-- No writable list spells a keyword: two items have a comma between them, and a single one is
    asked not to. -/
theorem not_isKeyword_render {xs : List String} (h : (tokens xs).Writable) :
    ¬IsKeyword (tokens xs).render := by
  match xs with
  | [] => decide
  | [x] =>
    have hx : (tokens [x]).render = x := Text.join_singleton "," x
    rw [hx]
    exact h.2 x rfl
  | x :: y :: ys =>
    intro hk
    refine comma_not_mem_keyword hk ?_
    rw [toList_render_tokens, List.map_cons, List.map_cons, Text.joinChars_cons_cons]
    simp

/-- The items of a writable list come back from the cut at the commas; an empty list leaves one
    empty item, which is dropped. -/
theorem split_render {xs : List String} (h : (tokens xs).Writable) :
    ((Text.split "," (tokens xs).render).map Text.trim).filter (· ≠ "") = xs := by
  by_cases hxs : xs = []
  · subst hxs
    decide
  · have hcut : Text.split "," (tokens xs).render = xs :=
      Text.split_join rfl hxs fun x hx => (h.1 x hx).2.2.1
    have htrim : xs.map Text.trim = xs :=
      (List.map_congr_left fun x hx => (h.1 x hx).2.1).trans (List.map_id xs)
    rw [hcut, htrim, List.filter_eq_self]
    exact fun x hx => decide_eq_true (h.1 x hx).1

/-- **Recipients are read back** from their text. -/
theorem parse_render {r : RecipientTarget} (h : r.Writable) : parse r.render = r := by
  cases r with
  | impersonated => decide +kernel
  | selected => decide +kernel
  | tokens xs =>
    have htrimmed : Text.Trimmed (Text.joinChars [','] (xs.map String.toList)) := by
      refine Text.trimmed_joinChars _ fun p hp => ?_
      obtain ⟨x, hx, rfl⟩ := List.mem_map.1 hp
      obtain ⟨hne, htrim, -, -⟩ := h.1 x hx
      exact ⟨by simpa using hne, Text.trimmed_toList htrim⟩
    have htrim : Text.trim (tokens xs).render = (tokens xs).render := by
      rw [Text.trim, toList_render_tokens, htrimmed.trimChars_eq, ← toList_render_tokens,
        String.ofList_toList]
    obtain ⟨himp, hsel⟩ := not_or.1 (not_isKeyword_render h)
    rw [parse, htrim, if_neg himp, if_neg hsel, split_render h]

theorem question_not_mem_render {r : RecipientTarget} (h : r.Writable) : '?' ∉ r.render.toList := by
  cases r with
  | impersonated => decide
  | selected => decide
  | tokens xs =>
    rw [toList_render_tokens]
    intro hm
    rcases Text.mem_of_mem_joinChars hm with hm | ⟨p, hp, hq⟩
    · exact absurd hm (by decide)
    · obtain ⟨x, hx, rfl⟩ := List.mem_map.1 hp
      exact (h.1 x hx).2.2.2 hq

end RecipientTarget

/-! ## Arguments -/

namespace LinkPayload

/-- Arguments that are read back: a plain tree that is not nested too deep, or segments that are not
    empty and of which the first one writes no tree. -/
def Writable : LinkPayload → Prop
  | .tree j => j.isTree = true ∧ j.nesting ≤ Json.depthLimit ∧ j.Plain
  | .segments xs => (∀ x ∈ xs, x ≠ "") ∧ ∀ x ∈ xs.head?, Json.parseTree? x = none

theorem encodeChars_segments (xs : List String) :
    (segments xs).encodeChars = Text.FormCoding.joinCodes (xs.map String.toList) := by
  rw [encodeChars, Text.FormCoding.joinCodes, List.map_map]
  rfl

/-- What the reader makes of segments: the tree that the first one writes, if it writes one, and the
    segments otherwise. -/
def received : List String → LinkPayload
  | [] => .segments []
  | x :: xs =>
    match Json.parseTree? x with
    | some j => .tree j
    | none => .segments (x :: xs)

/-- Segments are received as segments exactly if the first of them writes no tree. -/
theorem received_eq_iff {xs : List String} :
    received xs = .segments xs ↔ ∀ x ∈ xs.head?, Json.parseTree? x = none := by
  cases xs with
  | nil => exact ⟨fun _ _ h => (nomatch h), fun _ => rfl⟩
  | cons x xs =>
    rw [received]
    cases hx : Json.parseTree? x with
    | none => exact ⟨fun _ y hy => Option.some.inj hy ▸ hx, fun _ => rfl⟩
    | some j =>
      refine ⟨fun h => (nomatch h), fun h => ?_⟩
      rw [h x rfl] at hx
      exact nomatch hx

/-- **Segments are received** from their codes. -/
theorem decodeChars_segments {xs : List String} (full : ∀ x ∈ xs, x ≠ "") :
    decodeChars (segments xs).encodeChars = received xs := by
  have hfull : ∀ p ∈ xs.map String.toList, p ≠ [] := by
    intro p hp
    obtain ⟨x, hx, rfl⟩ := List.mem_map.1 hp
    simpa using full x hx
  have hfields : (Text.FormCoding.fields (Text.FormCoding.joinCodes (xs.map String.toList))).map
      (fun f => String.ofList (Text.FormCoding.decodeFirst f)) = xs := by
    rw [Text.FormCoding.fields_joinCodes hfull, List.map_map, List.map_map]
    refine (List.map_congr_left fun x _ => ?_).trans (List.map_id xs)
    show String.ofList (Text.FormCoding.decodeFirst (Text.FormCoding.encodeChars x.toList)) = x
    rw [Text.FormCoding.decodeFirst_encodeChars, String.ofList_toList]
  rw [encodeChars_segments, decodeChars, hfields]
  cases xs with
  | nil => rfl
  | cons x xs =>
    rewrite [List.map_cons, Text.FormCoding.decodeFirst_joinCodes hfull, String.ofList_toList, received]
    cases Json.parseTree? x <;> rfl

/-- **Arguments are read back** from their code. -/
theorem decodeChars_encodeChars {p : LinkPayload} (h : p.Writable) :
    decodeChars p.encodeChars = p := by
  cases p with
  | tree j =>
    obtain ⟨tree, depth, plain⟩ := h
    have hread : Json.parseTree? (String.ofList j.renderChars) = some j :=
      Json.parseTree?_render tree plain depth
    rw [encodeChars, decodeChars, Text.FormCoding.decodeFirst_encodeChars, hread]
  | segments xs =>
    obtain ⟨full, head⟩ := h
    rw [decodeChars_segments full, received_eq_iff.2 head]

theorem isBlank_of_mem_encodeChars {p : LinkPayload} {x : Char} (h : x ∈ p.encodeChars) :
    Text.isBlank x = false := by
  cases p with
  | tree j =>
    have hj : x ∈ Text.FormCoding.joinCodes [j.renderChars] := h
    exact Text.FormCoding.isBlank_of_mem_joinCodes hj
  | segments xs =>
    rw [encodeChars_segments] at h
    exact Text.FormCoding.isBlank_of_mem_joinCodes h

end LinkPayload

/-! ## Links -/

namespace MacroLink

@[simp] theorem afterScheme?_append (cs : List Char) : afterScheme? (scheme ++ cs) = some cs := rfl

/-- A written link is trimmed: it starts with the scheme, and ends with a code or the question mark
    in front of it. -/
theorem trimmed_encodeChars (l : MacroLink) : Text.Trimmed l.encodeChars := by
  constructor
  · intro x hx
    cases hx
    rfl
  · intro x hx
    have hm : x ∈ '?' :: l.payload.encodeChars := by
      rw [encodeChars, List.getLast?_append, List.getLast?_cons] at hx
      exact List.mem_of_getLast? (List.getLast?_cons.trans hx)
    rcases List.mem_cons.1 hm with rfl | hm
    · rfl
    · exact LinkPayload.isBlank_of_mem_encodeChars hm

/-- **The fields come apart where they were joined.** -/
theorem decode_encode_fields {l : MacroLink} (name : '/' ∉ l.name.toList)
    (recipients : '?' ∉ l.recipients.render.toList) :
    decode l.encode = some ⟨l.name, l.output, .parse l.recipients.render,
      .decodeChars l.payload.encodeChars⟩ := by
  have hfields : l.encodeChars = scheme ++ (l.name.toList ++ '/' :: (l.output.name.toList ++
      '/' :: (l.recipients.render.toList ++ '?' :: l.payload.encodeChars))) := by
    simp [encodeChars]
  have hname := Text.cutAt_beq (l.output.name.toList ++ '/' :: (l.recipients.render.toList ++
    '?' :: l.payload.encodeChars)) name
  have houtput := Text.cutAt_beq (l.recipients.render.toList ++ '?' :: l.payload.encodeChars)
    l.output.slash_not_mem_name
  have hrecipients := Text.cutAt_beq l.payload.encodeChars recipients
  rw [decode, encode, String.toList_ofList, l.trimmed_encodeChars.trimChars_eq, hfields,
    afterScheme?_append]
  simp only [Option.bind_eq_bind, Option.bind_some, hname, houtput, hrecipients,
    String.ofList_toList, OutputTarget.parse_name]
  rfl

/-- **A link is read back as it was written.** -/
theorem decode_encode_of_writable (l : MacroLink) (name : '/' ∉ l.name.toList)
    (recipients : l.recipients.Writable) (payload : l.payload.Writable) :
    decode l.encode = some l := by
  rw [decode_encode_fields name (RecipientTarget.question_not_mem_render recipients),
    RecipientTarget.parse_render recipients, LinkPayload.decodeChars_encodeChars payload]

/-- A link in which every field has separators of the other fields. -/
def tangled (payload : LinkPayload) : MacroLink :=
  ⟨"a?b,&c@Lib:x", .callerAndGm, .tokens ["Orc/1", "selected ones"], payload⟩

/-- Segments with all separators in them. -/
def tangledSegments : LinkPayload := .segments ["a=1&2;3", "b?/+é%41"]

/-- A tree with separators in its key and its string. -/
def tangledTree : LinkPayload :=
  .tree (.object [("k&=", .array [.ofInt (-7), .null]), ("s", .string "\"?;\n")])

theorem decode_encode_tangled :
    '/' ∉ (tangled tangledSegments).name.toList ∧ (tangled tangledSegments).recipients.Writable ∧
      tangledSegments.Writable ∧ tangledTree.Writable ∧
      decode (tangled tangledSegments).encode = some (tangled tangledSegments) ∧
      decode (tangled tangledTree).encode = some (tangled tangledTree) := by
  have hname : '/' ∉ (tangled tangledSegments).name.toList := by decide
  have hrecipients : (tangled tangledSegments).recipients.Writable := by
    refine ⟨?_, fun x hx => nomatch hx⟩
    decide +kernel
  have hsegments : tangledSegments.Writable := by
    refine ⟨by decide, fun x hx => ?_⟩
    cases hx
    rfl
  have htree : tangledTree.Writable := by
    refine ⟨rfl, by decide +kernel, ?_⟩
    simp [Json.Plain, Json.PlainFields, Json.PlainItems, Json.ofInt, Json.InWords, Assoc.keys]
  exact ⟨hname, hrecipients, hsegments, htree,
    decode_encode_of_writable (tangled tangledSegments) hname hrecipients hsegments,
    decode_encode_of_writable (tangled tangledTree) hname hrecipients htree⟩

end MacroLink

end Tabletop
