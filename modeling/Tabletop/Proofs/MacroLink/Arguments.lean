import Tabletop.Proofs.MacroLink.RoundTrip
import Tabletop.Proofs.PropertyList.Pairs

/-
  The arguments of a link: what the macro is given, against what the link was made with.

  1. **Two decisions** — a link that is made looks at the whole text to tell a tree from segments; a
     link that is read looks at its first field alone.  `payload_decode_make` says what comes of it:
     text that is no tree arrives as its segments, unless the first of them is a tree by itself.
     Then that tree is all that arrives.

  2. **Layout** — segments are trimmed, empty ones are dropped, and the macro finds them set off by
     ` ; `.  None of that is seen by a property list, which takes from each segment its key and its
     trimmed value.

  3. **The bridge (`filterMap_segmentsOf`)** — the two cuts of the text, the one of the link and the
     one of the property list, are made at the same semicolons.  So both give the same pairs in the
     same order, and what repeated keys do to each other is the same fold in both.
-/
namespace Tabletop

namespace LinkPayload

/-- The kind of the arguments. -/
def isTree : LinkPayload → Bool
  | .tree _ => true
  | .segments _ => false

/-! ## The segments of a text -/

/-- The segments of a text, trimmed, empty ones left out. -/
def segmentsOf (s : String) : List String := ((Text.split ";" s).map Text.trim).filter (· ≠ "")

theorem ofText_of_no_tree {s : String} (h : Json.parseTree? s = none) :
    ofText s = .segments (segmentsOf s) := by
  rw [ofText, h]
  rfl

theorem ne_empty_of_mem_segmentsOf {s x : String} (h : x ∈ segmentsOf s) : x ≠ "" :=
  of_decide_eq_true (List.mem_filter.1 h).2

theorem semicolon_not_mem_segmentsOf {s x : String} (h : x ∈ segmentsOf s) : ';' ∉ x.toList := by
  obtain ⟨y, hy, rfl⟩ := List.mem_map.1 (List.mem_filter.1 h).1
  obtain ⟨p, hp, rfl⟩ := List.mem_map.1 hy
  intro hm
  rw [Text.trim, String.toList_ofList, String.toList_ofList] at hm
  exact Text.not_mem_of_mem_splitChars hp (Text.mem_of_mem_trimChars hm)

/-! ## The text for the macro -/

/-- Segments without a semicolon are joined as they are. -/
theorem text_segments {xs : List String} (free : ∀ x ∈ xs, ';' ∉ x.toList) :
    (segments xs).text = Text.join " ; " xs := by
  have hsame : xs.map (fun x => Text.join "&#59" (Text.split ";" x)) = xs := by
    refine (List.map_congr_left fun x hx => ?_).trans (List.map_id xs)
    rw [Text.split_of_not_mem rfl (free x hx), Text.join_singleton, id]
  rw [text, hsame]

/-- **Both cuts of a text find the same pairs.** -/
theorem filterMap_segmentsOf (s : String) :
    ((segmentsOf s).map String.toList).filterMap PropertyList.pairOf? =
      (Text.splitChars [';'] s.toList).filterMap PropertyList.pairOf? :=
  PropertyList.filterMap_trim (Text.splitChars [';'] s.toList)

/-- **The macro reads the pairs of the text** that the segments were cut from. -/
theorem pairs_text_segmentsOf (s : String) :
    (PropertyList.parse (segments (segmentsOf s)).text ";").pairs =
      (PropertyList.parse s ";").pairs := by
  have hchars : (segments (segmentsOf s)).text.toList =
      Text.joinChars [' ', ';', ' '] ((segmentsOf s).map String.toList) := by
    rw [text_segments fun x => semicolon_not_mem_segmentsOf, Text.join, String.toList_ofList]
    rfl
  have free : ∀ p ∈ (segmentsOf s).map String.toList, ';' ∉ p := by
    intro p hp
    obtain ⟨x, hx, rfl⟩ := List.mem_map.1 hp
    exact semicolon_not_mem_segmentsOf hx
  have hsame := PropertyList.filterMap_splitChars_join (by decide) free
  rw [PropertyList.pairs_parse, PropertyList.pairs_parse, hchars]
  show List.foldl _ _ ((Text.splitChars [';'] _).filterMap PropertyList.pairOf?) =
    List.foldl _ _ ((Text.splitChars [';'] s.toList).filterMap PropertyList.pairOf?)
  rw [hsame, filterMap_segmentsOf]

end LinkPayload

namespace MacroLink

variable {name raw : String} {recipients : RecipientTarget}

/-! ## The kind of the arguments -/

/-- **What arrives** of a text that is no tree is what the reader makes of its segments. -/
theorem payload_decode_make (hname : '/' ∉ name.toList) (hrecipients : '?' ∉ recipients.render.toList)
    (no_tree : Json.parseTree? raw = none) (output : OutputTarget) :
    (decode (make name output recipients raw).encode).map payload =
      some (.received (LinkPayload.segmentsOf raw)) := by
  have hpayload : (make name output recipients raw).payload = .segments (LinkPayload.segmentsOf raw) := by
    dsimp only [make]
    exact LinkPayload.ofText_of_no_tree no_tree
  have hread : LinkPayload.decodeChars (LinkPayload.segments (LinkPayload.segmentsOf raw)).encodeChars =
      .received (LinkPayload.segmentsOf raw) :=
    LinkPayload.decodeChars_segments fun _ => LinkPayload.ne_empty_of_mem_segmentsOf
  have hfields := decode_encode_fields (l := make name output recipients raw) hname hrecipients
  rw [hpayload, hread] at hfields
  rw [hfields, Option.map_some]

/-- **The arguments arrive as they were made** exactly if their first segment is no tree by itself. -/
theorem payload_decode_make_iff (name : String) (output : OutputTarget) (recipients : RecipientTarget)
    (raw : String) (hname : '/' ∉ name.toList) (hrecipients : '?' ∉ recipients.render.toList)
    (no_tree : Json.parseTree? raw = none) :
    (decode (make name output recipients raw).encode).map payload = some (LinkPayload.ofText raw) ↔
      ∀ x ∈ (LinkPayload.segmentsOf raw).head?, Json.parseTree? x = none := by
  rw [payload_decode_make hname hrecipients no_tree output, LinkPayload.ofText_of_no_tree no_tree,
    Option.some.injEq, LinkPayload.received_eq_iff]

theorem payload_decode_make_keyed :
    '/' ∉ "hit".toList ∧ '?' ∉ RecipientTarget.selected.render.toList ∧
      Json.parseTree? "a=[1] ; [2]" = none ∧
      ((decode (make "hit" .all .selected "a=[1] ; [2]").encode).map payload =
          some (LinkPayload.ofText "a=[1] ; [2]") ↔
        ∀ x ∈ (LinkPayload.segmentsOf "a=[1] ; [2]").head?, Json.parseTree? x = none) := by
  have hname : '/' ∉ "hit".toList := by decide
  have hrecipients : '?' ∉ RecipientTarget.selected.render.toList := by decide
  have hraw : Json.parseTree? "a=[1] ; [2]" = none := Option.isNone_iff_eq_none.1 (by decide +kernel)
  exact ⟨hname, hrecipients, hraw,
    payload_decode_make_iff "hit" .all .selected _ hname hrecipients hraw⟩

/-- **Segments can be lost**: behind a first segment that is a tree by itself nothing arrives, and
    the tree arrives in place of a property list. -/
theorem payload_lost :
    ¬∀ (name : String) (output : OutputTarget) (recipients : RecipientTarget) (raw : String),
      '/' ∉ name.toList → '?' ∉ recipients.render.toList → Json.parseTree? raw = none →
      (decode (make name output recipients raw).encode).map payload =
        some (LinkPayload.ofText raw) := by
  intro h
  have hraw : Json.parseTree? "[1];b=2" = none := Option.isNone_iff_eq_none.1 (by decide +kernel)
  have hsame := h "m" .all .selected "[1];b=2" (by decide) (by decide) hraw
  have hkind := congrArg (Option.map LinkPayload.isTree) hsame
  exact absurd hkind (by decide +kernel)

/-! ## The pairs of the arguments -/

/-- **A property list arrives with all its pairs.** -/
theorem pairs_decode_make (name : String) (output : OutputTarget) (recipients : RecipientTarget)
    (raw : String) (hname : '/' ∉ name.toList) (hrecipients : '?' ∉ recipients.render.toList)
    (no_tree : Json.parseTree? raw = none)
    (head : ∀ x ∈ (LinkPayload.segmentsOf raw).head?, Json.parseTree? x = none) :
    (decode (make name output recipients raw).encode).map
        (fun l => (PropertyList.parse l.payload.text ";").pairs) =
      some (PropertyList.parse raw ";").pairs := by
  have harrives := payload_decode_make hname hrecipients no_tree output
  rw [LinkPayload.received_eq_iff.2 head] at harrives
  obtain ⟨l, hl, hpayload⟩ := Option.map_eq_some_iff.1 harrives
  rw [hl, Option.map_some, hpayload, LinkPayload.pairs_text_segmentsOf]

/-- A key given twice, an empty segment, and a segment without a key. -/
def armour : String := " hp = 10 ;; note [1]; AC=3 ;HP=7"

theorem pairs_decode_make_armour :
    '/' ∉ "hit".toList ∧ '?' ∉ RecipientTarget.selected.render.toList ∧
      Json.parseTree? armour = none ∧
      (∀ x ∈ (LinkPayload.segmentsOf armour).head?, Json.parseTree? x = none) ∧
      (decode (make "hit" .all .selected armour).encode).map
          (fun l => (PropertyList.parse l.payload.text ";").pairs) =
        some (PropertyList.parse armour ";").pairs ∧
      (PropertyList.parse armour ";").pairs = [("hp", "7"), ("AC", "3")] := by
  have hname : '/' ∉ "hit".toList := by decide
  have hrecipients : '?' ∉ RecipientTarget.selected.render.toList := by decide
  have hraw : Json.parseTree? armour = none := Option.isNone_iff_eq_none.1 (by decide +kernel)
  have hhead : ∀ x ∈ (LinkPayload.segmentsOf armour).head?, Json.parseTree? x = none := by
    intro x hx
    have hfirst : (LinkPayload.segmentsOf armour).head? = some "hp = 10" := by decide +kernel
    rw [hfirst] at hx
    cases hx
    exact Option.isNone_iff_eq_none.1 (by decide +kernel)
  exact ⟨hname, hrecipients, hraw, hhead,
    pairs_decode_make "hit" .all .selected armour hname hrecipients hraw hhead, by decide +kernel⟩

end MacroLink

end Tabletop
