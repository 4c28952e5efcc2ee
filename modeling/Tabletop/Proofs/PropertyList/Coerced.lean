import Tabletop.Proofs.Decimal.Characters
import Tabletop.Proofs.PropertyList.Editing
import Tabletop.Proofs.PropertyList.OrderedMap

/-
  Property lists whose values were coerced.

  Wherever the values of a list go, into variables or into a tree, they are coerced on the way; what comes
  back is shown.

  1. **Coerced entries** — `Property.coerced` is the entry that comes back.  Coercion brings in digits at
     most, so a list stays laid if its separator is no digit (`Laid.coerced`).

  2. **Building a list** — setting entries one after another appends each, as the keys of laid entries are
     different and nothing is left of them to trim (`Laid.foldl_set`).
-/
namespace Tabletop

/-- The entry with its value as it is shown once it was coerced, and without a layout. -/
def Property.coerced (e : Property) : Property := ⟨e.key, (Value.coerce e.value).display, none⟩

namespace PropertyList

/-- The keys of a list, and the values as they are shown once they were coerced. -/
def coercedPairs (l : PropertyList) : List (String × String) :=
  l.pairs.map fun p => (p.1, (Value.coerce p.2).display)

theorem pairs_coerced (l : PropertyList) :
    (l.entries.map Property.coerced).map (fun e => (e.key, e.value)) = l.coercedPairs := by
  rw [coercedPairs, pairs, List.map_map, List.map_map]
  rfl

/-- Keys that are different in upper case are different. -/
theorem Laid.nodup_keys {d : Char} {es : List Property} (h : Laid d es) : (es.map Property.key).Nodup := by
  refine List.Nodup.of_map keyForm ?_
  rw [List.map_map]
  exact h.distinct

/-- **A laid list stays laid when its values are coerced.** -/
theorem Laid.coerced {d : Char} (hd : d.isDigit = false) {es : List Property} (h : Laid d es) :
    Laid d (es.map Property.coerced) := by
  refine ⟨fun x hx => ?_, ?_⟩
  · obtain ⟨e, he, rfl⟩ := List.mem_map.1 hx
    have hlaid := h.entries e he
    refine ⟨hlaid.key, fun hm => ?_, Value.trimmed_display_coerce hlaid.trimmed, fun s hs => nomatch hs⟩
    rcases Value.mem_display_coerce hm with hdigit | hvalue
    · rw [hd] at hdigit
      cases hdigit
    · exact hlaid.free hvalue
  · rw [List.map_map]
    exact h.distinct

/-- An entry with a new key is set as it is. -/
theorem LaidEntry.set_eq {d : Char} {e : Property} (h : LaidEntry d e) (bare : e.leading = none)
    {l : PropertyList} (new : keyForm e.key ∉ l.entries.map fun e => keyForm e.key) :
    l.set e.key e.value = { l with entries := l.entries ++ [e] } := by
  have hkey : Text.trim e.key = e.key := (trimmed_of_isKey h.key).trim_eq
  have hform : soughtForm e.key = keyForm e.key := by rw [← keyForm_trim, hkey]
  obtain ⟨key, value, leading⟩ := e
  obtain rfl : leading = none := bare
  rw [set, hform, overwrite_of_not_mem _ new, hkey, h.trimmed.trim_eq]

/-- Sets the keys of entries to their values, one after another. -/
def setAll (l : PropertyList) (es : List Property) : PropertyList :=
  es.foldl (fun l e => l.set e.key e.value) l

/-- **Entries that are set one after another** are appended as they are. -/
theorem Laid.setAll_eq {d : Char} {acc es : List Property} (h : Laid d (acc ++ es))
    (bare : ∀ e ∈ es, e.leading = none) (delimiter : String) :
    setAll ⟨acc, delimiter⟩ es = ⟨acc ++ es, delimiter⟩ := by
  induction es generalizing acc with
  | nil =>
    rw [List.append_nil]
    rfl
  | cons e es ih =>
    have he : LaidEntry d e := h.entries e (List.mem_append_right _ List.mem_cons_self)
    have hnew : keyForm e.key ∉ acc.map fun e => keyForm e.key := by
      have hdistinct := h.distinct
      rw [List.map_append] at hdistinct
      exact fun hm => (List.nodup_append.1 hdistinct).2.2 _ hm _ List.mem_cons_self rfl
    rw [List.append_cons] at h ⊢
    rw [setAll, List.foldl_cons, he.set_eq (bare e List.mem_cons_self) hnew]
    exact ih h fun x hx => bare x (List.mem_cons_of_mem _ hx)

/-- **A list with coerced values** is built from nothing by setting its entries in order. -/
theorem Laid.setAll_coerced {d : Char} (hd : d.isDigit = false) {es : List Property} (h : Laid d es)
    (delimiter : String) :
    setAll (new delimiter) (es.map Property.coerced) =
      ⟨es.map Property.coerced, (new delimiter).delimiter⟩ := by
  have hcoerced : Laid d ([] ++ es.map Property.coerced) := h.coerced hd
  refine hcoerced.setAll_eq (fun x hx => ?_) _
  obtain ⟨e, -, rfl⟩ := List.mem_map.1 hx
  rfl

end PropertyList

end Tabletop
