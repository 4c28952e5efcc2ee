import Tabletop.Value
import Tabletop.Proofs.Json.Layout
import Tabletop.Proofs.Text.Pieces

/-
  JSON documents as the language reads them: plain documents come back from their compact text.

  1. **Repeated keys** — `parse?` keeps one field of each name.  A plain document has no other
     (`unique_eq`), so it comes back whole (`parse?_render`).

  2. **Trees** — `parseTree?` trims the text, looks at its first character and drops what repeated
     keys leave behind.  None of that touches the text of a plain tree.
-/
namespace Tabletop.Json

/-! ## Repeated keys -/

mutual

theorem unique_eq : ∀ j : Json, j.Plain → j.unique = j
  | .null, _ => by simp [unique]
  | .bool _, _ => by simp [unique]
  | .number _, _ => by simp [unique]
  | .string _, _ => by simp [unique]
  | .array xs, h => by
    rw [Plain] at h
    rw [unique, uniqueItems_eq xs h]
  | .object fs, h => by
    rw [Plain] at h
    rw [unique, uniqueFields_eq fs h.2, Assoc.ofList_eq h.1]

theorem uniqueItems_eq : ∀ xs : List Json, PlainItems xs → uniqueItems xs = xs
  | [], _ => by rw [uniqueItems]
  | x :: xs, h => by
    rw [PlainItems] at h
    rw [uniqueItems, unique_eq x h.1, uniqueItems_eq xs h.2]

theorem uniqueFields_eq : ∀ fs : List (String × Json), PlainFields fs → uniqueFields fs = fs
  | [], _ => by rw [uniqueFields]
  | (k, x) :: fs, h => by
    rw [PlainFields] at h
    rw [uniqueFields, unique_eq x h.1, uniqueFields_eq fs h.2]

end

/-! ## Trees -/

/-- **A plain document comes back from its text**, unless it is nested too deep. -/
theorem parse?_render {j : Json} (plain : j.Plain) (depth : j.nesting ≤ depthLimit) :
    parse? j.render = some j := by
  rw [parse?, readDocument?_render plain depth]
  show some j.unique = some j
  rw [unique_eq j plain]

/-- The last character of a tree's text closes it. -/
theorem getLast_renderItems (xs : List Json) : (renderItems xs).getLast? = some ']' := by
  induction xs with
  | nil =>
    rw [renderItems]
    rfl
  | cons x xs ih =>
    rw [renderItems, List.getLast?_append, ih]
    rfl

/-- An object closes with a brace. -/
theorem getLast_renderFields (fs : List (String × Json)) :
    (renderFields fs).getLast? = some '\x7d' := by
  induction fs with
  | nil =>
    rw [renderFields]
    rfl
  | cons f fs ih =>
    rw [renderFields, List.getLast?_append, ih]
    rfl

/-- A tree's text stands between two brackets. -/
theorem brackets_renderChars {j : Json} (tree : j.isTree = true) :
    ∃ a cs b, j.renderChars = a :: cs ∧ j.renderChars.getLast? = some b ∧
      (a = '[' ∧ b = ']' ∨ a = '\x7b' ∧ b = '\x7d') := by
  -- a tree opens and closes with brackets of one kind; nothing else is a tree
  cases j with
  | array xs =>
    cases xs with
    | nil => exact ⟨'[', _, ']', by rw [renderChars], by rw [renderChars]; rfl, .inl ⟨rfl, rfl⟩⟩
    | cons x xs =>
      refine ⟨'[', _, ']', by rw [renderChars]; rfl, ?_, .inl ⟨rfl, rfl⟩⟩
      rw [renderChars, List.getLast?_append, getLast_renderItems]
      rfl
  | object fs =>
    cases fs with
    | nil =>
      exact ⟨'\x7b', _, '\x7d', by rw [renderChars], by rw [renderChars]; rfl, .inr ⟨rfl, rfl⟩⟩
    | cons f fs =>
      refine ⟨'\x7b', _, '\x7d', by rw [renderChars]; rfl, ?_, .inr ⟨rfl, rfl⟩⟩
      rw [renderChars, List.getLast?_append, getLast_renderFields]
      rfl
  | null => exact absurd tree (by simp [isTree])
  | bool b => exact absurd tree (by simp [isTree])
  | number n => exact absurd tree (by simp [isTree])
  | string s => exact absurd tree (by simp [isTree])

theorem trimmed_renderChars {j : Json} (tree : j.isTree = true) : Text.Trimmed j.renderChars := by
  obtain ⟨a, cs, b, hhead, hlast, hab⟩ := brackets_renderChars tree
  constructor
  · intro x hx
    rw [hhead] at hx
    cases hx
    rcases hab with ⟨rfl, -⟩ | ⟨rfl, -⟩ <;> rfl
  · intro x hx
    rw [hlast] at hx
    cases hx
    rcases hab with ⟨-, rfl⟩ | ⟨-, rfl⟩ <;> rfl

/-- **A plain tree comes back from its text** as the tree that the language reads there. -/
theorem parseTree?_render {j : Json} (tree : j.isTree = true) (plain : j.Plain)
    (depth : j.nesting ≤ depthLimit) : parseTree? j.render = some j := by
  have htrim : Text.trim j.render = j.render := by
    rw [Text.trim, render, String.toList_ofList, (trimmed_renderChars tree).trimChars_eq]
  have hstart : (Text.startsWith "[" j.render || Text.startsWith "\x7b" j.render) = true := by
    obtain ⟨a, cs, b, hhead, -, hab⟩ := brackets_renderChars tree
    simp only [render, hhead, Text.startsWith, String.toList_ofList]
    rcases hab with ⟨rfl, -⟩ | ⟨rfl, -⟩
    · rfl
    · rfl
  rw [parseTree?, htrim, if_pos hstart, parse?_render plain depth, Option.filter_some, if_pos tree]

end Tabletop.Json
