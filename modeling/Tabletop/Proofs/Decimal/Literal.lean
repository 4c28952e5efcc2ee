import Tabletop.Decimal.Text
import Tabletop.Proofs.Text.Pieces

/-
  Which texts write a number.

  A literal has digits, a point, a sign, and blanks around it.  A single character of any other kind,
  wherever it stands, is enough to make a text of it: `ofText?_eq_none`.
-/
namespace Tabletop.Decimal

/-- A character that no number is written with. -/
def IsForeign (c : Char) : Prop :=
  c.isDigit = false ∧ c ≠ '.' ∧ c ≠ '-' ∧ c ≠ '+' ∧ Text.isBlank c = false

instance (c : Char) : Decidable (IsForeign c) := inferInstanceAs (Decidable (_ ∧ _))

/-- Among digits there is nothing else. -/
theorem not_mem_of_isDigits {c : Char} (hc : c.isDigit = false) {cs : List Char}
    (h : isDigits cs = true) : c ∉ cs := by
  intro hm
  rw [isDigits, Bool.and_eq_true, List.all_eq_true] at h
  rw [h.2 c hm] at hc
  cases hc

/-- The foreign character stands in front of the first point, or behind it. -/
theorem readUnsigned?_eq_none {c : Char} (hc : IsForeign c) {cs : List Char} (h : c ∈ cs) :
    readUnsigned? cs = none := by
  have hsplit : c ∈ cs.takeWhile (· ≠ '.') ∨ c ∈ cs.dropWhile (· ≠ '.') := by
    rw [← List.mem_append, List.takeWhile_append_dropWhile]
    exact h
  have hfalse {ds : List Char} (hd : c ∈ ds) : isDigits ds = false :=
    eq_false_of_ne_true fun ht => not_mem_of_isDigits hc.1 ht hd
  rw [readUnsigned?]
  rcases hsplit with hw | hp
  · rw [hfalse hw]
    split <;> rfl
  · split
    · next he =>
      rw [he] at hp
      exact absurd hp List.not_mem_nil
    · next x places he =>
      -- the character at which the whole part ends is the point
      have hpoint : x = '.' := by
        have hstop := List.head?_dropWhile_not (· ≠ '.') cs
        rw [he] at hstop
        simpa using hstop
      rw [he, List.mem_cons, hpoint] at hp
      rw [hfalse (hp.resolve_left hc.2.1), Bool.and_false]
      rfl

/-- A sign in front of it makes no difference. -/
theorem readSigned?_eq_none {c : Char} (hc : IsForeign c) {cs : List Char} (h : c ∈ cs) :
    readSigned? cs = none := by
  unfold readSigned?
  split
  · rw [readUnsigned?_eq_none hc ((List.mem_cons.1 h).resolve_left hc.2.2.1)]
    rfl
  · rw [readUnsigned?_eq_none hc ((List.mem_cons.1 h).resolve_left hc.2.2.2.1)]
    rfl
  · rw [readUnsigned?_eq_none hc h]
    rfl

/-- **A text with a foreign character writes no number.** -/
theorem ofText?_eq_none {c : Char} (hc : IsForeign c) {s : String} (h : c ∈ s.toList) :
    ofText? s = none := by
  obtain ⟨a, b, ha, hb, hs⟩ := Text.exists_trimChars s.toList
  have hblank {bs : List Char} (blank : ∀ x ∈ bs, Text.isBlank x = true) : c ∉ bs := by
    intro hm
    have hx := hc.2.2.2.2
    rw [blank c hm] at hx
    cases hx
  rw [hs, List.mem_append, List.mem_append] at h
  exact readSigned?_eq_none hc ((h.resolve_left (hblank ha)).resolve_right (hblank hb))

end Tabletop.Decimal
