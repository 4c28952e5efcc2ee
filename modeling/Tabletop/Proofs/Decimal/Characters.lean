import Tabletop.Proofs.Decimal.Canonical

/-
  The characters in which a coerced text is shown.

  1. **A sign and a point are not made up** — a negative number was written with a minus sign, a number
     with places was written with a point (`readSigned?_characters`).

  2. **Stripping zeros** makes no number negative, and gives no number places (`normalize_characters`).

  3. **What is shown was there** — so a coerced text is shown in digits and in characters that it had
     itself (`Value.mem_display_coerce`).  A separator that is no digit and does not stand in a text does
     not come in when the text is coerced.
-/
namespace Tabletop.Decimal

/-! ## Reading -/

/-- A number without a point has no places. -/
theorem readUnsigned?_of_no_point {cs : List Char} (h : '.' ∉ cs) {r : Nat × Nat}
    (hr : readUnsigned? cs = some r) : r.2 = 0 := by
  have hwhole : ∀ c ∈ cs, decide (c ≠ '.') = true := by
    intro c hc
    rw [decide_eq_true_eq]
    rintro rfl
    exact h hc
  -- nothing is behind the whole part
  obtain ⟨-, hdrop⟩ := Text.takeWhile_append_of_stop (r := []) hwhole nofun
  rw [List.append_nil] at hdrop
  rw [readUnsigned?, hdrop] at hr
  dsimp only at hr
  split at hr
  · unfold ofDigits? at hr
    dsimp only at hr
    split at hr
    · rw [readPlaces] at hr
      rw [← Option.some.inj hr]
    · cases hr
  · cases hr

/-- **A minus sign stands in front of a negative number, and a point in front of its places.** -/
theorem readSigned?_characters {cs : List Char} {d : Decimal} (h : readSigned? cs = some d) :
    (d.coefficient < 0 → '-' ∈ cs) ∧ (d.scale ≠ 0 → '.' ∈ cs) := by
  have hpoint {ds : List Char} {r : Nat × Nat} (hr : readUnsigned? ds = some r) (hscale : r.2 ≠ 0) :
      '.' ∈ ds := by
    by_contra hnone
    exact hscale (readUnsigned?_of_no_point hnone hr)
  unfold readSigned? at h
  split at h
  · obtain ⟨r, hr, rfl⟩ := Option.map_eq_some_iff.1 h
    exact ⟨fun _ => List.mem_cons_self, fun hscale => List.mem_cons_of_mem _ (hpoint hr hscale)⟩
  · obtain ⟨r, hr, rfl⟩ := Option.map_eq_some_iff.1 h
    exact ⟨fun hneg => absurd hneg (Int.not_lt.2 (Int.natCast_nonneg r.1)),
      fun hscale => List.mem_cons_of_mem _ (hpoint hr hscale)⟩
  · obtain ⟨r, hr, rfl⟩ := Option.map_eq_some_iff.1 h
    exact ⟨fun hneg => absurd hneg (Int.not_lt.2 (Int.natCast_nonneg r.1)), hpoint hr⟩

/-! ## Showing -/

/-- **A number without zeros at its end** is negative only if the number was, and has places only if the
    number had some. -/
theorem normalize_characters (d : Decimal) :
    (d.normalize.coefficient < 0 → d.coefficient < 0) ∧ (d.normalize.scale ≠ 0 → d.scale ≠ 0) := by
  have hle : d.normalize.scale ≤ d.scale := stripZeros_scale_le d.coefficient d.scale
  refine ⟨fun hneg => ?_, fun hscale => by omega⟩
  rw [← stripZeros_value d.coefficient d.scale]
  exact Int.mul_neg_of_neg_of_pos hneg (Int.pow_pos (by decide))

/-- A number is written with digits, a sign if it is negative, and a point if it has places. -/
theorem mem_renderChars {d : Decimal} {c : Char} (h : c ∈ d.renderChars) :
    c.isDigit = true ∨ c = '-' ∧ d.coefficient < 0 ∨ c = '.' ∧ d.scale ≠ 0 := by
  rw [renderChars, List.mem_append] at h
  rcases h with h | h
  · split at h
    · next hneg => exact .inr (.inl ⟨List.mem_singleton.1 h, hneg⟩)
    · exact absurd h List.not_mem_nil
  · rcases mem_placedDigits h with hdigit | rfl
    · exact .inl hdigit
    · refine .inr (.inr ⟨rfl, fun hscale => ?_⟩)
      -- without places there are digits only
      rw [hscale] at h
      have hdigit := (isDigits_iff.1 (isDigits_toDigits d.coefficient.natAbs)).2 '.' h
      exact absurd hdigit (by decide)

/-- A number is shown in digits and in characters of the text that wrote it. -/
theorem mem_display {s : String} {d : Decimal} (h : ofText? s = some d) {c : Char}
    (hc : c ∈ d.display.toList) : c.isDigit = true ∨ c ∈ s.toList := by
  obtain ⟨hminus, hpoint⟩ := readSigned?_characters h
  obtain ⟨hnegative, hplaces⟩ := d.normalize_characters
  rw [display, render, String.toList_ofList] at hc
  rcases mem_renderChars hc with hdigit | ⟨rfl, hneg⟩ | ⟨rfl, hscale⟩
  · exact .inl hdigit
  · exact .inr (Text.mem_of_mem_trimChars (hminus (hnegative hneg)))
  · exact .inr (Text.mem_of_mem_trimChars (hpoint (hplaces hscale)))

end Tabletop.Decimal

namespace Tabletop.Value

/-- **A coerced text is shown in digits and in its own characters.** -/
theorem mem_display_coerce {s : String} {c : Char} (h : c ∈ (coerce s).display.toList) :
    c.isDigit = true ∨ c ∈ s.toList := by
  cases hs : Decimal.ofText? s with
  | some d =>
    rw [coerce_of_ofText? hs] at h
    exact Decimal.mem_display hs h
  | none =>
    have htext : coerce s = .text s := by rw [coerce, hs]
    rw [htext] at h
    exact .inr h

/-- A text without blanks at its ends is shown without blanks at its ends. -/
theorem trimmed_display_coerce {s : String} (h : Text.Trimmed s.toList) :
    Text.Trimmed (coerce s).display.toList := by
  rcases coerce_cases s with ⟨d, hd, -⟩ | htext
  · rw [hd, display, Decimal.display, Decimal.render, String.toList_ofList]
    exact Decimal.trimmed_renderChars d.normalize
  · rw [htext]
    exact h

end Tabletop.Value
