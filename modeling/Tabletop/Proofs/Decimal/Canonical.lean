import Tabletop.Proofs.Decimal.Value
import Tabletop.Value

/-
  The text in which a number is shown.

  1. **The form** — `IsCanonical`: a sign only in front of a negative number, no zero in front of other
     digits, and no zero behind the point unless another digit follows it.

  2. **Every number is shown in this form** — a normalized number is written with its own digits, with
     zeros in front only as far as the point needs them (`exists_placedDigits_of_normal`).

  3. **The text is read back** — `coerce_display_number`: a shown number reads as the normalized number.
     So numbers that are shown alike are equal, and showing what was read settles at once.
-/
namespace Tabletop.Decimal

/-! ## The form -/

/-- Text without a character to spare: a minus sign in front of a negative number, no zeros in front of
    other digits, and none at the end of the places. -/
def IsCanonical (cs : List Char) : Prop :=
  ∃ (negative : Bool) (whole places : List Char),
    cs = (if negative then ['-'] else []) ++ (whole ++ if places = [] then [] else '.' :: places) ∧
    isDigits whole = true ∧ (∀ c ∈ places, c.isDigit = true) ∧
    (whole.head? = some '0' → whole = ['0']) ∧ places.getLast? ≠ some '0' ∧
    (negative = true → whole = ['0'] → places ≠ [])

/-! ## Every number is shown in this form -/

/-- The last digit is what is left of a division by ten. -/
theorem getLast?_toDigits (m : Nat) : (Nat.toDigits 10 m).getLast? = some (Nat.digitChar (m % 10)) := by
  rcases Nat.lt_or_ge m 10 with h | h
  · rw [Nat.toDigits_of_lt_base h, Nat.mod_eq_of_lt h]
    rfl
  · rw [Nat.toDigits_of_base_le (by omega) h, List.getLast?_append]
    rfl

/-- The digits of a number do not start with a zero, unless there is no other digit. -/
theorem toDigits_eq_of_head?_eq_zero {m : Nat} (h : (Nat.toDigits 10 m).head? = some '0') :
    Nat.toDigits 10 m = ['0'] := by
  by_cases hm : m = 0
  · rw [hm]
    rfl
  · obtain ⟨c, cs, hcs, hc⟩ := head_toDigits hm
    rw [hcs] at h
    exact absurd (Option.some.inj h) hc

/-- Zeros in front of the digits leave at most one in front of the point. -/
theorem take_padded {digits : List Char} (s : Nat)
    (hzero : digits.head? = some '0' → digits = ['0']) :
    let padded := List.replicate (s + 2 - digits.length) '0' ++ digits
    (padded.take (padded.length - (s + 1))).head? = some '0' →
      padded.take (padded.length - (s + 1)) = ['0'] := by
  intro padded hhead
  rcases Nat.lt_or_ge digits.length (s + 2) with hshort | hlong
  · -- one zero is in front of the point, whatever the digits are
    have hlength : padded.length - (s + 1) = 1 := by
      rw [List.length_append, List.length_replicate]
      omega
    obtain ⟨k, hk⟩ : ∃ k, s + 2 - digits.length = k + 1 := ⟨s + 1 - digits.length, by omega⟩
    rw [hlength]
    show (List.replicate (s + 2 - digits.length) '0' ++ digits).take 1 = ['0']
    rw [hk]
    rfl
  · have hpadded : padded = digits := by
      show List.replicate (s + 2 - digits.length) '0' ++ digits = digits
      rw [Nat.sub_eq_zero_of_le hlong]
      rfl
    rw [hpadded, List.head?_take, if_neg (by omega)] at hhead
    rw [hzero hhead] at hlong
    exact absurd hlong (by simp)

/-- The digits of a number without a zero at the end of its places. -/
theorem exists_placedDigits_of_normal {m scale : Nat} (h : scale = 0 ∨ m % 10 ≠ 0) :
    ∃ whole places, placedDigits m scale = whole ++ (if places = [] then [] else '.' :: places) ∧
      isDigits whole = true ∧ (∀ c ∈ places, c.isDigit = true) ∧
      (whole.head? = some '0' → whole = ['0']) ∧ places.getLast? ≠ some '0' ∧
      (places = [] → whole = Nat.toDigits 10 m) := by
  cases scale with
  | zero =>
    exact ⟨Nat.toDigits 10 m, [], (List.append_nil _).symm, isDigits_toDigits m,
      fun c hc => absurd hc List.not_mem_nil, toDigits_eq_of_head?_eq_zero,
      (Option.some_ne_none '0').symm, fun _ => rfl⟩
  | succ s =>
    obtain ⟨whole, places, heq, hwhole, hplaces, hlength, -⟩ := exists_placedDigits m (s + 1)
    have hne : places ≠ [] := List.ne_nil_of_length_eq_add_one hlength
    obtain ⟨padded, hpadded⟩ : ∃ padded, padded =
        List.replicate (s + 2 - (Nat.toDigits 10 m).length) '0' ++ Nat.toDigits 10 m := ⟨_, rfl⟩
    have hlong : s + 2 ≤ padded.length := by
      rw [hpadded, List.length_append, List.length_replicate]
      omega
    -- both sides have the point at the same place
    have hcut : whole ++ '.' :: places =
        padded.take (padded.length - (s + 1)) ++ '.' :: padded.drop (padded.length - (s + 1)) := by
      rw [if_neg hne] at heq
      rw [← heq, hpadded]
      rfl
    obtain ⟨htake, hdrop⟩ := List.append_inj' hcut (by
      rw [List.length_cons, List.length_cons, hlength, List.length_drop]
      omega)
    have hlast : places.getLast? = some (Nat.digitChar (m % 10)) := by
      rw [(List.cons.inj hdrop).2, List.getLast?_drop, if_neg (by omega), hpadded,
        List.getLast?_append, getLast?_toDigits]
      rfl
    refine ⟨whole, places, heq, hwhole, hplaces, ?_, ?_, fun h => absurd h hne⟩
    · rw [htake, hpadded]
      exact take_padded s toDigits_eq_of_head?_eq_zero
    · rw [hlast]
      intro hzero
      exact digitChar_ne_zero (m % 10) (by omega) (h.resolve_left (Nat.succ_ne_zero s))
        (Option.some.inj hzero)

/-- **A normalized number is written canonically.** -/
theorem isCanonical_renderChars {d : Decimal} (h : d.Normal) : IsCanonical d.renderChars := by
  have hnormal : d.scale = 0 ∨ d.coefficient.natAbs % 10 ≠ 0 := h.imp_right fun hne => by omega
  obtain ⟨whole, places, heq, hwhole, hplaces, hlead, hlast, hnone⟩ :=
    exists_placedDigits_of_normal hnormal
  refine ⟨decide (d.coefficient < 0), whole, places, ?_, hwhole, hplaces, hlead, hlast, ?_⟩
  · rw [renderChars, heq]
    simp only [decide_eq_true_eq]
  · -- a negative number without places has other digits than zero
    intro hneg hzero hplaces
    rw [decide_eq_true_eq] at hneg
    have hdigits := hnone hplaces
    obtain ⟨c, cs, hcs, hc⟩ := head_toDigits (n := d.coefficient.natAbs) (by omega)
    rw [← hdigits, hzero] at hcs
    exact hc (List.cons.inj hcs).1.symm

/-! ## The text is read back -/

/-- A digit is no blank. -/
theorem isBlank_of_isDigit {c : Char} (h : c.isDigit = true) : Text.isBlank c = false := by
  have hbounds : 48 ≤ c.toNat ∧ c.toNat ≤ 57 := Char.isDigit_iff_toNat.1 h
  simp only [Text.isBlank, Bool.or_eq_false_iff, Bool.and_eq_false_iff, decide_eq_false_iff_not,
    beq_eq_false_iff_ne]
  omega

/-- No number is written with blanks. -/
theorem trimmed_renderChars (d : Decimal) : Text.Trimmed d.renderChars := by
  have hblank {c : Char} (hc : c ∈ d.renderChars) : Text.isBlank c = false := by
    rw [renderChars, List.mem_append] at hc
    rcases hc with hc | hc
    · split at hc
      · rw [List.mem_singleton.1 hc]
        rfl
      · exact absurd hc List.not_mem_nil
    · rcases mem_placedDigits hc with hc | rfl
      · exact isBlank_of_isDigit hc
      · rfl
  exact ⟨fun x hx => hblank (List.mem_of_mem_head? hx), fun x hx => hblank (List.mem_of_getLast? hx)⟩

/-- A number is read back from how it is written. -/
theorem ofText?_render {d : Decimal} (h : d.Fits) : ofText? d.render = some d := by
  rw [ofText?, render, String.toList_ofList, (trimmed_renderChars d).trimChars_eq,
    readSigned?_renderChars h]

/-- Numbers are shown alike only if they are the same. -/
theorem display_eq_display_iff {a b : Decimal} (ha : a.Fits) (hb : b.Fits) :
    a.display = b.display ↔ a.same b = true := by
  rw [same_iff, ← normalize_eq_normalize_iff]
  constructor
  · intro h
    have hread : ofText? a.normalize.render = ofText? b.normalize.render := congrArg ofText? h
    rw [ofText?_render ha.normalize, ofText?_render hb.normalize] at hread
    exact Option.some.inj hread
  · intro h
    rw [display, display, h]

end Tabletop.Decimal

namespace Tabletop.Value

/-- Equality of values: that of the numbers for numbers, whatever their places. -/
def Same : Value → Value → Prop
  | .number m, .number n => m.same n = true
  | v, w => v = w

theorem same_refl (v : Value) : v.Same v := by
  cases v with
  | number d => exact Decimal.same_refl d
  | text s => rfl
  | tree j => rfl

/-- A text that is a number is coerced to it. -/
theorem coerce_of_ofText? {s : String} {d : Decimal} (h : Decimal.ofText? s = some d) :
    coerce s = .number d := by
  rw [coerce, h]

/-- Coercion makes a number that fits, or leaves the text. -/
theorem coerce_cases (s : String) :
    (∃ d, coerce s = .number d ∧ d.Fits) ∨ coerce s = .text s := by
  unfold coerce
  cases h : Decimal.ofText? s with
  | some d => exact .inl ⟨d, rfl, Decimal.ofText?_fits h⟩
  | none => exact .inr rfl

/-- A number that was coerced fits. -/
theorem fits_of_coerce {s : String} {d : Decimal} (h : coerce s = .number d) : d.Fits := by
  rcases coerce_cases s with ⟨d', hd', hfits⟩ | htext
  · rw [hd'] at h
    exact Value.number.inj h ▸ hfits
  · rw [htext] at h
    cases h

/-- **A number that is shown is read back** as the same number without zeros at the end. -/
theorem coerce_display_number {d : Decimal} (h : d.Fits) :
    coerce (Value.number d).display = .number d.normalize := by
  rw [coerce, display, Decimal.display, Decimal.ofText?_render h.normalize]

/-- **Coercion is canonical and idempotent.**  What a text is coerced to is shown as a text that is
    coerced to the same value, and is shown as itself from then on.  A number is shown in canonical form;
    two numbers are shown alike exactly when they are equal. -/
theorem coerce_canonical :
    (∀ s, (coerce (coerce s).display).Same (coerce s) ∧
      (coerce (coerce s).display).display = (coerce s).display) ∧
    ∀ s t m n, coerce s = .number m → coerce t = .number n →
      Decimal.IsCanonical (coerce s).display.toList ∧
      ((coerce s).display = (coerce t).display ↔ m.same n = true) := by
  refine ⟨fun s => ?_, fun s t m n hm hn => ?_⟩
  · -- a number is written in its normal form; a text stays as it is
    rcases coerce_cases s with ⟨d, hd, hfits⟩ | htext
    · rw [hd, coerce_display_number hfits]
      refine ⟨Decimal.same_iff.2 (Decimal.toRat_normalize d), ?_⟩
      rw [display, display, Decimal.display, Decimal.normalize_normalize]
      rfl
    · rw [htext, display_text, htext]
      exact ⟨same_refl _, rfl⟩
  · rw [hm, hn]
    refine ⟨?_, Decimal.display_eq_display_iff (fits_of_coerce hm) (fits_of_coerce hn)⟩
    rw [display, Decimal.display, Decimal.render, String.toList_ofList]
    exact Decimal.isCanonical_renderChars (Decimal.normal_normalize m)

/-- A literal that is rounded at the bound, and another one with blanks, a sign and spare zeros. -/
theorem coerce_canonical_rounded :
    coerce "7.9228162514264337593543950335999" = .number ⟨7922816251426433759354395034, 27⟩ ∧
    coerce " +07.92281625142643375935439503400" = .number ⟨7922816251426433759354395034, 27⟩ ∧
    Decimal.IsCanonical (coerce " +07.92281625142643375935439503400").display.toList ∧
    (coerce " +07.92281625142643375935439503400").display =
      (coerce "7.9228162514264337593543950335999").display ∧
    (coerce (coerce " -00.0 ").display).Same (coerce " -00.0 ") := by
  have hlong : coerce "7.9228162514264337593543950335999" =
      .number ⟨7922816251426433759354395034, 27⟩ := coerce_of_ofText? (by decide +kernel)
  have hspare : coerce " +07.92281625142643375935439503400" =
      .number ⟨7922816251426433759354395034, 27⟩ := coerce_of_ofText? (by decide +kernel)
  obtain ⟨hshown, hiff⟩ := coerce_canonical.2 _ _ _ _ hspare hlong
  exact ⟨hlong, hspare, hshown, hiff.2 (by decide), (coerce_canonical.1 " -00.0 ").1⟩

/-- An integer of 64 bits is stored in a tree as it is, whatever its places. -/
theorem jsonOfDecimal_of_same_ofInt {d : Decimal} {n : Int} (hn : Decimal.InWord n)
    (h : d.same (Decimal.ofInt n) = true) : jsonOfDecimal d = Json.ofInt n := by
  have hnormal : d.normalize = Decimal.ofInt n := by
    rw [← Decimal.normalize_ofInt n]
    exact Decimal.normalize_eq_normalize_iff.2 (Decimal.same_iff.1 h)
  rw [jsonOfDecimal, hnormal]
  exact if_pos ⟨rfl, hn⟩

end Tabletop.Value
