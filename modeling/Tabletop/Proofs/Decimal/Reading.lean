import Tabletop.Decimal.Text
import Tabletop.Proofs.Text.Pieces

/-
  A number is read back from what it is written as.

  1. **How a number is written** — digits, and behind a point a digit for each place; all the digits
     together write the coefficient (`exists_placedDigits`).

  2. **Reading** — the reader checks the bounds at every digit behind the point.  The value only grows
     with the digits (`le_ofDigitChars`), so a number that fits is read without a place given up
     (`readPlaces_eq`).
-/
namespace Tabletop.Decimal

/-! ## How a number is written -/

/-- A number is written with digits. -/
theorem isDigits_toDigits (m : Nat) : isDigits (Nat.toDigits 10 m) = true := by
  have hne : (Nat.toDigits 10 m).isEmpty = false := List.isEmpty_eq_false_iff.2 Nat.toDigits_ne_nil
  rw [isDigits, hne, Bool.not_false, Bool.true_and, List.all_eq_true]
  exact fun c hc => Nat.isDigit_of_mem_toDigits (by omega) (by omega) hc

/-- Digits are one digit at least. -/
theorem isDigits_iff {cs : List Char} : isDigits cs = true ↔ cs ≠ [] ∧ ∀ c ∈ cs, c.isDigit = true := by
  rw [isDigits, Bool.and_eq_true, List.all_eq_true, Bool.not_eq_true', List.isEmpty_eq_false_iff]

/-- Only zero is written as zero. -/
theorem digitChar_ne_zero : ∀ n < 10, n ≠ 0 → Nat.digitChar n ≠ '0' := by decide

/-- The digits of a positive number do not start with a zero. -/
theorem head_toDigits {n : Nat} (hn : n ≠ 0) :
    ∃ c cs, Nat.toDigits 10 n = c :: cs ∧ c ≠ '0' := by
  induction n using Nat.strongRecOn with
  | ind n ih =>
    rcases Nat.lt_or_ge n 10 with h | h
    · exact ⟨_, [], Nat.toDigits_of_lt_base h, digitChar_ne_zero n h hn⟩
    · obtain ⟨c, cs, hcs, hc⟩ := ih (n / 10) (by omega) (by omega)
      refine ⟨c, cs ++ [Nat.digitChar (n % 10)], ?_, hc⟩
      rw [Nat.toDigits_of_base_le (by omega) h, hcs]
      rfl

/-- A number is digits, and a point with one digit for each place if there are any. -/
theorem exists_placedDigits (m scale : Nat) :
    ∃ whole places, placedDigits m scale = whole ++ (if places = [] then [] else '.' :: places) ∧
      isDigits whole = true ∧ (∀ c ∈ places, c.isDigit = true) ∧ places.length = scale ∧
      Nat.ofDigitChars 10 (whole ++ places) 0 = m := by
  cases scale with
  | zero =>
    refine ⟨Nat.toDigits 10 m, [], ?_, isDigits_toDigits m, nofun, rfl, ?_⟩
    · rw [if_pos rfl, List.append_nil]
      rfl
    · rw [List.append_nil]
      exact Nat.ofDigitChars_ten_toDigits
  | succ s =>
    -- zeros in front, so that a digit is left before the point
    obtain ⟨padded, hpadded⟩ : ∃ padded, padded =
        List.replicate (s + 2 - (Nat.toDigits 10 m).length) '0' ++ Nat.toDigits 10 m := ⟨_, rfl⟩
    have hlength : s + 2 ≤ padded.length := by
      rw [hpadded, List.length_append, List.length_replicate]
      omega
    have hdigit : ∀ c ∈ padded, c.isDigit = true := by
      intro c hc
      rw [hpadded, List.mem_append] at hc
      rcases hc with hc | hc
      · rw [List.eq_of_mem_replicate hc]
        rfl
      · exact (isDigits_iff.1 (isDigits_toDigits m)).2 c hc
    have hplaces : (padded.drop (padded.length - (s + 1))).length = s + 1 := by
      rw [List.length_drop]
      omega
    refine ⟨padded.take (padded.length - (s + 1)), padded.drop (padded.length - (s + 1)), ?_, ?_,
      fun c hc => hdigit c (List.mem_of_mem_drop hc), hplaces, ?_⟩
    · rw [if_neg (List.ne_nil_of_length_eq_add_one hplaces), hpadded]
      rfl
    · refine isDigits_iff.2 ⟨List.ne_nil_of_length_pos ?_, fun c hc => hdigit c (List.mem_of_mem_take hc)⟩
      rw [List.length_take]
      omega
    · rw [List.take_append_drop, hpadded, Nat.ofDigitChars_append, Nat.ofDigitChars_replicate_zero,
        Nat.mul_zero]
      exact Nat.ofDigitChars_ten_toDigits

/-- Nothing but digits and a point, and a digit in front. -/
theorem mem_placedDigits {m scale : Nat} {c : Char} (h : c ∈ placedDigits m scale) :
    c.isDigit = true ∨ c = '.' := by
  obtain ⟨whole, places, heq, hwhole, hplaces, -, -⟩ := exists_placedDigits m scale
  rw [heq, List.mem_append] at h
  rcases h with h | h
  · exact .inl ((isDigits_iff.1 hwhole).2 c h)
  · split at h
    · exact absurd h List.not_mem_nil
    · rcases List.mem_cons.1 h with rfl | h
      · exact .inr rfl
      · exact .inl (hplaces c h)

/-- There is a digit in front of the point. -/
theorem exists_cons_placedDigits (m scale : Nat) :
    ∃ c cs, placedDigits m scale = c :: cs ∧ c.isDigit = true := by
  obtain ⟨whole, places, heq, hwhole, -⟩ := exists_placedDigits m scale
  obtain ⟨hne, hdigit⟩ := isDigits_iff.1 hwhole
  obtain ⟨c, cs, rfl⟩ := List.exists_cons_of_ne_nil hne
  exact ⟨c, _, heq, hdigit c List.mem_cons_self⟩

/-! ## Reading -/

/-- Digits behind a number make it no smaller. -/
theorem le_ofDigitChars (ds : List Char) (m : Nat) : m ≤ Nat.ofDigitChars 10 ds m := by
  induction ds generalizing m with
  | nil => exact Nat.le_refl m
  | cons c ds ih =>
    rw [Nat.ofDigitChars_cons]
    have h := ih (10 * m + (c.toNat - '0'.toNat))
    omega

/-- **Places that fit are all taken.** -/
theorem readPlaces_eq {ds : List Char} {m scale : Nat}
    (fits : Nat.ofDigitChars 10 ds m < coefficientBound) (places : scale + ds.length ≤ maxScale) :
    readPlaces m scale ds = some (Nat.ofDigitChars 10 ds m, scale + ds.length) := by
  induction ds generalizing m scale with
  | nil => rfl
  | cons c ds ih =>
    rw [Nat.ofDigitChars_cons] at fits ⊢
    have hstep : 10 * m + (c.toNat - '0'.toNat) = m * 10 + digitValue c := by
      rw [Nat.mul_comm, digitValue]
    rw [hstep] at fits ⊢
    have hfront := le_ofDigitChars ds (m * 10 + digitValue c)
    rw [List.length_cons] at places ⊢
    rw [readPlaces, if_pos (by omega), ih fits (by omega)]
    congr 2
    omega

/-- Digits with a bound that they keep are read with all their places. -/
theorem ofDigits?_eq {whole places : List Char}
    (fits : Nat.ofDigitChars 10 (whole ++ places) 0 < coefficientBound)
    (hscale : places.length ≤ maxScale) :
    ofDigits? whole places = some (Nat.ofDigitChars 10 (whole ++ places) 0, places.length) := by
  rw [Nat.ofDigitChars_append] at fits ⊢
  have hfront := le_ofDigitChars places (Nat.ofDigitChars 10 whole 0)
  rw [ofDigits?, if_pos (Nat.lt_of_le_of_lt hfront fits), readPlaces_eq fits (by omega), Nat.zero_add]

/-- The point is the first one, as the digits in front of it are none. -/
theorem ne_point_of_isDigits {whole : List Char} (h : isDigits whole = true) :
    ∀ c ∈ whole, (decide (c ≠ '.')) = true := by
  intro c hc
  have hdigit := (isDigits_iff.1 h).2 c hc
  rw [decide_eq_true_eq]
  rintro rfl
  exact absurd hdigit (by decide)

/-- Digits alone are the whole part. -/
theorem readUnsigned?_digits {whole : List Char} (hwhole : isDigits whole = true) :
    readUnsigned? whole = ofDigits? whole [] := by
  obtain ⟨htake, hdrop⟩ := Text.takeWhile_append_of_stop (r := [])
    (ne_point_of_isDigits hwhole) nofun
  rw [List.append_nil] at htake hdrop
  rw [readUnsigned?, htake, hdrop]
  exact if_pos hwhole

/-- Digits in front of a point, and digits behind it. -/
theorem readUnsigned?_point {whole places : List Char} (hwhole : isDigits whole = true)
    (hplaces : isDigits places = true) :
    readUnsigned? (whole ++ '.' :: places) = ofDigits? whole places := by
  have hstop : ∀ c ∈ ('.' :: places).head?, decide (c ≠ '.') = false := by
    intro c hc
    rw [← Option.some.inj hc]
    rfl
  obtain ⟨htake, hdrop⟩ := Text.takeWhile_append_of_stop (ne_point_of_isDigits hwhole) hstop
  rw [readUnsigned?, htake, hdrop]
  show (if (isDigits whole && isDigits places) = true then ofDigits? whole places else none) = _
  rw [hwhole, hplaces]
  rfl

/-- A coefficient that is written with its places is read back. -/
theorem readUnsigned?_placedDigits {m scale : Nat} (hm : m < coefficientBound)
    (hscale : scale ≤ maxScale) : readUnsigned? (placedDigits m scale) = some (m, scale) := by
  obtain ⟨whole, places, heq, hwhole, hplaces, rfl, rfl⟩ := exists_placedDigits m scale
  rw [heq, ← ofDigits?_eq hm hscale]
  by_cases hnone : places = []
  · rw [if_pos hnone, hnone, List.append_nil]
    exact readUnsigned?_digits hwhole
  · rw [if_neg hnone]
    exact readUnsigned?_point hwhole (isDigits_iff.2 ⟨hnone, hplaces⟩)

/-- **A number that fits is read back** with all its places. -/
theorem readSigned?_renderChars {d : Decimal} (hd : d.Fits) : readSigned? d.renderChars = some d := by
  obtain ⟨hcoefficient, hscale⟩ := hd
  have hread := readUnsigned?_placedDigits hcoefficient hscale
  rw [renderChars]
  by_cases hneg : d.coefficient < 0
  · have hvalue : -(d.coefficient.natAbs : Int) = d.coefficient := by omega
    rw [if_pos hneg, List.singleton_append, readSigned?, hread, Option.map_some, hvalue]
  · have hvalue : (d.coefficient.natAbs : Int) = d.coefficient := by omega
    obtain ⟨c, cs, hcs, hc⟩ := exists_cons_placedDigits d.coefficient.natAbs d.scale
    rw [if_neg hneg, List.nil_append, readSigned?, hread, Option.map_some, hvalue]
    -- the first digit is no sign
    all_goals
      intro ds hds
      rw [hcs] at hds
      rw [(List.cons.inj hds).1] at hc
      exact absurd hc (by decide)

end Tabletop.Decimal
