import Tabletop.Proofs.Decimal.Canonical
import Tabletop.Proofs.Decimal.ToBinary

/-
  Which numbers come out of a tree as they were stored.

  1. **Integers of 64 bits** are stored as they are, and all of them come back.

  2. **All other numbers** are stored as binary numbers.  A number with 15 digits, of which 22 at most are
     behind the point, comes back (`survives_of_few_digits`).

  3. **What comes back** has 17 digits at most, since that is what a shortest decimal has and more than
     is read by bits (`hasDigits_of_survives`).  The one exception is a whole number that is rounded to
     `2 ^ 96`: its text does not fit, and the bits of `2 ^ 96` are read as that very number.

  So a number of 16 or 17 digits may be changed, and all longer ones are (`survives_bounds`).  Neither 15
  digits nor 22 places can be exceeded by one.
-/
namespace Tabletop.Decimal

open Binary64 (two_zpow_pos ten_zpow_pos)

variable {n : Decimal}

/-- The number has `k` digits at most, zeros at either end aside. -/
def HasDigits (k : Nat) (r : ℚ) : Prop := ∃ (a : Int) (t : Int), a.natAbs < 10 ^ k ∧ r = a * 10 ^ t

/-- The number is an integer of 64 bits, whatever its places. -/
def IsWord (n : Decimal) : Prop := ∃ i, InWord i ∧ n.same (ofInt i) = true

/-- The number comes out of a tree as it was stored. -/
def Survives (n : Decimal) : Prop :=
  ∃ m, Value.ofJson (Value.toJson (.number n)) = .number m ∧ m.same n = true

/-! ## Integers of 64 bits -/

/-- A word is stored as an integer, and read back as one. -/
theorem survives_of_isWord (h : n.IsWord) : n.Survives := by
  obtain ⟨i, hi, hsame⟩ := h
  refine ⟨ofInt i, ?_, same_iff.2 (same_iff.1 hsame).symm⟩
  rw [Value.toJson, Value.jsonOfDecimal_of_same_ofInt hi hsame]
  rfl

/-- A word is a coefficient in the range, without places. -/
theorem isWord_of_normalize (hscale : n.normalize.scale = 0) (h : InWord n.normalize.coefficient) :
    n.IsWord := by
  refine ⟨n.normalize.coefficient, h, same_iff.2 ?_⟩
  rw [← toRat_normalize n, toRat_ofInt, toRat, hscale, pow_zero, div_one]

/-- The normal form tells whether a number is a word. -/
theorem isWord_iff : n.IsWord ↔ n.normalize.scale = 0 ∧ InWord n.normalize.coefficient := by
  refine ⟨fun ⟨i, hi, hsame⟩ => ?_, fun h => isWord_of_normalize h.1 h.2⟩
  have hnormal : n.normalize = ofInt i := by
    rw [← normalize_ofInt i]
    exact normalize_eq_normalize_iff.2 (same_iff.1 hsame)
  rw [hnormal]
  exact ⟨rfl, hi⟩

instance (n : Decimal) : Decidable n.IsWord := decidable_of_iff _ isWord_iff.symm

/-! ## All other numbers -/

/-- A number that is no integer of 64 bits is stored as its binary number. -/
theorem toJson_of_not_isWord (h : ¬n.IsWord) {x : Binary64} (hx : n.normalize.toBinary? = some x) :
    Value.toJson (.number n) = .number (.float x) := by
  rw [isWord_iff] at h
  show Value.jsonOfDecimal n = _
  unfold Value.jsonOfDecimal
  dsimp only
  rw [if_neg h, hx]

/-- Any other number survives if its binary number is shown as the same number. -/
theorem survives_iff (h : ¬n.IsWord) {x : Binary64} (hx : n.normalize.toBinary? = some x) :
    n.Survives ↔ ∃ m, ofBinary? x = some m ∧ m.toRat = n.toRat := by
  unfold Survives
  rw [toJson_of_not_isWord h hx]
  constructor
  · rintro ⟨m, hm, hsame⟩
    cases hread : ofBinary? x with
    | some d =>
      rw [Value.ofJson, hread] at hm
      cases hm
      exact ⟨m, rfl, same_iff.1 hsame⟩
    | none =>
      rw [Value.ofJson, hread] at hm
      cases hm
  · rintro ⟨m, hm, hvalue⟩
    refine ⟨m, ?_, same_iff.2 hvalue⟩
    rw [Value.ofJson, hm]

/-- What is read back shows the sign and the digits of the number. -/
theorem survives_of_signed (hword : ¬n.IsWord) {x : Binary64} (hx : n.normalize.toBinary? = some x)
    (h : ∃ d, ofBinary? x = some d ∧ d.toRat = signed (decide (n.normalize.coefficient < 0))
      (n.normalize.coefficient.natAbs / 10 ^ n.normalize.scale)) : n.Survives := by
  obtain ⟨d, hd, hvalue⟩ := h
  refine (survives_iff hword hx).2 ⟨d, hd, ?_⟩
  rw [hvalue, ← toRat_eq_signed, toRat_normalize]

/-- A whole number with few digits and zeros behind them. -/
theorem survives_of_whole (hfits : n.Fits) (hword : ¬n.IsWord) (hscale : n.normalize.scale = 0) {a : Nat}
    {k : Nat} (ha : a < 10 ^ 15) (hvalue : n.normalize.coefficient.natAbs = a * 10 ^ k) : n.Survives := by
  have hbound : a * 10 ^ k < coefficientBound := hvalue ▸ hfits.normalize.1
  have hle : ((a * 10 ^ k : Nat) : ℚ) ≤ 2 ^ (96 : Int) := by exact_mod_cast hbound.le
  obtain ⟨x, hx, hrounded⟩ := Binary64.exists_ofNat (by decide) hle
  have hcovers : x.Covers (a * 10 ^ (k : Int)) := by
    have h := hrounded.covers
    rw [zpow_natCast]
    exact_mod_cast h
  -- zero is a word
  have hpos : 0 < a := by
    by_contra hzero
    rw [Nat.eq_zero_of_not_pos hzero, Nat.zero_mul, Int.natAbs_eq_zero] at hvalue
    exact hword (isWord_of_normalize hscale (by rw [hvalue]; decide))
  have hbinary := toBinary?_of_scale_zero hscale (x := x) (by rw [hvalue]; exact hx)
  refine survives_of_signed hword hbinary ?_
  obtain ⟨d, hd, hread⟩ := ofBinary?_of_few_digits (wellFormed_withSign _ hrounded.wellFormed) hpos ha
    (by omega) (covers_withSign (decide (n.normalize.coefficient < 0)) hcovers)
    (by rw [zpow_natCast]; exact_mod_cast hbound)
  refine ⟨d, hd, ?_⟩
  rw [hread, hscale, hvalue, zpow_natCast, pow_zero, div_one]
  push_cast
  rfl

/-- A number with few digits and few places. -/
theorem survives_of_places (hword : ¬n.IsWord) (hscale : n.normalize.scale ≠ 0)
    (hplaces : n.normalize.scale ≤ 22) (hdigits : n.normalize.coefficient.natAbs < 10 ^ 15) :
    n.Survives := by
  have hlast : n.normalize.coefficient % 10 ≠ 0 := (normal_normalize n).resolve_left hscale
  obtain ⟨x, hx, hwell, hsign, hcovers⟩ :=
    exists_toBinary?_of_few_digits hdigits hlast hscale hplaces
  rw [div_eq_mul_inv, ← zpow_natCast, ← zpow_neg] at hcovers
  have hfits : (n.normalize.coefficient.natAbs : ℚ) * 10 ^ (-(n.normalize.scale : Int)) < coefficientBound := by
    have hone : (10 : ℚ) ^ (-(n.normalize.scale : Int)) ≤ 1 := zpow_le_one_of_nonpos₀ (by norm_num) (by omega)
    have hlt : (n.normalize.coefficient.natAbs : ℚ) < 10 ^ 15 := by exact_mod_cast hdigits
    refine lt_of_le_of_lt (mul_le_of_le_one_right (Nat.cast_nonneg _) hone) (lt_trans hlt ?_)
    unfold coefficientBound
    norm_num
  obtain ⟨d, hd, hread⟩ := ofBinary?_of_few_digits hwell (by omega) hdigits (by omega) hcovers hfits
  refine survives_of_signed hword hx ⟨d, hd, ?_⟩
  rw [hread, hsign, zpow_neg, zpow_natCast, div_eq_mul_inv]

/-- Of two ways to write a number one has zeros behind the digits of the other. -/
theorem digits_cases {c a t : Int} {s : Nat} (h : (c : ℚ) / 10 ^ s = a * 10 ^ t) :
    (∃ k : Nat, c = a * 10 ^ k) ∨ ∃ k : Nat, a = c * 10 ^ k := by
  rw [div_eq_iff (by positivity), mul_assoc, ← zpow_natCast, ← zpow_add₀ (by norm_num)] at h
  rcases le_or_gt 0 (t + s) with hzeros | hzeros
  · obtain ⟨k, hk⟩ := Int.eq_ofNat_of_zero_le hzeros
    rw [hk, zpow_natCast] at h
    exact .inl ⟨k, by exact_mod_cast h⟩
  · obtain ⟨k, hk⟩ : ∃ k : Nat, t + s = -(k : Int) := ⟨(-(t + s)).toNat, by omega⟩
    rw [hk, zpow_neg, zpow_natCast, ← div_eq_mul_inv, eq_div_iff (by positivity)] at h
    exact .inr ⟨k, by exact_mod_cast h.symm⟩

/-- The digits of a number are not fewer than those in front of the zeros at its end. -/
theorem natAbs_lt_of_hasDigits {k s : Nat} {c : Int} (hc : c % 10 ≠ 0)
    (h : HasDigits k ((c : ℚ) / 10 ^ s)) : c.natAbs < 10 ^ k := by
  obtain ⟨a, t, ha, hvalue⟩ := h
  refine lt_of_le_of_lt ?_ ha
  rcases digits_cases hvalue with ⟨j, rfl⟩ | ⟨j, rfl⟩
  · obtain rfl : j = 0 := by
      by_contra hne
      obtain ⟨i, rfl⟩ := Nat.exists_eq_succ_of_ne_zero hne
      rw [pow_succ, ← mul_assoc] at hc
      omega
    rw [pow_zero, mul_one]
  · rw [Int.natAbs_mul, Int.natAbs_pow]
    exact Nat.le_mul_of_pos_right _ (Nat.pow_pos (by decide))

/-- **Numbers of 15 digits and 22 places come back.** -/
theorem survives_of_few_digits (h : n.Fits) (hdigits : HasDigits 15 n.toRat)
    (hplaces : n.normalize.scale ≤ 22) : n.Survives := by
  by_cases hword : n.IsWord
  · exact survives_of_isWord hword
  rw [← toRat_normalize, toRat] at hdigits
  by_cases hscale : n.normalize.scale = 0
  · obtain ⟨a, t, ha, hvalue⟩ := hdigits
    rcases digits_cases hvalue with ⟨k, hk⟩ | ⟨k, hk⟩
    · refine survives_of_whole h hword hscale ha (k := k) ?_
      rw [hk, Int.natAbs_mul, Int.natAbs_pow]
      rfl
    · -- a number with so few digits is an integer of 64 bits
      have hsmall : n.normalize.coefficient.natAbs ≤ a.natAbs := by
        rw [hk, Int.natAbs_mul, Int.natAbs_pow]
        exact Nat.le_mul_of_pos_right _ (Nat.pow_pos (by decide))
      refine absurd (isWord_of_normalize hscale ?_) hword
      unfold InWord
      omega
  · exact survives_of_places hword hscale hplaces
      (natAbs_lt_of_hasDigits ((normal_normalize n).resolve_left hscale) hdigits)

/-! ## What comes back -/

/-- Digits up to a power of ten are no more than it has zeros, for the power itself is one digit. -/
theorem hasDigits_signed {k : Nat} (hk : 0 < k) (negative : Bool) {d : Nat} (hd : d ≤ 10 ^ k) (e : Int) :
    HasDigits k (signed negative (d * 10 ^ e)) := by
  obtain ⟨a, t, ha, hvalue⟩ : ∃ (a : Nat) (t : Int), a < 10 ^ k ∧ (a : ℚ) * 10 ^ t = d * 10 ^ e := by
    -- fewer digits, or the power of ten itself
    rcases Nat.lt_or_eq_of_le hd with hlt | rfl
    · exact ⟨d, e, hlt, rfl⟩
    · refine ⟨1, k + e, Nat.one_lt_pow (by omega) (by decide), ?_⟩
      rw [zpow_add₀ (by norm_num), zpow_natCast]
      push_cast
      ring
  rw [← hvalue]
  cases negative with
  | true =>
    refine ⟨-(a : Int), t, by rw [Int.natAbs_neg]; exact ha, ?_⟩
    show -((a : ℚ) * 10 ^ t) = _
    push_cast
    ring
  | false => exact ⟨a, t, ha, by push_cast; rfl⟩

section Whole

variable {x : Binary64} {c : Nat} (hx : x.WellFormed) (hlow : 2 ^ 63 ≤ c) (hcovers : x.Covers c)
include hx hlow hcovers

/-- What is no word has all of the 53 bits. -/
theorem normal_of_large : 2 ^ 52 ≤ x.significand := by
  have hlow : (2 : ℚ) ^ 63 ≤ c := by exact_mod_cast hlow
  exact hcovers.normal hx (Binary64.not_tiny (le_trans (by norm_num) hlow))

/-- Below `2 ^ 96` the shortest decimal is below it too, and fits. -/
theorem exists_exponentForm_of_lt (hexponent : x.exponent < 44) :
    ∃ d, ofExponentForm x.negative x.shortest.1 ((Nat.toDigits 10 x.shortest.1).length - 1)
      (x.shortest.2 + ((Nat.toDigits 10 x.shortest.1).length - 1 : Nat)) = some d := by
  have hnormal := normal_of_large hx hlow hcovers
  have hlow : (2 : ℚ) ^ 63 ≤ c := by exact_mod_cast hlow
  obtain ⟨hshortest, hdigits⟩ := Binary64.shortest_spec hx (by omega)
  obtain ⟨r, hr⟩ : ∃ r : ℚ, r = x.shortest.1 * 10 ^ x.shortest.2 := ⟨_, rfl⟩
  rw [← hr] at hshortest
  -- from above: the number is below `2 ^ 53 * 2 ^ 43`
  have hbelow : r < 2 ^ 96 := by
    have hsignificand : (x.significand : ℚ) + 1 ≤ 2 ^ 53 := by exact_mod_cast hx.significand_lt
    have hpower : (2 : ℚ) ^ x.exponent ≤ 2 ^ (43 : Int) := zpow_le_zpow_right₀ one_le_two (by omega)
    have hunit := two_zpow_pos x.exponent
    have hle := hshortest.le_high
    rw [Binary64.high_eq] at hle
    norm_num at hpower
    nlinarith
  -- from below: the number is no word
  have habove : 2 ^ 62 ≤ r := by
    have hle := (hcovers.error hnormal).2
    have hge := (hshortest.error hnormal).1
    linarith
  have hpos : 0 < x.shortest.1 := by
    by_contra hzero
    rw [Nat.eq_zero_of_not_pos hzero, Nat.cast_zero, zero_mul] at hr
    linarith
  -- with 17 digits at most, a number of this size has few places
  have hplaces : -28 ≤ x.shortest.2 := by
    have hgrid := ten_zpow_pos x.shortest.2
    have hdigits : (x.shortest.1 : ℚ) ≤ 10 ^ 17 := by exact_mod_cast hdigits
    have hge : (10 : ℚ) ^ (-28 : Int) ≤ 10 ^ x.shortest.2 := by
      norm_num
      nlinarith
    exact (zpow_le_zpow_iff_right₀ (by norm_num)).1 hge
  exact exists_ofExponentForm x.negative hpos hplaces (by rw [← hr]; norm_num; linarith)
    (by rw [← hr]; unfold coefficientBound; exact_mod_cast hbelow)

/-- Only `2 ^ 96` itself covers numbers on both sides of it. -/
theorem eq_bound_of_ge (hhigh : c < 2 ^ 96) (hexponent : 44 ≤ x.exponent) :
    x.significand = 2 ^ 52 ∧ x.exponent = 44 := by
  have hnormal := normal_of_large hx hlow hcovers
  have hnormal' : (2 : ℚ) ^ 52 ≤ x.significand := by exact_mod_cast hnormal
  have hhigh : (c : ℚ) < 2 ^ 96 := by exact_mod_cast hhigh
  have hunit := two_zpow_pos x.exponent
  have hle := le_trans x.half_bit_le_low hcovers.low_le
  -- a larger exponent would make a larger number than there is
  have hexponent' : x.exponent = 44 := by
    by_contra hne
    have hpower : (2 : ℚ) ^ (45 : Int) ≤ 2 ^ x.exponent := zpow_le_zpow_right₀ one_le_two (by omega)
    norm_num at hpower
    nlinarith
  refine ⟨?_, hexponent'⟩
  by_contra hne
  -- and so would a larger significand
  have hsignificand : (2 : ℚ) ^ 52 + 1 ≤ x.significand := by
    have hlt : 2 ^ 52 + 1 ≤ x.significand := by omega
    exact_mod_cast hlt
  rw [hexponent'] at hle
  norm_num at hle
  linarith

end Whole

/-- The number that the bits of `2 ^ 96` are read as. -/
theorem ofBits_bound (negative : Bool) :
    ofBits ⟨negative, 2 ^ 52, 44⟩ =
      some (ofInt (if negative then -79228162514264337593543950330 else 79228162514264337593543950330)) := by
  cases negative <;> decide +kernel

/-- A whole number that is read by its bits is rounded to `2 ^ 96`. -/
theorem abs_toRat_of_whole (h : n.Fits) (hword : ¬n.IsWord) (hscale : n.normalize.scale = 0)
    {x : Binary64} (hx : n.normalize.toBinary? = some x)
    (hnone : ofExponentForm x.negative x.shortest.1 ((Nat.toDigits 10 x.shortest.1).length - 1)
      (x.shortest.2 + ((Nat.toDigits 10 x.shortest.1).length - 1 : Nat)) = none)
    {m : Decimal} (hm : ofBits x = some m) : |m.toRat| = 79228162514264337593543950330 := by
  obtain ⟨y, hy, hrounded⟩ := Binary64.exists_ofNat (n := n.normalize.coefficient.natAbs) (k := 96)
    (by decide) (by exact_mod_cast h.normalize.1.le)
  rw [toBinary?_of_scale_zero hscale hy] at hx
  obtain rfl := Option.some.inj hx
  -- a smaller number would be a word
  have hlarge : 2 ^ 63 ≤ n.normalize.coefficient.natAbs := by
    by_contra hlt
    refine hword (isWord_of_normalize hscale ?_)
    unfold InWord
    omega
  have hwell := wellFormed_withSign (decide (n.normalize.coefficient < 0)) hrounded.wellFormed
  have hcovers := covers_withSign (decide (n.normalize.coefficient < 0)) hrounded.covers
  -- below this exponent the form with an exponent is read
  have hexponent : 44 ≤ y.exponent := by
    by_contra hlt
    obtain ⟨d, hd⟩ := exists_exponentForm_of_lt hwell hlarge hcovers (not_le.1 hlt)
    rw [hnone] at hd
    cases hd
  obtain ⟨hsignificand, hexponent⟩ := eq_bound_of_ge hrounded.wellFormed hlarge hrounded.covers
    h.normalize.1 hexponent
  -- so it is one of two numbers, and what is made of their bits is known
  have hbound : y.withSign (decide (n.normalize.coefficient < 0)) =
      ⟨decide (n.normalize.coefficient < 0), 2 ^ 52, 44⟩ := by
    rw [Binary64.withSign, hsignificand, hexponent]
  rw [hbound, ofBits_bound] at hm
  rw [← Option.some.inj hm, toRat_ofInt]
  split <;> norm_num

/-- **What comes back has 17 digits at most**, integers of 64 bits aside. -/
theorem hasDigits_of_survives (h : n.Fits) (hword : ¬n.IsWord) (hsurvives : n.Survives) :
    HasDigits 17 n.toRat ∨ |n.toRat| = 79228162514264337593543950330 := by
  obtain ⟨x, hx, hwell⟩ := exists_toBinary? h.normalize
  obtain ⟨m, hm, hvalue⟩ := (survives_iff hword hx).1 hsurvives
  rw [← hvalue]
  -- zero has no digits at all
  rcases Nat.eq_zero_or_pos x.significand with hzero | hpos
  · obtain ⟨d, hd, hd0⟩ := ofBinary?_of_isZero (x := x) (beq_iff_eq.2 hzero)
    rw [hd] at hm
    rw [← Option.some.inj hm, hd0]
    exact .inl ⟨0, 0, by decide, by norm_num⟩
  -- the shortest digits are read back, or the bits are
  rcases ofBinary?_cases hwell hpos with ⟨d, hd, hshown⟩ | ⟨hnone, hbits⟩
  · rw [hd] at hm
    rw [← Option.some.inj hm, hshown]
    exact .inl (hasDigits_signed (by decide) _ (Binary64.shortest_spec hwell hpos).2 _)
  · rw [hbits] at hm
    -- the bits make a whole number, or one of few digits
    rcases ofBits_eq_some hm with hwhole | hsmall
    · have hscale : n.normalize.scale = 0 := by
        have hle := scale_le_of_normal (normal_normalize n) (hvalue.trans (toRat_normalize n).symm)
        omega
      exact .inr (abs_toRat_of_whole h hword hscale hx hnone hm)
    · refine .inl ⟨m.coefficient, -(m.scale : Int), lt_trans hsmall (by decide), ?_⟩
      rw [toRat, zpow_neg, zpow_natCast, div_eq_mul_inv]

/-- **Which numbers survive being stored in a tree.**  All integers of 64 bits do, and all numbers of 15
    digits with 22 places at most.  Of the other numbers only such of 17 digits can, and one that is
    rounded to `2 ^ 96`. -/
theorem survives_bounds (h : n.Fits) :
    (n.IsWord ∨ HasDigits 15 n.toRat ∧ n.normalize.scale ≤ 22 → n.Survives) ∧
      (n.Survives → n.IsWord ∨ HasDigits 17 n.toRat ∨ |n.toRat| = 79228162514264337593543950330) := by
  refine ⟨fun hcase => ?_, fun hsurvives => ?_⟩
  · rcases hcase with hword | ⟨hdigits, hplaces⟩
    · exact survives_of_isWord hword
    · exact survives_of_few_digits h hdigits hplaces
  · by_cases hword : n.IsWord
    · exact .inl hword
    · exact .inr (hasDigits_of_survives h hword hsurvives)

/-- A price comes back, and a number of 20 digits does not. -/
theorem survives_bounds_price :
    (⟨1999, 2⟩ : Decimal).Fits ∧ (⟨1999, 2⟩ : Decimal).Survives ∧
      (⟨-12345678901234567891, 10⟩ : Decimal).Fits ∧ ¬(⟨-12345678901234567891, 10⟩ : Decimal).Survives := by
  have hprice : (⟨1999, 2⟩ : Decimal).Fits := by decide
  have hlong : (⟨-12345678901234567891, 10⟩ : Decimal).Fits := by decide
  refine ⟨hprice, (survives_bounds hprice).1 (.inr ⟨⟨1999, -2, by decide, ?_⟩, by decide⟩), hlong, ?_⟩
  · rw [toRat]
    norm_num
  · intro hsurvives
    rcases (survives_bounds hlong).2 hsurvives with hword | hdigits | hexception
    · exact absurd hword (by decide)
    · exact absurd (natAbs_lt_of_hasDigits (by decide) hdigits) (by decide)
    · rw [toRat] at hexception
      norm_num at hexception

/-- The first integer beyond 64 bits with a sign is changed. -/
theorem stored_number_changes :
    (⟨9223372036854775808, 0⟩ : Decimal).Fits ∧
      Value.ofJson (Value.toJson (.number ⟨9223372036854775808, 0⟩)) = .number ⟨9223372036854776000, 0⟩ ∧
      ¬(⟨9223372036854775808, 0⟩ : Decimal).Survives := by
  have hread : Value.ofJson (Value.toJson (.number ⟨9223372036854775808, 0⟩)) =
      .number ⟨9223372036854776000, 0⟩ := by
    have hstored : (⟨9223372036854775808, 0⟩ : Decimal).normalize.toBinary? =
        some ⟨false, 2 ^ 52, 11⟩ := by decide +kernel
    have hread : ofBinary? ⟨false, 2 ^ 52, 11⟩ = some ⟨9223372036854776000, 0⟩ := by decide +kernel
    rw [toJson_of_not_isWord (by decide) hstored, Value.ofJson, hread]
  refine ⟨by decide, hread, ?_⟩
  rintro ⟨m, hm, hsame⟩
  rw [hread] at hm
  rw [← Value.number.inj hm] at hsame
  exact absurd hsame (by decide)

example : (toBinary? ⟨79228162514264337593543950330, 0⟩).bind ofBinary? =
    some ⟨79228162514264337593543950330, 0⟩ := by decide +kernel                         -- the exception
example : (toBinary? ⟨8850807168709143, 1⟩).bind ofBinary? = some ⟨8850807168709142, 1⟩ := by
  decide +kernel                                                                         -- 16 digits
example : (toBinary? ⟨70954882919, 23⟩).bind ofBinary? = some ⟨7095488291900001, 28⟩ := by
  decide +kernel                                                                         -- 23 places

end Tabletop.Decimal
