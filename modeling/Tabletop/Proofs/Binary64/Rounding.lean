import Mathlib.Algebra.Order.Field.Power
import Mathlib.Algebra.Order.Field.Rat
import Mathlib.Tactic.FieldSimp
import Mathlib.Tactic.Linarith
import Mathlib.Tactic.LinearCombination
import Mathlib.Tactic.Positivity
import Mathlib.Tactic.Ring
import Tabletop.Binary64.Shortest

/-
  What rounding to a binary number does.

  1. **The number** — `magnitude`, and the interval of the numbers that are rounded to it (`Covers`): its
     ends are half a last bit away, a quarter below where the bits are twice as fine.

  2. **Rounding** — the answer covers what was rounded (`ofRatio_covers`), has 53 bits or the smallest
     exponent (`WellFormed`), and exists for all but huge numbers (`exists_ofRatio`).  All that is known
     of the operations follows from that: each is one rounding of the exact result.
-/
namespace Tabletop.Decimal

/-- Rounding, in whole numbers: the doubled ratio is less than one away from the doubled answer, or
    exactly one away from an even one. -/
theorem roundRatio_bounds (num : Nat) {den : Nat} (hden : 0 < den) :
    (2 * (roundRatio num den * den) < 2 * num + den ∧
        2 * num < 2 * (roundRatio num den * den) + den) ∨
      (roundRatio num den % 2 = 0 ∧ 2 * (roundRatio num den * den) ≤ 2 * num + den ∧
        2 * num ≤ 2 * (roundRatio num den * den) + den) := by
  have hdivision : num / den * den + num % den = num := Nat.div_add_mod' num den
  have hrest : num % den < den := Nat.mod_lt num hden
  have hnext : (num / den + 1) * den = num / den * den + den := Nat.succ_mul _ _
  unfold roundRatio
  dsimp only
  -- the rest decides: below the middle, above it, or in the middle with either parity
  split
  · omega
  · split
    · omega
    · split <;> omega

/-- A ratio that is whole is not changed. -/
theorem roundRatio_one (n : Nat) : roundRatio n 1 = n := by
  unfold roundRatio
  dsimp only
  rw [Nat.div_one, Nat.mod_one]
  rfl

/-- **Rounding goes to a nearest integer**, and from the middle to an even one. -/
theorem roundRatio_nearest (num : Nat) {den : Nat} (hden : 0 < den) :
    ((roundRatio num den : ℚ) - 1 / 2 < num / den ∧ (num : ℚ) / den < roundRatio num den + 1 / 2) ∨
      (roundRatio num den % 2 = 0 ∧ (roundRatio num den : ℚ) - 1 / 2 ≤ num / den ∧
        (num : ℚ) / den ≤ roundRatio num den + 1 / 2) := by
  have hpos : (0 : ℚ) < den := Nat.cast_pos.2 hden
  rw [lt_div_iff₀ hpos, div_lt_iff₀ hpos, le_div_iff₀ hpos, div_le_iff₀ hpos]
  refine (roundRatio_bounds num hden).imp (fun h => ?_) fun h => ?_
  · obtain ⟨hlow, hhigh⟩ := h
    have hlow : 2 * ((roundRatio num den : ℚ) * den) < 2 * num + den := by exact_mod_cast hlow
    have hhigh : 2 * (num : ℚ) < 2 * (roundRatio num den * den) + den := by exact_mod_cast hhigh
    constructor <;> linarith
  · obtain ⟨heven, hlow, hhigh⟩ := h
    have hlow : 2 * ((roundRatio num den : ℚ) * den) ≤ 2 * num + den := by exact_mod_cast hlow
    have hhigh : 2 * (num : ℚ) ≤ 2 * (roundRatio num den * den) + den := by exact_mod_cast hhigh
    refine ⟨heven, ?_, ?_⟩ <;> linarith

end Tabletop.Decimal

namespace Tabletop.Binary64

open Decimal (roundRatio)

/-! ## The number -/

/-- The number without its sign. -/
def magnitude (x : Binary64) : ℚ := x.significand * 2 ^ x.exponent

/-- 53 bits, fewer only at the smallest exponent, and an exponent in its bounds. -/
structure WellFormed (x : Binary64) : Prop where
  significand_lt : x.significand < 2 ^ 53
  normal_or : 2 ^ 52 ≤ x.significand ∨ x.exponent = minExponent
  exponent_ge : minExponent ≤ x.exponent
  exponent_le : x.exponent ≤ maxExponent

/-- The lower end of the numbers that are rounded to `x`. -/
def low (x : Binary64) : ℚ := x.quarters.1 * 2 ^ (x.exponent - 2)

/-- The upper end. -/
def high (x : Binary64) : ℚ := x.quarters.2.2 * 2 ^ (x.exponent - 2)

/-- The numbers that are rounded to `x`: all between the ends, and the ends themselves if the
    significand is even. -/
def Covers (x : Binary64) (r : ℚ) : Prop :=
  (x.low < r ∧ r < x.high) ∨ (x.significand % 2 = 0 ∧ (r = x.low ∨ r = x.high))

/-- Units are positive. -/
theorem two_zpow_pos (q : Int) : (0 : ℚ) < 2 ^ q := zpow_pos two_pos q

/-- The ends of the interval are counted in quarters of the unit. -/
theorem two_zpow_sub_two (q : Int) : (2 : ℚ) ^ (q - 2) = 2 ^ q / 4 := by
  rw [zpow_sub₀ two_ne_zero]
  norm_num

/-- The upper end is half a unit above the number. -/
theorem high_eq (x : Binary64) : x.high = (x.significand + 1 / 2) * 2 ^ x.exponent := by
  rw [high, two_zpow_sub_two]
  show ((4 * x.significand + 2 : Nat) : ℚ) * _ = _
  push_cast
  ring

/-- The lower end is not above the number. -/
theorem low_le (x : Binary64) : x.low ≤ x.magnitude := by
  have hquarter : x.quarters.1 ≤ 4 * x.significand := Nat.sub_le _ _
  have hcast : (x.quarters.1 : ℚ) ≤ 4 * x.significand := by exact_mod_cast hquarter
  rw [low, magnitude, two_zpow_sub_two]
  nlinarith [two_zpow_pos x.exponent]

/-- The lower end is no further away than the upper end. -/
theorem half_bit_le_low (x : Binary64) : (x.significand - 1 / 2) * 2 ^ x.exponent ≤ x.low := by
  -- the end is two quarters below, or one
  have hquarter : 4 * x.significand ≤ x.quarters.1 + 2 := by
    unfold quarters
    dsimp only
    split <;> omega
  have hcast : 4 * (x.significand : ℚ) ≤ x.quarters.1 + 2 := by exact_mod_cast hquarter
  rw [low, two_zpow_sub_two]
  nlinarith [two_zpow_pos x.exponent]

/-- Where the bits below are twice as fine, the lower end is nearer. -/
theorem low_of_fine {x : Binary64} (h : x.significand = 2 ^ 52) (he : minExponent < x.exponent) :
    x.low = (2 ^ 52 - 1 / 4) * 2 ^ x.exponent := by
  -- one quarter below
  have hquarter : x.quarters.1 = 2 ^ 54 - 1 := by
    unfold quarters
    rw [h]
    simp [he]
  rw [low, hquarter, two_zpow_sub_two]
  norm_num
  ring

/-- Everywhere else the lower end is half a unit below the number. -/
theorem low_of_coarse {x : Binary64} (hx : 0 < x.significand)
    (h : ¬(x.significand = 2 ^ 52 ∧ minExponent < x.exponent)) :
    x.low = (x.significand - 1 / 2) * 2 ^ x.exponent := by
  -- two quarters below; the difference of natural numbers is not cut off, as there is a bit
  have hquarter : x.quarters.1 + 2 = 4 * x.significand := by
    unfold quarters
    dsimp only
    rw [if_neg (by simpa using h)]
    omega
  have hcast : (x.quarters.1 : ℚ) + 2 = 4 * x.significand := by exact_mod_cast hquarter
  rw [low, two_zpow_sub_two]
  linear_combination (2 ^ x.exponent / 4 : ℚ) * hcast

/-- The interval has its ends in order. -/
theorem low_le_high (x : Binary64) : x.low ≤ x.high := by
  rw [high_eq]
  refine le_trans x.low_le ?_
  rw [magnitude]
  nlinarith [two_zpow_pos x.exponent]

/-- What is rounded to a number is not below the lower end. -/
theorem Covers.low_le {x : Binary64} {r : ℚ} (h : x.Covers r) : x.low ≤ r := by
  rcases h with h | ⟨-, rfl | rfl⟩
  · exact h.1.le
  · exact le_rfl
  · exact x.low_le_high

/-- And it is not above the upper end. -/
theorem Covers.le_high {x : Binary64} {r : ℚ} (h : x.Covers r) : r ≤ x.high := by
  rcases h with h | ⟨-, rfl | rfl⟩
  · exact h.2.le
  · exact x.low_le_high
  · exact le_rfl

/-- A number with an even significand covers its ends as well. -/
theorem covers_of_even {x : Binary64} {r : ℚ} (heven : x.significand % 2 = 0) (hlow : x.low ≤ r)
    (hhigh : r ≤ x.high) : x.Covers r := by
  rcases hlow.eq_or_lt with h | h
  · exact .inr ⟨heven, .inl h.symm⟩
  · rcases hhigh.eq_or_lt with h' | h'
    · exact .inr ⟨heven, .inr h'⟩
    · exact .inl ⟨h, h'⟩

/-! ## Rounding -/

/-- The denominator stays positive. -/
theorem inUnits_pos (num : Nat) {den : Nat} (hden : 0 < den) (q : Int) : 0 < (inUnits num den q).2 := by
  unfold inUnits
  split
  · exact Nat.mul_pos hden (Nat.two_pow_pos _)
  · exact hden

/-- The units are exact. -/
theorem inUnits_eq (num den : Nat) (q : Int) :
    ((inUnits num den q).1 : ℚ) / (inUnits num den q).2 = num / den / 2 ^ q := by
  unfold inUnits
  split
  · -- a positive exponent goes to the denominator, a negative one to the numerator
    next hq =>
    obtain ⟨k, rfl⟩ := Int.eq_ofNat_of_zero_le hq
    rw [Int.toNat_natCast, zpow_natCast]
    push_cast
    rw [div_div]
  · next hq =>
    obtain ⟨k, hk⟩ := Int.eq_ofNat_of_zero_le (show 0 ≤ -q by omega)
    obtain rfl : q = -(k : Int) := by omega
    rw [Int.neg_neg, Int.toNat_natCast, zpow_neg, zpow_natCast]
    push_cast
    field_simp

/-- The length of a number bounds it from below. -/
theorem two_pow_log2_le {n : Nat} (hn : 0 < n) : (2 : ℚ) ^ (n.log2 : Int) ≤ n := by
  rw [zpow_natCast]
  exact_mod_cast Nat.log2_self_le (Nat.ne_of_gt hn)

/-- And from above. -/
theorem lt_two_pow_log2 (n : Nat) : (n : ℚ) < 2 ^ (n.log2 + 1 : Int) := by
  have h : n < 2 ^ (n.log2 + 1) := Nat.lt_log2_self
  rw [show (n.log2 + 1 : Int) = ((n.log2 + 1 : Nat) : Int) from rfl, zpow_natCast]
  exact_mod_cast h

/-- The exponent that the lengths of a numerator and a denominator suggest. -/
def estimate (num den : Nat) : Int := (num.log2 : Int) - (den.log2 : Int) - 53

/-- With the estimate a number has 53 bits at least. -/
theorem two_pow_mul_estimate_le {num den : Nat} (hnum : 0 < num) (hden : 0 < den) :
    (2 : ℚ) ^ 52 * 2 ^ estimate num den ≤ num / den := by
  have hscale : (2 : ℚ) ^ ((52 : Nat) + estimate num den : Int) * 2 ^ (den.log2 + 1 : Int) =
      2 ^ (num.log2 : Int) := by
    rw [← zpow_add₀ two_ne_zero, estimate]
    congr 1
    omega
  rw [le_div_iff₀ (Nat.cast_pos.2 hden), ← zpow_natCast, ← zpow_add₀ two_ne_zero]
  calc (2 : ℚ) ^ ((52 : Nat) + estimate num den : Int) * den
      ≤ 2 ^ ((52 : Nat) + estimate num den : Int) * 2 ^ (den.log2 + 1 : Int) :=
        mul_le_mul_of_nonneg_left (lt_two_pow_log2 den).le (two_zpow_pos _).le
    _ = 2 ^ (num.log2 : Int) := hscale
    _ ≤ num := two_pow_log2_le hnum

/-- And 54 bits at most, so that the estimate is one too small at most. -/
theorem lt_two_pow_mul_estimate (num : Nat) {den : Nat} (hden : 0 < den) :
    (num : ℚ) / den < 2 ^ 54 * 2 ^ estimate num den := by
  have hscale : (2 : ℚ) ^ ((54 : Nat) + estimate num den : Int) * 2 ^ (den.log2 : Int) =
      2 ^ (num.log2 + 1 : Int) := by
    rw [← zpow_add₀ two_ne_zero, estimate]
    congr 1
    omega
  rw [div_lt_iff₀ (Nat.cast_pos.2 hden), ← zpow_natCast, ← zpow_add₀ two_ne_zero]
  calc (num : ℚ) < 2 ^ (num.log2 + 1 : Int) := lt_two_pow_log2 num
    _ = 2 ^ ((54 : Nat) + estimate num den : Int) * 2 ^ (den.log2 : Int) := hscale.symm
    _ ≤ 2 ^ ((54 : Nat) + estimate num den : Int) * den :=
        mul_le_mul_of_nonneg_left (two_pow_log2_le hden) (two_zpow_pos _).le

/-- The exponent is the estimate or the next one, if this is not below the smallest exponent. -/
theorem exponentFor_eq (num : Nat) {den : Nat} (hden : 0 < den) :
    exponentFor num den =
      max (if (2 : ℚ) ^ 53 ≤ num / den / 2 ^ estimate num den then estimate num den + 1
        else estimate num den) minExponent := by
  have hpos := inUnits_pos num hden (estimate num den)
  have hcompare : 2 ^ 53 ≤ (inUnits num den (estimate num den)).1 / (inUnits num den (estimate num den)).2 ↔
      (2 : ℚ) ^ 53 ≤ num / den / 2 ^ estimate num den := by
    rw [← inUnits_eq, Nat.le_div_iff_mul_le hpos, le_div_iff₀ (Nat.cast_pos.2 hpos)]
    exact_mod_cast Iff.rfl
  unfold exponentFor
  dsimp only
  rw [← estimate]
  simp only [hcompare]

/-- **The exponent is chosen so that the number has 53 bits**, unless it is the smallest one. -/
theorem exponentFor_spec {num den : Nat} (hnum : 0 < num) (hden : 0 < den) :
    minExponent ≤ exponentFor num den ∧ (num : ℚ) / den / 2 ^ exponentFor num den < 2 ^ 53 ∧
      (2 ^ 52 ≤ (num : ℚ) / den / 2 ^ exponentFor num den ∨ exponentFor num den = minExponent) := by
  obtain ⟨r, hr⟩ : ∃ r : ℚ, r = num / den := ⟨_, rfl⟩
  obtain ⟨q, hq⟩ : ∃ q, q = estimate num den := ⟨_, rfl⟩
  have hlow := two_pow_mul_estimate_le hnum hden
  have hhigh := lt_two_pow_mul_estimate num hden
  rw [exponentFor_eq num hden, ← hr, ← hq]
  rw [← hr, ← hq] at hlow hhigh
  -- the exponent without the bound
  obtain ⟨p, hp⟩ : ∃ p, p = if 2 ^ 53 ≤ r / 2 ^ q then q + 1 else q := ⟨_, rfl⟩
  have hpq := two_zpow_pos q
  have hfull : 2 ^ 52 ≤ r / 2 ^ p ∧ r / 2 ^ p < 2 ^ 53 := by
    rw [hp]
    split
    · next h =>
      rw [zpow_add_one₀ two_ne_zero]
      rw [le_div_iff₀ hpq] at h
      rw [le_div_iff₀ (by positivity), div_lt_iff₀ (by positivity)]
      constructor <;> linarith
    · next h =>
      rw [not_le] at h
      exact ⟨(le_div_iff₀ hpq).2 hlow, h⟩
  rw [← hp]
  rcases le_total p minExponent with hle | hle
  · rw [max_eq_right hle]
    refine ⟨le_rfl, lt_of_le_of_lt ?_ hfull.2, .inr rfl⟩
    have hr0 : 0 ≤ r := by
      rw [hr]
      positivity
    exact div_le_div_of_nonneg_left hr0 (two_zpow_pos p) (zpow_le_zpow_right₀ one_le_two hle)
  · rw [max_eq_left hle]
    exact ⟨hle, hfull.2, .inl hfull.1⟩

/-- Rounding, with the two places where the exponent can be out of its bounds. -/
theorem ofRatio_eq (negative : Bool) {num : Nat} (den : Nat) (hnum : 0 < num) :
    ofRatio negative num den =
      (let q := exponentFor num den
       let m := roundRatio (inUnits num den q).1 (inUnits num den q).2
       if m = 2 ^ 53 then if q + 1 ≤ maxExponent then some ⟨negative, 2 ^ 52, q + 1⟩ else none
       else if q ≤ maxExponent then some ⟨negative, m, q⟩ else none) := by
  unfold ofRatio
  rw [if_neg (Nat.ne_of_gt hnum)]
  dsimp only
  split <;> rfl

/-- Zero has the smallest exponent. -/
theorem wellFormed_zero (negative : Bool) : (zero negative).WellFormed :=
  ⟨by show 0 < 2 ^ 53; decide, .inr rfl, le_rfl, by show minExponent ≤ maxExponent; decide⟩

/-- A significand of zero stands for zero, whatever the exponent is. -/
theorem magnitude_of_isZero {x : Binary64} (h : x.isZero = true) : x.magnitude = 0 := by
  rw [magnitude, beq_iff_eq.1 h, Nat.cast_zero, zero_mul]

/-- Zero is rounded to zero. -/
theorem covers_zero (negative : Bool) : (zero negative).Covers 0 := by
  refine .inr ⟨rfl, .inl ?_⟩
  show (0 : ℚ) = ((0 : Nat) : ℚ) * _
  rw [Nat.cast_zero, zero_mul]

/-- The significand that rounding finds covers the ratio, in units of the exponent. -/
theorem covers_of_nearest {x : Binary64} {y : ℚ} (hy : 0 < y)
    (hnormal : 2 ^ 52 ≤ y ∨ x.exponent = minExponent)
    (hnear : ((x.significand : ℚ) - 1 / 2 < y ∧ y < x.significand + 1 / 2) ∨
      (x.significand % 2 = 0 ∧ (x.significand : ℚ) - 1 / 2 ≤ y ∧ y ≤ x.significand + 1 / 2)) :
    x.Covers (y * 2 ^ x.exponent) := by
  have hunit := two_zpow_pos x.exponent
  -- at both special places the number is not below the significand
  have hlow : x.low < y * 2 ^ x.exponent ∨ x.low = (x.significand - 1 / 2) * 2 ^ x.exponent := by
    rcases Nat.eq_zero_or_pos x.significand with hzero | hpos
    · left
      have hquarter : x.quarters.1 = 0 := by
        unfold quarters
        rw [hzero]
        rfl
      rw [low, hquarter, Nat.cast_zero, zero_mul]
      positivity
    · by_cases hfine : x.significand = 2 ^ 52 ∧ minExponent < x.exponent
      · left
        have hfull : 2 ^ 52 ≤ y := hnormal.resolve_right (ne_of_gt hfine.2)
        rw [low_of_fine hfine.1 hfine.2]
        exact mul_lt_mul_of_pos_right (by linarith) hunit
      · exact .inr (low_of_coarse hpos hfine)
  rcases hnear with ⟨hbelow, habove⟩ | ⟨heven, hbelow, habove⟩
  · refine .inl ⟨?_, ?_⟩
    · rcases hlow with hlow | hlow
      · exact hlow
      · rw [hlow]
        exact mul_lt_mul_of_pos_right hbelow hunit
    · rw [high_eq]
      exact mul_lt_mul_of_pos_right habove hunit
  · refine covers_of_even heven ?_ ?_
    · rcases hlow with hlow | hlow
      · exact hlow.le
      · rw [hlow]
        exact mul_le_mul_of_nonneg_right hbelow hunit.le
    · rw [high_eq]
      exact mul_le_mul_of_nonneg_right habove hunit.le

/-- Rounding carries into a 54th bit: the significand is `2 ^ 52` with the next exponent, and as it is
    even the ends count. -/
theorem spec_of_carry (negative : Bool) {q : Int} {y : ℚ} (hmin : minExponent ≤ q)
    (hmax : q + 1 ≤ maxExponent) (hnear : 2 ^ 53 - 1 / 2 ≤ y ∧ y ≤ 2 ^ 53 + 1 / 2) :
    (⟨negative, 2 ^ 52, q + 1⟩ : Binary64).WellFormed ∧
      (⟨negative, 2 ^ 52, q + 1⟩ : Binary64).Covers (y * 2 ^ q) := by
  have hfine : minExponent < q + 1 := by omega
  have hunit := two_zpow_pos q
  refine ⟨⟨by show 2 ^ 52 < 2 ^ 53; decide, .inl (Nat.le_refl _), hfine.le, hmax⟩, ?_⟩
  refine covers_of_even (by show 2 ^ 52 % 2 = 0; decide) ?_ ?_
  · rw [low_of_fine rfl hfine]
    show (2 ^ 52 - 1 / 4 : ℚ) * 2 ^ (q + 1) ≤ _
    rw [zpow_add_one₀ two_ne_zero]
    nlinarith
  · rw [high_eq]
    show _ ≤ (((2 ^ 52 : Nat) : ℚ) + 1 / 2) * 2 ^ (q + 1)
    rw [zpow_add_one₀ two_ne_zero]
    push_cast
    nlinarith

/-- **Rounding answers a number that covers what was rounded.** -/
theorem ofRatio_spec {negative : Bool} {num den : Nat} {x : Binary64} (hden : 0 < den)
    (h : ofRatio negative num den = some x) :
    x.negative = negative ∧ x.WellFormed ∧ x.Covers (num / den) := by
  rcases Nat.eq_zero_or_pos num with rfl | hnum
  · rw [ofRatio, if_pos rfl] at h
    cases h
    rw [Nat.cast_zero, zero_div]
    exact ⟨rfl, wellFormed_zero negative, covers_zero negative⟩
  · obtain ⟨q, hq⟩ : ∃ q, q = exponentFor num den := ⟨_, rfl⟩
    obtain ⟨m, hm⟩ : ∃ m, m = roundRatio (inUnits num den q).1 (inUnits num den q).2 := ⟨_, rfl⟩
    obtain ⟨hmin, hlt, hfull⟩ := exponentFor_spec hnum hden
    have hnear := Decimal.roundRatio_nearest (inUnits num den q).1 (inUnits_pos num hden q)
    rw [← hm, inUnits_eq] at hnear
    rw [ofRatio_eq negative den hnum] at h
    dsimp only at h
    rw [← hq] at h hmin hlt hfull
    rw [← hm] at h
    have hunit := two_zpow_pos q
    -- `y` is the ratio in units of the exponent
    obtain ⟨y, hy⟩ : ∃ y : ℚ, y = num / den / 2 ^ q := ⟨_, rfl⟩
    have hratio : (num : ℚ) / den = y * 2 ^ q := by
      rw [hy, div_mul_cancel₀ _ hunit.ne']
    have hpos : 0 < y := by
      rw [hy]
      positivity
    rw [← hy] at hnear hlt hfull
    rw [hratio]
    have hnearly : (m : ℚ) - 1 / 2 ≤ y ∧ y ≤ m + 1 / 2 := by
      rcases hnear with h | h
      · exact ⟨h.1.le, h.2.le⟩
      · exact h.2
    split at h
    · next hcarry =>
      split at h
      · next hmax =>
        cases h
        have hcarry' : (m : ℚ) = 2 ^ 53 := by rw [hcarry]; norm_num
        rw [hcarry'] at hnearly
        exact ⟨rfl, spec_of_carry negative hmin hmax hnearly⟩
      · cases h
    · -- no carry: the significand is the answer of `roundRatio`, and it covers by
      -- `covers_of_nearest`
      next hcarry =>
      split at h
      · next hmax =>
        cases h
        have hbound : (m : ℚ) < 2 ^ 53 + 1 := by linarith
        have hm53 : m < 2 ^ 53 + 1 := by exact_mod_cast hbound
        refine ⟨rfl, ⟨by show m < 2 ^ 53; omega, hfull.imp_left fun hfull => ?_, hmin, hmax⟩,
          covers_of_nearest (x := ⟨negative, m, q⟩) hpos hfull hnear⟩
        have hleast : (2 : ℚ) ^ 52 < m + 1 := by linarith
        have hleast : 2 ^ 52 < m + 1 := by exact_mod_cast hleast
        exact Nat.le_of_lt_succ hleast
      · cases h

/-- There is a number unless the ratio is huge. -/
theorem exists_ofRatio (negative : Bool) {num den : Nat} (hden : 0 < den)
    (h : (num : ℚ) / den < 2 ^ (1023 : Int)) : ∃ x, ofRatio negative num den = some x := by
  rcases Nat.eq_zero_or_pos num with rfl | hnum
  · exact ⟨zero negative, if_pos rfl⟩
  · obtain ⟨-, -, hfull⟩ := exponentFor_spec hnum hden
    -- 53 bits in front of an exponent that is too large would be a huge number
    have hexponent : exponentFor num den + 1 ≤ maxExponent := by
      rcases hfull with hfull | hmin
      · rw [le_div_iff₀ (two_zpow_pos _), ← zpow_natCast, ← zpow_add₀ two_ne_zero] at hfull
        have hlt := (zpow_lt_zpow_iff_right₀ one_lt_two).1 (lt_of_le_of_lt hfull h)
        unfold maxExponent
        omega
      · rw [hmin]
        decide
    have hexponent' : exponentFor num den ≤ maxExponent := by omega
    rw [ofRatio_eq negative den hnum]
    dsimp only
    rw [if_pos hexponent, if_pos hexponent']
    split
    · exact ⟨_, rfl⟩
    · exact ⟨_, rfl⟩

/-! ## The error -/

variable {x y z : Binary64} {r : ℚ}

/-- Without its sign a number is not negative. -/
theorem magnitude_nonneg (x : Binary64) : 0 ≤ x.magnitude := by
  rw [magnitude]
  positivity

/-- Rounding at most doubles a number. -/
theorem Covers.magnitude_le (h : x.Covers r) : x.magnitude ≤ 2 * r := by
  have hlow := le_trans x.half_bit_le_low h.low_le
  have hunit := two_zpow_pos x.exponent
  rw [magnitude]
  rcases Nat.eq_zero_or_pos x.significand with hzero | hpos
  · have hr : x.low ≤ r := h.low_le
    have hlow0 : 0 ≤ x.low := by
      rw [low]
      positivity
    rw [hzero, Nat.cast_zero, zero_mul]
    linarith
  · have hone : (1 : ℚ) ≤ x.significand := by exact_mod_cast hpos
    nlinarith

/-- Numbers that are not tiny keep 53 bits. -/
theorem Covers.normal (hx : x.WellFormed) (h : x.Covers r) (hr : 2 ^ (-1022 : Int) ≤ r) :
    2 ^ 52 ≤ x.significand := by
  by_contra hsmall
  have hexponent : x.exponent = minExponent := hx.normal_or.resolve_left hsmall
  have hsignificand : (x.significand : ℚ) + 1 ≤ 2 ^ 52 := by exact_mod_cast Nat.lt_of_not_le hsmall
  -- with fewer bits the upper end would be below the least number that has 53
  have hhigh := le_trans hr h.le_high
  have hscale : (2 : ℚ) ^ (-1022 : Int) = 2 ^ 52 * 2 ^ minExponent := by
    rw [← zpow_natCast, ← zpow_add₀ two_ne_zero]
    rfl
  rw [high_eq, hexponent, hscale] at hhigh
  have := le_of_mul_le_mul_right hhigh (two_zpow_pos minExponent)
  linarith

/-- What decimals have to do with is far from tiny. -/
theorem not_tiny (h : 1 / 10 ^ 30 ≤ r) : 2 ^ (-1022 : Int) ≤ r := by
  have hpower : (2 : ℚ) ^ (-1022 : Int) ≤ 2 ^ (-100 : Int) :=
    zpow_le_zpow_right₀ one_le_two (by decide)
  refine le_trans hpower (le_trans ?_ h)
  norm_num

/-- **The relative error of rounding** is at most `2 ^ -53`. -/
theorem Covers.error (h : x.Covers r) (hx : 2 ^ 52 ≤ x.significand) :
    x.magnitude * (1 - 1 / 2 ^ 53) ≤ r ∧ r ≤ x.magnitude * (1 + 1 / 2 ^ 53) := by
  have hsignificand : (2 : ℚ) ^ 52 ≤ x.significand := by exact_mod_cast hx
  have hlow := le_trans x.half_bit_le_low h.low_le
  have hhigh := h.le_high
  have hunit := two_zpow_pos x.exponent
  have hhalf : 1 / 2 ≤ (x.significand : ℚ) * (1 / 2 ^ 53) := by linarith
  rw [high_eq] at hhigh
  rw [magnitude]
  constructor
  · nlinarith
  · nlinarith

/-! ## The operations -/

/-- A number is a ratio with a positive denominator. -/
theorem ratio_pos (x : Binary64) : 0 < x.ratio.2 := by
  unfold ratio
  split
  · exact Nat.one_pos
  · exact Nat.two_pow_pos _

/-- And this ratio is the number. -/
theorem ratio_eq (x : Binary64) : (x.ratio.1 : ℚ) / x.ratio.2 = x.magnitude := by
  unfold ratio magnitude
  split
  · next hq =>
    obtain ⟨k, hk⟩ := Int.eq_ofNat_of_zero_le hq
    rw [hk, Int.toNat_natCast, zpow_natCast]
    push_cast
    rw [div_one]
  · next hq =>
    obtain ⟨k, hk⟩ := Int.eq_ofNat_of_zero_le (show 0 ≤ -x.exponent by omega)
    rw [hk, Int.toNat_natCast, show x.exponent = -(k : Int) by omega, zpow_neg, zpow_natCast]
    push_cast
    rw [div_eq_mul_inv]

/-- A number that rounding answers, and how large it is at most. -/
structure Rounded (x : Binary64) (r : ℚ) (k : Int) : Prop where
  wellFormed : x.WellFormed
  covers : x.Covers r
  le : x.magnitude ≤ 2 ^ (k + 1)

/-- A ratio that is not huge is rounded, and at most doubled. -/
theorem exists_ofRatio_le (negative : Bool) {num den : Nat} (hden : 0 < den) {k : Int} (hk : k < 1023)
    (h : (num : ℚ) / den ≤ 2 ^ k) :
    ∃ x, ofRatio negative num den = some x ∧ x.Rounded (num / den) k := by
  obtain ⟨x, hx⟩ := exists_ofRatio negative hden
    (lt_of_le_of_lt h (zpow_lt_zpow_right₀ one_lt_two hk))
  obtain ⟨-, hwell, hcovers⟩ := ofRatio_spec hden hx
  refine ⟨x, hx, hwell, hcovers, ?_⟩
  rw [zpow_add_one₀ two_ne_zero]
  linarith [hcovers.magnitude_le]

/-- Whole numbers that are not huge are rounded. -/
theorem exists_ofNat {n : Nat} {k : Int} (hk : k < 1023) (h : (n : ℚ) ≤ 2 ^ k) :
    ∃ x, ofNat n = some x ∧ x.Rounded n k := by
  have hratio : (n : ℚ) / (1 : Nat) = n := by rw [Nat.cast_one, div_one]
  obtain ⟨x, hx, hrounded⟩ := exists_ofRatio_le false Nat.one_pos hk (hratio.trans_le h)
  exact ⟨x, hx, hratio ▸ hrounded⟩

/-- A product is rounded, if it is not huge. -/
theorem exists_mul {k : Int} (hk : k < 1023) (h : x.magnitude * y.magnitude ≤ 2 ^ k) :
    ∃ z, x.mul y = some z ∧ z.Rounded (x.magnitude * y.magnitude) k := by
  have hratio : ((x.ratio.1 * y.ratio.1 : Nat) : ℚ) / (x.ratio.2 * y.ratio.2 : Nat) =
      x.magnitude * y.magnitude := by
    rw [← ratio_eq, ← ratio_eq]
    push_cast
    rw [div_mul_div_comm]
  obtain ⟨z, hz, hrounded⟩ := exists_ofRatio_le (x.negative != y.negative)
    (Nat.mul_pos x.ratio_pos y.ratio_pos) hk (hratio.trans_le h)
  exact ⟨z, hz, hratio ▸ hrounded⟩

/-- A sum of magnitudes is rounded, if it is not huge. -/
theorem exists_addMagnitudes {k : Int} (hk : k < 1023) (h : x.magnitude + y.magnitude ≤ 2 ^ k) :
    ∃ z, x.addMagnitudes y = some z ∧ z.Rounded (x.magnitude + y.magnitude) k := by
  have hratio : ((x.ratio.1 * y.ratio.2 + y.ratio.1 * x.ratio.2 : Nat) : ℚ) /
      (x.ratio.2 * y.ratio.2 : Nat) = x.magnitude + y.magnitude := by
    have hx : (x.ratio.2 : ℚ) ≠ 0 := Nat.cast_ne_zero.2 (Nat.ne_of_gt x.ratio_pos)
    have hy : (y.ratio.2 : ℚ) ≠ 0 := Nat.cast_ne_zero.2 (Nat.ne_of_gt y.ratio_pos)
    rw [← ratio_eq, ← ratio_eq, div_add_div _ _ hx hy]
    push_cast
    rw [mul_comm (x.ratio.2 : ℚ) y.ratio.1]
  obtain ⟨z, hz, hrounded⟩ := exists_ofRatio_le false (Nat.mul_pos x.ratio_pos y.ratio_pos) hk
    (hratio.trans_le h)
  exact ⟨z, hz, hratio ▸ hrounded⟩

/-- A quotient is rounded, if it is not huge. -/
theorem exists_div (hy : 0 < y.magnitude) {k : Int} (hk : k < 1023)
    (h : x.magnitude / y.magnitude ≤ 2 ^ k) :
    ∃ z, x.div y = some z ∧ z.Rounded (x.magnitude / y.magnitude) k := by
  -- a number that is not zero has a numerator that is not zero
  have hpos : 0 < y.ratio.1 := by
    rw [← ratio_eq] at hy
    by_contra hzero
    rw [Nat.eq_zero_of_not_pos hzero, Nat.cast_zero, zero_div] at hy
    exact lt_irrefl _ hy
  have hratio : ((x.ratio.1 * y.ratio.2 : Nat) : ℚ) / (x.ratio.2 * y.ratio.1 : Nat) =
      x.magnitude / y.magnitude := by
    rw [← ratio_eq, ← ratio_eq]
    push_cast
    rw [div_div_div_eq]
  obtain ⟨z, hz, hrounded⟩ := exists_ofRatio_le (x.negative != y.negative)
    (Nat.mul_pos x.ratio_pos hpos) hk (hratio.trans_le h)
  exact ⟨z, hz, hratio ▸ hrounded⟩

/-- **Whole numbers of 53 bits are exact.** -/
theorem ofNat_exact {n : Nat} (hn : n < 2 ^ 53) :
    ∃ x, ofNat n = some x ∧ x.WellFormed ∧ x.magnitude = n := by
  rcases Nat.eq_zero_or_pos n with rfl | hpos
  · refine ⟨zero false, by rw [ofNat, ofRatio, if_pos rfl], wellFormed_zero false, ?_⟩
    rw [magnitude_of_isZero rfl, Nat.cast_zero]
  · obtain ⟨q, hq⟩ : ∃ q, q = exponentFor n 1 := ⟨_, rfl⟩
    obtain ⟨hmin, hlt, hfull⟩ := exponentFor_spec hpos Nat.one_pos
    rw [← hq] at hmin
    rw [← hq, Nat.cast_one, div_one] at hlt hfull
    -- a number below `2 ^ 53` needs no positive exponent, so there is nothing to round
    have hq0 : q ≤ 0 := by
      rcases hfull with hfull | hfull
      · rw [le_div_iff₀ (two_zpow_pos _), ← zpow_natCast, ← zpow_add₀ two_ne_zero] at hfull
        have hn : (n : ℚ) < 2 ^ (53 : Int) := by exact_mod_cast hn
        have := (zpow_lt_zpow_iff_right₀ one_lt_two).1 (lt_of_le_of_lt hfull hn)
        omega
      · rw [hfull]
        decide
    obtain ⟨k, rfl⟩ : ∃ k : Nat, q = -(k : Int) := ⟨(-q).toNat, by omega⟩
    -- in units of `2 ^ -k` the number is whole
    have hunits : inUnits n 1 (-(k : Int)) = (n * 2 ^ k, 1) := by
      unfold inUnits
      split
      · next h =>
        obtain rfl : k = 0 := by omega
        simp
      · rw [Int.neg_neg, Int.toNat_natCast]
    rw [zpow_neg, zpow_natCast, div_inv_eq_mul] at hlt
    have hlt : n * 2 ^ k < 2 ^ 53 := by exact_mod_cast hlt
    have hround : ofNat n = some ⟨false, n * 2 ^ k, -(k : Int)⟩ := by
      have hmax : -(k : Int) ≤ maxExponent := by
        unfold maxExponent
        omega
      rw [ofNat, ofRatio_eq false 1 hpos]
      dsimp only
      rw [← hq, hunits, Decimal.roundRatio_one, if_neg (Nat.ne_of_lt hlt), if_pos hmax]
    refine ⟨_, hround, (ofRatio_spec Nat.one_pos hround).2.1, ?_⟩
    show ((n * 2 ^ k : Nat) : ℚ) * 2 ^ (-(k : Int)) = n
    rw [zpow_neg, zpow_natCast]
    push_cast
    field_simp

/-- The nearest whole number is the one that is half a unit away at most. -/
theorem roundMagnitude_eq {n : Nat} (hlow : (n : ℚ) - 1 / 2 ≤ x.magnitude)
    (hhigh : x.magnitude < n + 1 / 2) : x.roundMagnitude = n := by
  have hden : (0 : ℚ) < x.ratio.2 := Nat.cast_pos.2 x.ratio_pos
  rw [← ratio_eq, le_div_iff₀ hden] at hlow
  rw [← ratio_eq, div_lt_iff₀ hden] at hhigh
  -- the same bounds without the division
  have hlow : (2 * n * x.ratio.2 : ℚ) ≤ 2 * x.ratio.1 + x.ratio.2 := by linarith
  have hhigh : (2 * x.ratio.1 + x.ratio.2 : ℚ) < 2 * n * x.ratio.2 + 2 * x.ratio.2 := by linarith
  have hlow : 2 * n * x.ratio.2 ≤ 2 * x.ratio.1 + x.ratio.2 := by exact_mod_cast hlow
  have hhigh : 2 * x.ratio.1 + x.ratio.2 < 2 * n * x.ratio.2 + 2 * x.ratio.2 := by
    exact_mod_cast hhigh
  refine Nat.div_eq_of_lt_le ?_ ?_
  · nlinarith
  · nlinarith

/-- It is half a unit above the number at most. -/
theorem roundMagnitude_le (x : Binary64) : (x.roundMagnitude : ℚ) ≤ x.magnitude + 1 / 2 := by
  have hden : (0 : ℚ) < x.ratio.2 := Nat.cast_pos.2 x.ratio_pos
  have h : x.roundMagnitude * (2 * x.ratio.2) ≤ 2 * x.ratio.1 + x.ratio.2 := Nat.div_mul_le_self _ _
  have h : (x.roundMagnitude : ℚ) * (2 * x.ratio.2) ≤ 2 * x.ratio.1 + x.ratio.2 := by exact_mod_cast h
  rw [← ratio_eq, div_add_div _ _ hden.ne' two_ne_zero, le_div_iff₀ (by positivity)]
  linarith

end Tabletop.Binary64
