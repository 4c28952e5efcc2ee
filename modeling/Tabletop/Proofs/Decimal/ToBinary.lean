import Tabletop.Proofs.Decimal.Shown

/-
  Which binary number stands for a decimal.

  1. **There is always one** (`exists_toBinary?`).  Without places it is the nearest one.

  2. **Few digits** — with 15 digits and 22 places the power of ten, the whole part and the places are
     exact.  The errors of the operations stay below half a unit of the last place, so rounding back finds
     the digits, and the last division is the only rounding (`exists_toBinary?_of_few_digits`).

  3. **Back again** — a decimal of 15 digits is the shortest one of its binary number
     (`ofBinary?_of_few_digits`).
-/
namespace Tabletop.Decimal

open Binary64 (two_zpow_pos ten_zpow_pos)

variable {n : Decimal} {r : ℚ}

/-! ## The sign -/

/-- A sign changes no bits. -/
theorem wellFormed_withSign {x : Binary64} (negative : Bool) (h : x.WellFormed) :
    (x.withSign negative).WellFormed :=
  ⟨h.significand_lt, h.normal_or, h.exponent_ge, h.exponent_le⟩

/-- And no magnitude. -/
theorem covers_withSign {x : Binary64} (negative : Bool) (h : x.Covers r) :
    (x.withSign negative).Covers r := h

/-- A number by its sign, its digits and its places. -/
theorem toRat_eq_signed (n : Decimal) :
    n.toRat = signed (decide (n.coefficient < 0)) (n.coefficient.natAbs / 10 ^ n.scale) := by
  have hcast : ((n.coefficient.natAbs : Int) : ℚ) = (n.coefficient.natAbs : ℚ) := Int.cast_natCast _
  rw [toRat, signed, ← hcast]
  by_cases hneg : n.coefficient < 0
  · rw [if_pos (decide_eq_true hneg), Int.natCast_natAbs, abs_of_neg hneg]
    push_cast
    rw [neg_div, neg_neg]
  · rw [if_neg (by rw [decide_eq_true_eq]; exact hneg), Int.natCast_natAbs, abs_of_nonneg (not_lt.1 hneg)]

/-! ## There is always one -/

/-- Without places the coefficient is rounded. -/
theorem toBinary?_of_scale_zero {x : Binary64} (hscale : n.scale = 0)
    (h : Binary64.ofNat n.coefficient.natAbs = some x) :
    n.toBinary? = some (x.withSign (decide (n.coefficient < 0))) := by
  unfold toBinary?
  dsimp only
  rw [if_pos hscale, h]
  rfl

/-- The steps of the conversion, up to the fraction. -/
structure Parts (n : Decimal) (whole part unit fraction : Binary64) : Prop where
  scale_ne : n.scale ≠ 0
  whole_eq : Binary64.ofNat (n.coefficient.natAbs / 10 ^ n.scale) = some whole
  part_eq : Binary64.ofNat (n.coefficient.natAbs % 10 ^ n.scale) = some part
  unit_eq : Binary64.ofNat (10 ^ n.scale) = some unit
  fraction_eq : part.div unit = some fraction

/-- If nothing is left behind the point, the whole part is the number. -/
theorem Parts.toBinary?_of_isZero {whole part unit fraction : Binary64}
    (h : n.Parts whole part unit fraction) (hzero : fraction.isZero = true) :
    n.toBinary? = some (whole.withSign (decide (n.coefficient < 0))) := by
  unfold toBinary?
  dsimp only
  rw [if_neg h.scale_ne, h.whole_eq, h.part_eq, h.unit_eq]
  dsimp only [bind, Option.bind]
  rw [h.fraction_eq]
  dsimp only
  rw [if_pos hzero]
  rfl

/-- Else the two parts are added, and the sum is rounded to its places: one step after the other. -/
theorem Parts.toBinary?_of_steps {whole part unit fraction sum power product rounded quotient : Binary64}
    (h : n.Parts whole part unit fraction) (hzero : fraction.isZero = false)
    (hsum : whole.addMagnitudes fraction = some sum) (hpower : roundedPower n.scale = some power)
    (hproduct : sum.mul power = some product)
    (hrounded : Binary64.ofNat product.roundMagnitude = some rounded)
    (hquotient : rounded.div power = some quotient) :
    n.toBinary? = some (quotient.withSign (decide (n.coefficient < 0))) := by
  unfold toBinary?
  dsimp only
  rw [if_neg h.scale_ne, h.whole_eq, h.part_eq, h.unit_eq]
  dsimp only [bind, Option.bind]
  rw [h.fraction_eq]
  dsimp only
  rw [hzero, if_neg Bool.false_ne_true, hsum]
  dsimp only
  rw [hpower]
  dsimp only
  rw [hproduct]
  dsimp only
  rw [hrounded]
  dsimp only
  rw [hquotient]
  rfl

/-- The power that the conversion multiplies with and divides by is neither small nor huge. -/
theorem exists_roundedPower {scale : Nat} (h : scale ≤ maxScale) :
    ∃ x, roundedPower scale = some x ∧ 1 ≤ x.magnitude ∧ x.magnitude ≤ 2 ^ (94 : Int) := by
  have hall : ((List.range 29).all fun s => (roundedPower s).any fun x =>
      x.ratio.2 ≤ x.ratio.1 && x.ratio.1 ≤ 2 ^ 94 * x.ratio.2) = true := by decide +kernel
  have hscale := List.all_eq_true.1 hall scale (List.mem_range.2 (Nat.lt_succ_of_le h))
  obtain ⟨x, hx, hbounds⟩ := (Option.any_eq_true _ _).1 hscale
  rw [Bool.and_eq_true, decide_eq_true_eq, decide_eq_true_eq] at hbounds
  have hpos : (0 : ℚ) < x.ratio.2 := Nat.cast_pos.2 x.ratio_pos
  refine ⟨x, hx, ?_, ?_⟩
  · rw [← Binary64.ratio_eq, one_le_div hpos]
    exact_mod_cast hbounds.1
  · rw [← Binary64.ratio_eq, div_le_iff₀ hpos]
    exact_mod_cast hbounds.2

/-- Up to 22 places the power is exact. -/
theorem exists_roundedPower_exact {scale : Nat} (h : scale ≤ 22) :
    ∃ x y, roundedPower scale = some x ∧ Binary64.ofNat (10 ^ scale) = some y ∧
      x.magnitude = 10 ^ scale ∧ y.magnitude = 10 ^ scale := by
  -- there are 23 powers, and each is checked
  have hall : ((List.range 23).all fun s =>
      ((roundedPower s).any fun x => x.ratio.1 == 10 ^ s * x.ratio.2) &&
        (Binary64.ofNat (10 ^ s)).any fun y => y.ratio.1 == 10 ^ s * y.ratio.2) = true := by
    decide +kernel
  have hscale := List.all_eq_true.1 hall scale (List.mem_range.2 (Nat.lt_succ_of_le h))
  rw [Bool.and_eq_true] at hscale
  have hexact {x : Binary64} (hx : (x.ratio.1 == 10 ^ scale * x.ratio.2) = true) :
      x.magnitude = 10 ^ scale := by
    have hpos : (0 : ℚ) < x.ratio.2 := Nat.cast_pos.2 x.ratio_pos
    rw [← Binary64.ratio_eq, div_eq_iff hpos.ne', beq_iff_eq.1 hx]
    push_cast
    rfl
  obtain ⟨x, hx, hxexact⟩ := (Option.any_eq_true _ _).1 hscale.1
  obtain ⟨y, hy, hyexact⟩ := (Option.any_eq_true _ _).1 hscale.2
  exact ⟨x, y, hx, hy, hexact hxexact, hexact hyexact⟩

/-- The whole part and the fraction are no larger than the coefficient, up to a few bits. -/
theorem exists_parts (h : n.Fits) (hscale : n.scale ≠ 0) :
    ∃ whole part unit fraction, n.Parts whole part unit fraction ∧ whole.WellFormed ∧
      whole.magnitude ≤ 2 ^ (97 : Int) ∧ fraction.magnitude ≤ 2 ^ (99 : Int) := by
  have hbound {m : Nat} (hm : m ≤ n.coefficient.natAbs) : (m : ℚ) ≤ 2 ^ (96 : Int) := by
    have hle : m ≤ 2 ^ 96 := le_trans hm (Nat.le_of_lt h.1)
    exact_mod_cast hle
  obtain ⟨whole, hwhole, hwhole'⟩ := Binary64.exists_ofNat (k := 96) (by decide)
    (hbound (Nat.div_le_self n.coefficient.natAbs (10 ^ n.scale)))
  obtain ⟨part, hpart, hpart'⟩ := Binary64.exists_ofNat (k := 96) (by decide)
    (hbound (Nat.mod_le n.coefficient.natAbs (10 ^ n.scale)))
  have hunitle : ((10 ^ n.scale : Nat) : ℚ) ≤ 2 ^ (94 : Int) := by
    have hle : 10 ^ n.scale ≤ 2 ^ 94 := le_trans (Nat.pow_le_pow_right (by decide) h.2) (by decide)
    exact_mod_cast hle
  obtain ⟨unit, hunit, hunit'⟩ := Binary64.exists_ofNat (k := 94) (by decide) hunitle
  -- dividing by the unit does not enlarge much
  have hunitge : 1 / 2 ≤ unit.magnitude := by
    have hone : (1 : ℚ) ≤ (10 ^ n.scale : Nat) := by exact_mod_cast Nat.pow_pos (by decide)
    have hnormal := hunit'.covers.normal hunit'.wellFormed
      (Binary64.not_tiny (le_trans (by norm_num) hone))
    have herror := (hunit'.covers.error hnormal).2
    linarith
  have hfractionle : part.magnitude / unit.magnitude ≤ 2 ^ (98 : Int) := by
    rw [div_le_iff₀ (by linarith)]
    have hle := hpart'.le
    norm_num at hle ⊢
    linarith
  obtain ⟨fraction, hfraction, hfraction'⟩ := Binary64.exists_div (by linarith) (by decide) hfractionle
  exact ⟨whole, part, unit, fraction, ⟨hscale, hwhole, hpart, hunit, hfraction⟩, hwhole'.wellFormed,
    hwhole'.le, hfraction'.le⟩

/-- **Every number of the language has a binary number.** -/
theorem exists_toBinary? (h : n.Fits) : ∃ x, n.toBinary? = some x ∧ x.WellFormed := by
  by_cases hscale : n.scale = 0
  · have hle : (n.coefficient.natAbs : ℚ) ≤ 2 ^ (96 : Int) := by exact_mod_cast Nat.le_of_lt h.1
    obtain ⟨x, hx, hrounded⟩ := Binary64.exists_ofNat (by decide) hle
    exact ⟨_, toBinary?_of_scale_zero hscale hx, wellFormed_withSign _ hrounded.wellFormed⟩
  obtain ⟨whole, part, unit, fraction, hparts, hwell, hwhole, hfraction⟩ := exists_parts h hscale
  cases hzero : fraction.isZero with
  | true => exact ⟨_, hparts.toBinary?_of_isZero hzero, wellFormed_withSign _ hwell⟩
  | false =>
    -- each step adds a bit at most
    have hsumle : whole.magnitude + fraction.magnitude ≤ 2 ^ (100 : Int) := by
      norm_num at hwhole hfraction ⊢
      linarith
    obtain ⟨sum, hsum, hsum'⟩ := Binary64.exists_addMagnitudes (by decide) hsumle
    obtain ⟨power, hpower, hpowerge, hpowerle⟩ := exists_roundedPower h.2
    have hproductle : sum.magnitude * power.magnitude ≤ 2 ^ (195 : Int) := by
      calc sum.magnitude * power.magnitude ≤ 2 ^ (101 : Int) * 2 ^ (94 : Int) :=
            mul_le_mul hsum'.le hpowerle (by linarith) (by positivity)
        _ = 2 ^ (195 : Int) := by norm_num
    obtain ⟨product, hproduct, hproduct'⟩ := Binary64.exists_mul (by decide) hproductle
    have hroundedle : (product.roundMagnitude : ℚ) ≤ 2 ^ (197 : Int) := by
      refine le_trans product.roundMagnitude_le (le_trans (add_le_add_left hproduct'.le _) ?_)
      norm_num
    obtain ⟨rounded, hrounded, hrounded'⟩ := Binary64.exists_ofNat (by decide) hroundedle
    have hquotientle : rounded.magnitude / power.magnitude ≤ 2 ^ (198 : Int) := by
      rw [div_le_iff₀ (by linarith)]
      have hle := hrounded'.le
      norm_num at hle ⊢
      linarith
    obtain ⟨quotient, hquotient, hquotient'⟩ :=
      Binary64.exists_div (by linarith) (by decide) hquotientle
    exact ⟨_, hparts.toBinary?_of_steps hzero hsum hpower hproduct hrounded hquotient,
      wellFormed_withSign _ hquotient'.wellFormed⟩

/-! ## Few digits -/

/-- The error of the three operations is less than half a unit of the last place. -/
theorem roundMagnitude_of_few_digits {fraction sum product : Binary64} {w f p : ℚ} {m : Nat}
    (hw : 0 ≤ w) (hf : 1 / 10 ^ 22 ≤ f) (hp : 1 ≤ p) (hm : (w + f) * p = m) (hdigits : m < 10 ^ 15)
    (hfraction : fraction.WellFormed ∧ fraction.Covers f)
    (hsum : sum.WellFormed ∧ sum.Covers (w + fraction.magnitude))
    (hproduct : product.WellFormed ∧ product.Covers (sum.magnitude * p)) :
    product.roundMagnitude = m := by
  have herror {x : Binary64} {r : ℚ} (hx : x.WellFormed ∧ x.Covers r) (hr : 1 / 10 ^ 30 ≤ r) :
      x.magnitude * (1 - 1 / 2 ^ 53) ≤ r ∧ r ≤ x.magnitude * (1 + 1 / 2 ^ 53) :=
    hx.2.error (hx.2.normal hx.1 (Binary64.not_tiny hr))
  have hdigits : (m : ℚ) < 10 ^ 15 := by exact_mod_cast hdigits
  have hf' := herror hfraction (le_trans (by norm_num) hf)
  have hfractionge : 1 / 10 ^ 23 ≤ fraction.magnitude := by
    linarith
  have hs' := herror hsum (by linarith)
  have hsumge : 1 / 10 ^ 24 ≤ sum.magnitude := by
    linarith
  have hproductge : sum.magnitude ≤ sum.magnitude * p := le_mul_of_one_le_right sum.magnitude_nonneg hp
  have ht' := herror hproduct (by linarith)
  -- everything in units of the last place
  obtain ⟨s, hs⟩ : ∃ s, s = sum.magnitude * p := ⟨_, rfl⟩
  obtain ⟨t, ht⟩ : ∃ t, t = (w + fraction.magnitude) * p := ⟨_, rfl⟩
  have hp0 : 0 ≤ p := le_trans zero_le_one hp
  have hsumscaled : s * (1 - 1 / 2 ^ 53) ≤ t ∧ t ≤ s * (1 + 1 / 2 ^ 53) := by
    rw [hs, ht, mul_right_comm _ p, mul_right_comm _ p]
    exact ⟨mul_le_mul_of_nonneg_right hs'.1 hp0, mul_le_mul_of_nonneg_right hs'.2 hp0⟩
  have hfractionscaled : t * (1 - 1 / 2 ^ 53) ≤ m ∧ (m : ℚ) ≤ t * (1 + 1 / 2 ^ 53) := by
    rw [ht, ← hm, mul_right_comm _ p, mul_right_comm _ p]
    constructor
    · exact mul_le_mul_of_nonneg_right (by linarith) hp0
    · exact mul_le_mul_of_nonneg_right (by linarith) hp0
  rw [← hs] at ht'
  refine Binary64.roundMagnitude_eq ?_ ?_
  · linarith
  · linarith

section FewDigits

variable (hdigits : n.coefficient.natAbs < 10 ^ 15) (hnormal : n.coefficient % 10 ≠ 0)
  (hscale : n.scale ≠ 0) (hplaces : n.scale ≤ 22)
include hdigits hnormal hscale hplaces

/-- The whole part is exact, and the fraction is the only rounding so far. -/
theorem exists_parts_of_few_digits :
    ∃ whole part unit fraction, n.Parts whole part unit fraction ∧ fraction.isZero = false ∧
      whole.magnitude = (n.coefficient.natAbs / 10 ^ n.scale : Nat) ∧
      fraction.Rounded ((n.coefficient.natAbs % 10 ^ n.scale : Nat) / (10 ^ n.scale : Nat)) 0 ∧
      (1 : ℚ) / 10 ^ 22 ≤ (n.coefficient.natAbs % 10 ^ n.scale : Nat) / (10 ^ n.scale : Nat) := by
  obtain ⟨m, hm⟩ : ∃ m, m = n.coefficient.natAbs := ⟨_, rfl⟩
  obtain ⟨p, hp⟩ : ∃ p, p = 10 ^ n.scale := ⟨_, rfl⟩
  have hppos : 0 < p := hp ▸ Nat.pow_pos (by decide)
  -- there is a last place, and it is not zero
  have hrest : 0 < m % p := by
    by_contra hzero
    have hten : 10 ∣ p := hp ▸ dvd_pow_self 10 hscale
    have hdvd : 10 ∣ m := dvd_trans hten (Nat.dvd_of_mod_eq_zero (Nat.eq_zero_of_not_pos hzero))
    omega
  obtain ⟨whole, hwhole, -, hwholeexact⟩ := Binary64.ofNat_exact (n := m / p)
    (lt_of_le_of_lt (Nat.div_le_self m p) (by omega))
  obtain ⟨part, hpart, -, hpartexact⟩ := Binary64.ofNat_exact (n := m % p)
    (lt_of_le_of_lt (Nat.mod_le m p) (by omega))
  obtain ⟨-, unit, -, hunit, -, hunitexact⟩ := exists_roundedPower_exact hplaces
  have hpcast : (10 : ℚ) ^ n.scale = p := by
    rw [hp]
    push_cast
    rfl
  rw [hpcast] at hunitexact
  have hp0 : (0 : ℚ) < p := Nat.cast_pos.2 hppos
  have hfraction1 : ((m % p : Nat) : ℚ) / p ≤ 1 := by
    rw [div_le_one hp0]
    exact_mod_cast (Nat.mod_lt m hppos).le
  have hfraction0 : (1 : ℚ) / 10 ^ 22 ≤ (m % p : Nat) / p := by
    have hone : (1 : ℚ) ≤ (m % p : Nat) := by exact_mod_cast hrest
    have hp22 : p ≤ 10 ^ 22 := hp ▸ Nat.pow_le_pow_right (by decide) hplaces
    exact div_le_div₀ (Nat.cast_nonneg _) hone hp0 (by exact_mod_cast hp22)
  obtain ⟨fraction, hfraction, hfraction'⟩ := Binary64.exists_div (x := part) (y := unit) (k := 0)
    (by rw [hunitexact]; exact hp0) (by decide) (by rw [hpartexact, hunitexact]; exact hfraction1)
  rw [hpartexact, hunitexact] at hfraction'
  have hzero : fraction.isZero = false := by
    have hnormal := hfraction'.covers.normal hfraction'.wellFormed
      (Binary64.not_tiny (le_trans (by norm_num) hfraction0))
    exact beq_eq_false_iff_ne.2 (by omega)
  rw [hm, hp] at hwhole hpart
  rw [hm, hp] at hwholeexact hfraction' hfraction0
  exact ⟨whole, part, unit, fraction, ⟨hscale, hwhole, hpart, hunit, hfraction⟩, hzero, hwholeexact,
    hfraction', hfraction0⟩

/-- **A decimal of 15 digits and 22 places is rounded once.** -/
theorem exists_toBinary?_of_few_digits :
    ∃ x, n.toBinary? = some x ∧ x.WellFormed ∧ x.negative = decide (n.coefficient < 0) ∧
      x.Covers (n.coefficient.natAbs / 10 ^ n.scale) := by
  obtain ⟨whole, part, unit, fraction, hparts, hzero, hwhole, hfraction, hfraction0⟩ :=
    exists_parts_of_few_digits hdigits hnormal hscale hplaces
  obtain ⟨m, hm⟩ : ∃ m, m = n.coefficient.natAbs := ⟨_, rfl⟩
  obtain ⟨p, hp⟩ : ∃ p, p = 10 ^ n.scale := ⟨_, rfl⟩
  rw [← hm, ← hp] at hwhole hfraction hfraction0
  obtain ⟨w, hw⟩ : ∃ w : ℚ, w = (m / p : Nat) := ⟨_, rfl⟩
  obtain ⟨f, hf⟩ : ∃ f : ℚ, f = (m % p : Nat) / (p : Nat) := ⟨_, rfl⟩
  rw [← hw] at hwhole
  rw [← hf] at hfraction hfraction0
  obtain ⟨power, -, hpower, -, hpowerexact, -⟩ := exists_roundedPower_exact hplaces
  have hpcast : (10 : ℚ) ^ n.scale = p := by
    rw [hp]
    push_cast
    rfl
  rw [hpcast] at hpowerexact ⊢
  rw [← hm]
  have hppos : 0 < p := hp ▸ Nat.pow_pos (by decide)
  have hp0 : (0 : ℚ) < p := Nat.cast_pos.2 hppos
  have hp1 : (1 : ℚ) ≤ p := by exact_mod_cast hppos
  have hp22 : (p : ℚ) ≤ 10 ^ 22 := by
    have hle : p ≤ 10 ^ 22 := hp ▸ Nat.pow_le_pow_right (by decide) hplaces
    exact_mod_cast hle
  have hm15 : (m : ℚ) < 10 ^ 15 := by exact_mod_cast hm ▸ hdigits
  have hvalue : (w + f) * p = m := by
    have hdivision : p * (m / p) + m % p = m := Nat.div_add_mod m p
    have hdivision : (p : ℚ) * (m / p : Nat) + (m % p : Nat) = m := by exact_mod_cast hdivision
    rw [add_mul, hf, div_mul_cancel₀ _ hp0.ne', hw, mul_comm, hdivision]
  have hw0 : 0 ≤ w := hw ▸ Nat.cast_nonneg _
  have hwle : w ≤ 10 ^ 15 := by
    have hle : w ≤ w * p := le_mul_of_one_le_right hw0 hp1
    nlinarith
  -- the sum and the product are as near as the last place needs
  have hfractionle := hfraction.le
  obtain ⟨sum, hsum, hsum'⟩ := Binary64.exists_addMagnitudes (x := whole) (y := fraction) (k := 60)
    (by decide) (by rw [hwhole]; norm_num at hfractionle hwle ⊢; linarith)
  rw [hwhole] at hsum'
  obtain ⟨product, hproduct, hproduct'⟩ := Binary64.exists_mul (x := sum) (y := power) (k := 140)
    (by decide) (by
      rw [hpowerexact]
      refine le_trans (mul_le_mul hsum'.le hp22 hp0.le (by positivity)) ?_
      norm_num)
  rw [hpowerexact] at hproduct'
  have hround := roundMagnitude_of_few_digits hw0 hfraction0 hp1 hvalue (hm ▸ hdigits)
    ⟨hfraction.wellFormed, hfraction.covers⟩ ⟨hsum'.wellFormed, hsum'.covers⟩
    ⟨hproduct'.wellFormed, hproduct'.covers⟩
  -- so the last division is that of the digits by the power of ten
  obtain ⟨rounded, hrounded, -, hroundedexact⟩ := Binary64.ofNat_exact (n := m) (by omega)
  obtain ⟨quotient, hquotient, hquotient'⟩ := Binary64.exists_div (x := rounded) (y := power) (k := 60)
    (by rw [hpowerexact]; exact hp0) (by decide) (by
      rw [hpowerexact, hroundedexact, div_le_iff₀ hp0]
      refine le_trans hm15.le (le_trans ?_ (le_mul_of_one_le_right (by positivity) hp1))
      norm_num)
  rw [hpowerexact, hroundedexact] at hquotient'
  exact ⟨_, hparts.toBinary?_of_steps hzero hsum hpower hproduct (by rw [hround]; exact hrounded) hquotient,
    wellFormed_withSign _ hquotient'.wellFormed, rfl, covers_withSign _ hquotient'.covers⟩

end FewDigits

/-! ## Back again -/

/-- **A decimal of 15 digits comes back** from the binary number that it is rounded to. -/
theorem ofBinary?_of_few_digits {x : Binary64} (hx : x.WellFormed) {b : Nat} {t : Int} (hb : 0 < b)
    (hdigits : b < 10 ^ 15) (ht : -22 ≤ t) (hcovers : x.Covers (b * 10 ^ t))
    (hfits : (b : ℚ) * 10 ^ t < coefficientBound) :
    ∃ d, ofBinary? x = some d ∧ d.toRat = signed x.negative (b * 10 ^ t) := by
  -- a single 1 is written as a 10, so that the number cannot be below its grid
  obtain ⟨b', t', hb2, hb15, ht', hvalue⟩ :
      ∃ (b' : Nat) (t' : Int), 2 ≤ b' ∧ b' ≤ 10 ^ 15 ∧ -23 ≤ t' ∧ (b' : ℚ) * 10 ^ t' = b * 10 ^ t := by
    rcases Nat.lt_or_ge b 2 with hone | htwo
    · obtain rfl : b = 1 := by omega
      refine ⟨10, t - 1, by decide, by decide, by omega, ?_⟩
      rw [zpow_sub_one₀ (by norm_num)]
      push_cast
      field_simp
    · exact ⟨b, t, htwo, hdigits.le, by omega, rfl⟩
  rw [← hvalue] at hcovers hfits ⊢
  have hgrid := ten_zpow_pos t'
  have hb2 : (2 : ℚ) ≤ b' := by exact_mod_cast hb2
  have hleast : (10 : ℚ) ^ (-23 : Int) ≤ 10 ^ t' := zpow_le_zpow_right₀ (by norm_num) ht'
  have hlow : (10 : ℚ) ^ (-28 : Int) ≤ b' * 10 ^ t' := by
    have hstep : (10 : ℚ) ^ (-28 : Int) ≤ 10 ^ (-23 : Int) :=
      zpow_le_zpow_right₀ (by norm_num) (by decide)
    nlinarith
  have hnormal : 2 ^ 52 ≤ x.significand :=
    hcovers.normal hx (Binary64.not_tiny (le_trans (by norm_num) hlow))
  have hmagnitude : 10 ^ t' ≤ x.magnitude := by
    have herror := (hcovers.error hnormal).2
    nlinarith
  obtain ⟨hshortest, hexponent⟩ :=
    Binary64.shortest_of_fifteen_digits hx hnormal hb15 hcovers hmagnitude
  rcases ofBinary?_cases hx (by omega) with ⟨d, hd, hshown⟩ | ⟨hnone, -⟩
  · refine ⟨d, hd, ?_⟩
    rw [hshown, shown, hshortest]
  · -- digits and exponent are those of a number within the bounds
    have hpos : 0 < x.shortest.1 := by
      by_contra hzero
      rw [Nat.eq_zero_of_not_pos hzero, Nat.cast_zero, zero_mul] at hshortest
      nlinarith
    obtain ⟨d, hd⟩ := exists_ofExponentForm x.negative hpos (e := x.shortest.2) (by omega)
      (by rw [hshortest]; exact hlow) (by rw [hshortest]; exact hfits)
    rw [hnone] at hd
    cases hd

end Tabletop.Decimal
