import Tabletop.Proofs.Binary64.Rounding

/-
  What the shortest decimal of a binary number is.

  1. **Comparing with decimals** — the comparisons in naturals are those of the numbers (`covers_iff`,
     `digitsAt_spec`).

  2. **The first grid** — the greatest power of ten that is not above the number (`decimalExponent_spec`).
     The estimate from the binary exponent is off by one at most, because `10 ^ 30102 ≤ 2 ^ 100000` and
     `2 ^ 100000 ≤ 10 ^ 30103`.

  3. **The search** — a hit on some grid stops the search there or before (`searchGrids_spec`).  A grid of
     17 digits is finer than the interval, so there is always one (`shortest_spec`).  And grids of 15
     digits are so wide that a decimal on them that is rounded to the number is the only one: it is found
     (`shortest_of_fifteen_digits`).
-/
namespace Tabletop.Binary64

variable {x : Binary64} {d b : Nat} {e t : Int}

/-! ## Comparing with decimals -/

/-- Powers of ten are positive. -/
theorem ten_zpow_pos (e : Int) : (0 : ℚ) < 10 ^ e := zpow_pos (by norm_num) e

/-- A power with an exponent of either sign is worked off on one side or the other. -/
theorem exists_scale {base : Nat} (hbase : 0 < base) (q : Int) :
    ∃ c : ℚ, 0 < c ∧ ∀ k d : Nat,
      ((if 0 ≤ q then k * base ^ q.toNat else k : Nat) : ℚ) = k * base ^ q * c ∧
        ((if 0 ≤ q then d else d * base ^ (-q).toNat : Nat) : ℚ) = d * c := by
  have hbase : (0 : ℚ) < base := Nat.cast_pos.2 hbase
  rcases le_or_gt 0 q with hq | hq
  · obtain ⟨i, rfl⟩ := Int.eq_ofNat_of_zero_le hq
    refine ⟨1, one_pos, fun k d => ?_⟩
    rw [if_pos hq, if_pos hq, Int.toNat_natCast, zpow_natCast, mul_one, mul_one]
    exact ⟨by push_cast; rfl, rfl⟩
  · obtain ⟨i, rfl⟩ : ∃ i : Nat, q = -(i : Int) := ⟨(-q).toNat, by omega⟩
    refine ⟨base ^ i, by positivity, fun k d => ?_⟩
    rw [if_neg (not_le.2 hq), if_neg (not_le.2 hq), Int.neg_neg, Int.toNat_natCast, zpow_neg, zpow_natCast]
    refine ⟨?_, by push_cast; rfl⟩
    field_simp

/-- The two naturals are the two numbers in a common unit. -/
theorem sides_scaled (x : Binary64) (k d : Nat) (e : Int) :
    ∃ c : ℚ, 0 < c ∧ ((x.sides k d e).1 : ℚ) = k * 2 ^ (x.exponent - 2) * c ∧
      ((x.sides k d e).2 : ℚ) = d * 10 ^ e * c := by
  -- the powers of two are moved to the side where they are whole, and then the powers of ten
  obtain ⟨c, hc, htwos⟩ := exists_scale (show 0 < 2 by decide) (x.exponent - 2)
  obtain ⟨c', hc', htens⟩ := exists_scale (show 0 < 10 by decide) e
  obtain ⟨hleft, hright⟩ := htwos k d
  obtain ⟨htens, hdigits⟩ := htens (if 0 ≤ x.exponent - 2 then d else d * 2 ^ (-(x.exponent - 2)).toNat)
    (if 0 ≤ x.exponent - 2 then k * 2 ^ (x.exponent - 2).toNat else k)
  rw [hleft] at hdigits
  rw [hright] at htens
  refine ⟨c * c', mul_pos hc hc', ?_, ?_⟩
  · rw [← mul_assoc, ← Nat.cast_ofNat, ← hdigits]
    unfold sides
    dsimp only
    split <;> rfl
  · rw [show (d : ℚ) * 10 ^ e * (c * c') = d * c * (10 : Nat) ^ e * c' by push_cast; ring, ← htens]
    unfold sides
    dsimp only
    split <;> rfl

/-- The two sides compare as the numbers do: less, -/
theorem sides_lt_iff (x : Binary64) (k d : Nat) (e : Int) :
    (x.sides k d e).1 < (x.sides k d e).2 ↔ (k : ℚ) * 2 ^ (x.exponent - 2) < d * 10 ^ e := by
  obtain ⟨c, hc, hleft, hright⟩ := x.sides_scaled k d e
  rw [← mul_lt_mul_iff_left₀ hc, ← hleft, ← hright, Nat.cast_lt]

/-- greater, -/
theorem sides_gt_iff (x : Binary64) (k d : Nat) (e : Int) :
    (x.sides k d e).2 < (x.sides k d e).1 ↔ (d : ℚ) * 10 ^ e < k * 2 ^ (x.exponent - 2) := by
  obtain ⟨c, hc, hleft, hright⟩ := x.sides_scaled k d e
  rw [← mul_lt_mul_iff_left₀ hc, ← hleft, ← hright, Nat.cast_lt]

/-- or equal. -/
theorem sides_eq_iff (x : Binary64) (k d : Nat) (e : Int) :
    (x.sides k d e).1 = (x.sides k d e).2 ↔ (k : ℚ) * 2 ^ (x.exponent - 2) = d * 10 ^ e := by
  obtain ⟨c, hc, hleft, hright⟩ := x.sides_scaled k d e
  rw [← mul_left_inj' hc.ne', ← hleft, ← hright, Nat.cast_inj]

/-- **The test of the search is whether the decimal is rounded to the number.** -/
theorem covers_iff : x.covers d e = true ↔ x.Covers (d * 10 ^ e) := by
  have hcovers : x.covers d e =
      (decide ((x.sides x.quarters.1 d e).1 < (x.sides x.quarters.1 d e).2) &&
        decide ((x.sides x.quarters.2.2 d e).2 < (x.sides x.quarters.2.2 d e).1) ||
      x.significand % 2 == 0 &&
        ((x.sides x.quarters.1 d e).1 == (x.sides x.quarters.1 d e).2 ||
          (x.sides x.quarters.2.2 d e).1 == (x.sides x.quarters.2.2 d e).2)) := rfl
  rw [hcovers]
  simp only [Bool.or_eq_true, Bool.and_eq_true, decide_eq_true_eq, beq_iff_eq, sides_lt_iff,
    sides_gt_iff, sides_eq_iff]
  unfold Covers low high
  simp only [eq_comm]

/-- The number in quarters of its unit. -/
theorem magnitude_eq_quarters (x : Binary64) :
    ((4 * x.significand : Nat) : ℚ) * 2 ^ (x.exponent - 2) = x.magnitude := by
  rw [two_zpow_sub_two, magnitude]
  push_cast
  ring

/-- The digits on a grid drop the rest. -/
theorem digitsAt_spec (x : Binary64) (e : Int) :
    x.digitsAt e * 10 ^ e ≤ x.magnitude ∧ x.magnitude < (x.digitsAt e + 1) * 10 ^ e := by
  obtain ⟨c, hc, hleft, hright⟩ := x.sides_scaled (4 * x.significand) 1 e
  have hdigits : x.digitsAt e =
      (x.sides (4 * x.significand) 1 e).1 / (x.sides (4 * x.significand) 1 e).2 := rfl
  rw [magnitude_eq_quarters] at hleft
  rw [Nat.cast_one, one_mul] at hright
  have hpos : 0 < (x.sides (4 * x.significand) 1 e).2 := by
    refine Nat.cast_pos.1 (lt_of_lt_of_eq ?_ hright.symm)
    exact mul_pos (ten_zpow_pos e) hc
  obtain ⟨v, hv⟩ : ∃ v, v = (x.sides (4 * x.significand) 1 e).1 := ⟨_, rfl⟩
  obtain ⟨p, hp⟩ : ∃ p, p = (x.sides (4 * x.significand) 1 e).2 := ⟨_, rfl⟩
  rw [← hv] at hleft hdigits
  rw [← hp] at hright hdigits hpos
  -- the division, without remainder
  have hbelow : x.digitsAt e * p ≤ v := hdigits ▸ Nat.div_mul_le_self v p
  have habove : v < (x.digitsAt e + 1) * p := by
    rw [hdigits, Nat.add_mul, Nat.one_mul]
    exact Nat.lt_div_mul_add hpos
  have hbelow : (x.digitsAt e : ℚ) * p ≤ v := by exact_mod_cast hbelow
  have habove : (v : ℚ) < (x.digitsAt e + 1) * p := by exact_mod_cast habove
  rw [hleft, hright, ← mul_assoc] at hbelow habove
  exact ⟨le_of_mul_le_mul_right hbelow hc, lt_of_mul_lt_mul_right habove hc.le⟩

/-! ## The first grid -/

/-- Powers of two against powers of ten, from two powers that are close to each other. -/
theorem two_zpow_le_ten_zpow {n m l : Nat} (hn : 0 < n) (habove : 2 ^ n ≤ 10 ^ m)
    (hbelow : 10 ^ l ≤ 2 ^ n) {k j : Int} (hl : l * k ≤ n * j) (hm : m * k ≤ n * j) :
    (2 : ℚ) ^ k ≤ 10 ^ j := by
  have habove : (2 : ℚ) ^ (n : Int) ≤ 10 ^ (m : Int) := by
    rw [zpow_natCast, zpow_natCast]
    exact_mod_cast habove
  have hbelow : (10 : ℚ) ^ (l : Int) ≤ 2 ^ (n : Int) := by
    rw [zpow_natCast, zpow_natCast]
    exact_mod_cast hbelow
  -- it is enough to compare the `n`-th powers
  refine (pow_le_pow_iff_left₀ (two_zpow_pos k).le (ten_zpow_pos j).le (Nat.ne_of_gt hn)).1 ?_
  rw [← zpow_natCast, ← zpow_natCast, ← zpow_mul, ← zpow_mul, mul_comm j, mul_comm k]
  rcases le_total 0 k with hk | hk
  · calc (2 : ℚ) ^ ((n : Int) * k) = (2 ^ (n : Int)) ^ k := zpow_mul 2 n k
      _ ≤ (10 ^ (m : Int)) ^ k := zpow_le_zpow_left₀ hk (two_zpow_pos _).le habove
      _ = 10 ^ ((m : Int) * k) := (zpow_mul 10 m k).symm
      _ ≤ 10 ^ ((n : Int) * j) := zpow_le_zpow_right₀ (by norm_num) hm
  · obtain ⟨i, rfl⟩ : ∃ i : Nat, k = -(i : Int) := ⟨(-k).toNat, by omega⟩
    calc (2 : ℚ) ^ ((n : Int) * -(i : Int)) = ((2 ^ (n : Int)) ^ i)⁻¹ := by
          rw [zpow_mul, zpow_neg, zpow_natCast _ i]
      _ ≤ ((10 ^ (l : Int)) ^ i)⁻¹ :=
          inv_anti₀ (pow_pos (ten_zpow_pos _) i) (pow_le_pow_left₀ (ten_zpow_pos _).le hbelow i)
      _ = 10 ^ ((l : Int) * -(i : Int)) := by rw [zpow_mul, zpow_neg, zpow_natCast _ i]
      _ ≤ 10 ^ ((n : Int) * j) := zpow_le_zpow_right₀ (by norm_num) hl

theorem two_pow_le_ten_pow : 2 ^ 100000 ≤ 10 ^ 30103 := by decide +kernel

theorem ten_pow_le_two_pow : 10 ^ 30102 ≤ 2 ^ 100000 := by decide +kernel

/-- The power of two below the number. -/
theorem two_zpow_le_magnitude (hx : 0 < x.significand) :
    (2 : ℚ) ^ ((x.significand.log2 : Int) + x.exponent) ≤ x.magnitude ∧
      x.magnitude < 2 ^ ((x.significand.log2 : Int) + x.exponent + 1) := by
  have hunit := two_zpow_pos x.exponent
  rw [magnitude, add_right_comm, zpow_add₀ two_ne_zero, zpow_add₀ two_ne_zero (_ + 1)]
  exact ⟨mul_le_mul_of_nonneg_right (two_pow_log2_le hx) hunit.le,
    mul_lt_mul_of_pos_right (lt_two_pow_log2 _) hunit⟩

/-- The first estimate of the greatest power of ten, from the power of two below the number. -/
def estimatedPower (x : Binary64) : Int :=
  (((x.significand.log2 : Int) + x.exponent) * 30103).fdiv 100000

/-- The first grid is the estimate, or one beside it. -/
theorem decimalExponent_eq (x : Binary64) :
    x.decimalExponent =
      if (10 : ℚ) ^ (x.estimatedPower + 1) ≤ x.magnitude then x.estimatedPower + 1
      else if (10 : ℚ) ^ x.estimatedPower ≤ x.magnitude then x.estimatedPower
      else x.estimatedPower - 1 := by
  have habove (e : Int) :
      (x.sides (4 * x.significand) 1 e).2 ≤ (x.sides (4 * x.significand) 1 e).1 ↔
        (10 : ℚ) ^ e ≤ x.magnitude := by
    rw [← not_lt, sides_lt_iff, magnitude_eq_quarters, Nat.cast_one, one_mul, not_lt]
  obtain ⟨e, he⟩ : ∃ e, e = x.estimatedPower := ⟨_, rfl⟩
  have hdef : x.decimalExponent =
      if decide ((x.sides (4 * x.significand) 1 (e + 1)).2 ≤
        (x.sides (4 * x.significand) 1 (e + 1)).1) = true then e + 1
      else if decide ((x.sides (4 * x.significand) 1 e).2 ≤
        (x.sides (4 * x.significand) 1 e).1) = true then e
      else e - 1 := by
    rw [he]
    rfl
  rw [hdef, ← he]
  simp only [decide_eq_true_eq, habove]

/-- The estimate is off by one at most. -/
theorem estimatedPower_spec (hx : x.WellFormed) (hpos : 0 < x.significand) :
    10 ^ (x.estimatedPower - 1) ≤ x.magnitude ∧ x.magnitude < 10 ^ (x.estimatedPower + 2) := by
  obtain ⟨k, hk⟩ : ∃ k : Int, k = (x.significand.log2 : Int) + x.exponent := ⟨_, rfl⟩
  obtain ⟨e, he⟩ : ∃ e, e = x.estimatedPower := ⟨_, rfl⟩
  obtain ⟨hlow, hhigh⟩ := two_zpow_le_magnitude hpos
  rw [← hk] at hlow hhigh
  rw [← he]
  have hbounds : -1074 ≤ k ∧ k < 2000 := by
    have hlog : x.significand.log2 < 53 := (Nat.log2_lt (Nat.ne_of_gt hpos)).2 hx.significand_lt
    have hmin := hx.exponent_ge
    have hmax := hx.exponent_le
    unfold minExponent at hmin
    unfold maxExponent at hmax
    omega
  have hdiv : 100000 * e ≤ k * 30103 ∧ k * 30103 < 100000 * e + 100000 := by
    rw [he, estimatedPower, ← hk, Int.fdiv_eq_ediv_of_nonneg _ (by decide)]
    omega
  constructor
  · refine le_trans ?_ hlow
    have h := two_zpow_le_ten_zpow (k := -k) (j := -(e - 1)) (by decide) two_pow_le_ten_pow
      ten_pow_le_two_pow (by omega) (by omega)
    rw [zpow_neg, zpow_neg] at h
    exact (inv_le_inv₀ (two_zpow_pos k) (ten_zpow_pos _)).1 h
  · exact lt_of_lt_of_le hhigh (two_zpow_le_ten_zpow (by decide) two_pow_le_ten_pow ten_pow_le_two_pow
      (by omega) (by omega))

/-- **The first grid** is that of the greatest power of ten that is not above the number. -/
theorem decimalExponent_spec (hx : x.WellFormed) (hpos : 0 < x.significand) :
    10 ^ x.decimalExponent ≤ x.magnitude ∧ x.magnitude < 10 ^ (x.decimalExponent + 1) := by
  obtain ⟨hdown, hup⟩ := estimatedPower_spec hx hpos
  rw [decimalExponent_eq]
  split
  · next h => exact ⟨h, by rw [add_assoc]; exact hup⟩
  · next h =>
    split
    · next h' => exact ⟨h', not_le.1 h⟩
    · next h' => exact ⟨hdown, by rw [sub_add_cancel]; exact not_le.1 h'⟩

/-! ## The search -/

/-- A hit is one of the two neighbours on the grid, and is rounded to the number. -/
theorem onGrid_eq_some (h : x.onGrid e = some d) :
    x.Covers (d * 10 ^ e) ∧ d ≤ x.digitsAt e + 1 := by
  -- both candidates are neighbours of the number
  have hneighbour {d' : Nat} (hd : d' = x.digitsAt e ∨ d' = x.digitsAt e + 1)
      (hcovers : x.covers d' e = true) : x.Covers (d' * 10 ^ e) ∧ d' ≤ x.digitsAt e + 1 :=
    ⟨covers_iff.1 hcovers, by omega⟩
  unfold onGrid at h
  dsimp only at h
  split at h
  · -- if both are covered, the nearer one is taken, or the even one
    next hbelow habove =>
    split at h
    · exact Option.some.inj h ▸ hneighbour (.inl rfl) hbelow
    · split at h
      · exact Option.some.inj h ▸ hneighbour (.inr rfl) habove
      · split at h
        · exact Option.some.inj h ▸ hneighbour (.inl rfl) hbelow
        · exact Option.some.inj h ▸ hneighbour (.inr rfl) habove
  · next hbelow _ => exact Option.some.inj h ▸ hneighbour (.inl rfl) hbelow
  · next _ habove => exact Option.some.inj h ▸ hneighbour (.inr rfl) habove
  · cases h

/-- If a neighbour on the grid is covered, there is an answer. -/
theorem exists_onGrid (hd : d = x.digitsAt e ∨ d = x.digitsAt e + 1) (h : x.Covers (d * 10 ^ e)) :
    ∃ d', x.onGrid e = some d' := by
  have hcovers : x.covers d e = true := covers_iff.2 h
  unfold onGrid
  dsimp only
  split
  · exact ⟨_, rfl⟩
  · exact ⟨_, rfl⟩
  · exact ⟨_, rfl⟩
  · next hbelow habove =>
    rcases hd with rfl | rfl
    · rw [hbelow] at hcovers
      cases hcovers
    · rw [habove] at hcovers
      cases hcovers

/-- **A hit stops the search** on its grid or on a coarser one. -/
theorem searchGrids_spec {fuel : Nat} (hhit : ∃ d, x.onGrid t = some d) (hstart : t ≤ e)
    (hfuel : e < t + fuel) :
    x.onGrid (x.searchGrids e fuel).2 = some (x.searchGrids e fuel).1 ∧
      t ≤ (x.searchGrids e fuel).2 ∧ (x.searchGrids e fuel).2 ≤ e := by
  induction fuel generalizing e with
  | zero => omega
  | succ fuel ih =>
    rw [searchGrids]
    split
    · next d hd => exact ⟨hd, hstart, le_rfl⟩
    · next hnone =>
      -- the hit is on a finer grid
      have hne : t ≠ e := by
        rintro rfl
        obtain ⟨d, hd⟩ := hhit
        rw [hnone] at hd
        cases hd
      obtain ⟨hgrid, hle, hge⟩ := ih (e := e - 1) (by omega) (by omega)
      exact ⟨hgrid, hle, by omega⟩

/-- The interval is wider than three quarters of a last bit, and than a whole one unless the
    significand is the smallest one of 53 bits. -/
theorem width (x : Binary64) :
    (x.significand = 2 ^ 52 ∧ x.low + 3 / 4 * 2 ^ x.exponent ≤ x.high) ∨
      x.low + 2 ^ x.exponent ≤ x.high ∨ x.significand = 0 := by
  have hunit := two_zpow_pos x.exponent
  rcases Nat.eq_zero_or_pos x.significand with hzero | hpos
  · exact .inr (.inr hzero)
  · rw [high_eq]
    by_cases hfine : x.significand = 2 ^ 52 ∧ minExponent < x.exponent
    · refine .inl ⟨hfine.1, ?_⟩
      rw [low_of_fine hfine.1 hfine.2, hfine.1]
      push_cast
      linarith
    · refine .inr (.inl ?_)
      rw [low_of_coarse hpos hfine]
      linarith

/-- **Seventeen digits are enough**: that grid is finer than the interval. -/
theorem exists_onGrid_seventeen (hx : x.WellFormed) (hpos : 0 < x.significand) :
    ∃ d, x.onGrid (x.decimalExponent - 16) = some d := by
  obtain ⟨e, he⟩ : ∃ e, e = x.decimalExponent - 16 := ⟨_, rfl⟩
  obtain ⟨hfirst, -⟩ := decimalExponent_spec hx hpos
  obtain ⟨hbelow, habove⟩ := x.digitsAt_spec e
  have hunit := two_zpow_pos x.exponent
  have hgrid := ten_zpow_pos e
  have hscale : (10 : ℚ) ^ x.decimalExponent = 10 ^ 16 * 10 ^ e := by
    rw [he, ← zpow_natCast, ← zpow_add₀ (by norm_num)]
    congr 1
    omega
  -- one step of the grid is less than the width of the interval
  have hstep : x.low + 10 ^ e < x.high := by
    rw [hscale, magnitude] at hfirst
    have hlarge : (x.significand : ℚ) < 2 ^ 53 := by exact_mod_cast hx.significand_lt
    rcases x.width with ⟨hfine, hwidth⟩ | hwidth | hzero
    · rw [hfine] at hfirst
      push_cast at hfirst
      nlinarith
    · nlinarith
    · omega
  have hhigh : x.magnitude < x.high := by
    rw [high_eq, magnitude]
    nlinarith
  rw [← he]
  rcases lt_or_ge x.low (x.digitsAt e * 10 ^ e) with h | h
  · exact exists_onGrid (.inl rfl) (.inl ⟨h, lt_of_le_of_lt hbelow hhigh⟩)
  · refine exists_onGrid (d := x.digitsAt e + 1) (.inr rfl) (.inl ?_)
    push_cast
    exact ⟨lt_of_le_of_lt x.low_le habove, by linarith⟩

/-- The shortest decimal is the hit of the search, except that 10 is written as 1 on the next grid. -/
theorem shortest_eq (x : Binary64) :
    (x.shortest.1 : ℚ) * 10 ^ x.shortest.2 =
        (x.searchGrids x.decimalExponent 17).1 * 10 ^ (x.searchGrids x.decimalExponent 17).2 ∧
      x.shortest.1 ≤ (x.searchGrids x.decimalExponent 17).1 ∧
      (x.searchGrids x.decimalExponent 17).2 ≤ x.shortest.2 := by
  unfold shortest
  split
  · next e h =>
    rw [h]
    refine ⟨?_, by show 1 ≤ 10; decide, Int.le_add_one le_rfl⟩
    rw [zpow_add_one₀ (by norm_num)]
    push_cast
    ring
  · exact ⟨rfl, le_rfl, le_rfl⟩

/-- **The shortest decimal is rounded to the number**, and has no more than 17 digits. -/
theorem shortest_spec (hx : x.WellFormed) (hpos : 0 < x.significand) :
    x.Covers (x.shortest.1 * 10 ^ x.shortest.2) ∧ x.shortest.1 ≤ 10 ^ 17 := by
  have hfuel : x.decimalExponent < x.decimalExponent - 16 + (17 : Nat) := by omega
  obtain ⟨hgrid, hfine, hcoarse⟩ :=
    searchGrids_spec (exists_onGrid_seventeen hx hpos) (by omega) hfuel
  obtain ⟨hcovers, hneighbour⟩ := onGrid_eq_some hgrid
  obtain ⟨hvalue, hle, -⟩ := x.shortest_eq
  obtain ⟨-, hlast⟩ := decimalExponent_spec hx hpos
  obtain ⟨d, hd⟩ : ∃ d, d = x.digitsAt (x.searchGrids x.decimalExponent 17).2 := ⟨_, rfl⟩
  obtain ⟨hbelow, -⟩ := x.digitsAt_spec (x.searchGrids x.decimalExponent 17).2
  rw [← hd] at hneighbour hbelow
  refine ⟨hvalue ▸ hcovers, le_trans hle (le_trans hneighbour ?_)⟩
  -- the digits in front of the first grid are none
  have hgridpos := ten_zpow_pos (x.searchGrids x.decimalExponent 17).2
  have hscale : (10 : ℚ) ^ (x.decimalExponent + 1) ≤
      10 ^ 17 * 10 ^ (x.searchGrids x.decimalExponent 17).2 := by
    rw [← zpow_natCast, ← zpow_add₀ (by norm_num)]
    exact zpow_le_zpow_right₀ (by norm_num) (by omega)
  have hlt : (d : ℚ) < 10 ^ 17 := lt_of_mul_lt_mul_right
    (lt_of_le_of_lt hbelow (lt_of_lt_of_le hlast hscale)) hgridpos.le
  exact_mod_cast hlt

/-- Two decimals that are rounded to the same number are no further apart than its last bit. -/
theorem Covers.sub_le {r r' : ℚ} (h : x.Covers r) (h' : x.Covers r') : r - r' ≤ 2 ^ x.exponent := by
  have hhigh := h.le_high
  have hlow := le_trans x.half_bit_le_low h'.low_le
  rw [high_eq] at hhigh
  linarith

/-- The last bit of a number is less than one step of the grid on which it has 15 digits. -/
theorem bit_lt_grid (hnormal : 2 ^ 52 ≤ x.significand) (hb : b ≤ 10 ^ 15) (hcovers : x.Covers (b * 10 ^ t)) :
    (2 : ℚ) ^ x.exponent < 10 ^ t := by
  have hunit := two_zpow_pos x.exponent
  have hgrid := ten_zpow_pos t
  have hnormal : (2 : ℚ) ^ 52 ≤ x.significand := by exact_mod_cast hnormal
  have hb : (b : ℚ) ≤ 10 ^ 15 := by exact_mod_cast hb
  have hdouble := hcovers.magnitude_le
  rw [magnitude] at hdouble
  nlinarith

/-- On such a grid a decimal that is rounded to the number is next to it, so there is a hit. -/
theorem exists_onGrid_of_covers (hbit : (2 : ℚ) ^ x.exponent < 10 ^ t) (hcovers : x.Covers (b * 10 ^ t)) :
    ∃ d, x.onGrid t = some d := by
  obtain ⟨hbelow, habove⟩ := x.digitsAt_spec t
  have hhigh := hcovers.le_high
  have hlow := le_trans x.half_bit_le_low hcovers.low_le
  rw [high_eq] at hhigh
  rw [magnitude] at hbelow habove
  have hle : (b : ℚ) < x.digitsAt t + 2 := by nlinarith
  have hge : (x.digitsAt t : ℚ) < b + 1 := by nlinarith
  have hle : b < x.digitsAt t + 2 := by exact_mod_cast hle
  have hge : x.digitsAt t < b + 1 := by exact_mod_cast hge
  exact exists_onGrid (by omega) hcovers

/-- And two decimals that are rounded to the number are less than one step apart, so they are the same. -/
theorem eq_of_covers (hbit : (2 : ℚ) ^ x.exponent < 10 ^ t) (hd : x.Covers (d * 10 ^ t))
    (hb : x.Covers (b * 10 ^ t)) : d = b := by
  have hgrid := ten_zpow_pos t
  have hle := hd.sub_le hb
  have hge := hb.sub_le hd
  have hle : (d : ℚ) < b + 1 := by nlinarith
  have hge : (b : ℚ) < d + 1 := by nlinarith
  have hle : d < b + 1 := by exact_mod_cast hle
  have hge : b < d + 1 := by exact_mod_cast hge
  omega

/-- **Fifteen digits are unique**: a decimal of 15 digits that is rounded to the number is the shortest
    decimal of it. -/
theorem shortest_of_fifteen_digits (hx : x.WellFormed) (hnormal : 2 ^ 52 ≤ x.significand)
    (hb : b ≤ 10 ^ 15) (hcovers : x.Covers (b * 10 ^ t)) (ht : 10 ^ t ≤ x.magnitude) :
    (x.shortest.1 : ℚ) * 10 ^ x.shortest.2 = b * 10 ^ t ∧ t ≤ x.shortest.2 := by
  have hbit := bit_lt_grid hnormal hb hcovers
  -- the search begins at the grid of the decimal or a wider one, and is not over before that grid
  obtain ⟨hfirst, hlast⟩ := decimalExponent_spec hx (by omega)
  have hstart : t ≤ x.decimalExponent := by
    have := (zpow_lt_zpow_iff_right₀ (by norm_num : (1 : ℚ) < 10)).1 (lt_of_le_of_lt ht hlast)
    omega
  have hfuel : x.decimalExponent < t + (17 : Nat) := by
    have hgrid := ten_zpow_pos t
    have hb : (b : ℚ) ≤ 10 ^ 15 := by exact_mod_cast hb
    have hdouble := hcovers.magnitude_le
    have hlt : (10 : ℚ) ^ x.decimalExponent < 10 ^ (t + (17 : Nat)) := by
      rw [zpow_add₀ (by norm_num), zpow_natCast]
      nlinarith
    exact (zpow_lt_zpow_iff_right₀ (by norm_num : (1 : ℚ) < 10)).1 hlt
  obtain ⟨hfound, hcoarse, -⟩ :=
    searchGrids_spec (exists_onGrid_of_covers hbit hcovers) hstart hfuel
  obtain ⟨hvalue, -, hexponent⟩ := x.shortest_eq
  obtain ⟨hcovers', -⟩ := onGrid_eq_some hfound
  refine ⟨?_, le_trans hcoarse hexponent⟩
  rw [hvalue]
  -- what is found is a decimal of the finer grid, too
  obtain ⟨e, he⟩ : ∃ e, e = (x.searchGrids x.decimalExponent 17).2 := ⟨_, rfl⟩
  obtain ⟨d, hd⟩ : ∃ d, d = (x.searchGrids x.decimalExponent 17).1 := ⟨_, rfl⟩
  rw [← he, ← hd] at hcovers' ⊢
  rw [← he] at hcoarse
  obtain ⟨i, rfl⟩ : ∃ i : Nat, e = t + i := ⟨(e - t).toNat, by omega⟩
  have hfiner : (d : ℚ) * 10 ^ (t + (i : Int)) = (d * 10 ^ i : Nat) * 10 ^ t := by
    rw [zpow_add₀ (by norm_num), zpow_natCast]
    push_cast
    ring
  rw [hfiner] at hcovers' ⊢
  rw [eq_of_covers hbit hcovers' hcovers]

end Tabletop.Binary64
