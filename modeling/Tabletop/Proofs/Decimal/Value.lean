import Mathlib.Algebra.Order.Field.Rat
import Mathlib.Tactic.FieldSimp
import Mathlib.Tactic.Positivity
import Tabletop.Proofs.Decimal.Reading

/-
  The number that a decimal stands for.

  1. **The number** — `toRat`.  Comparing decimals is comparing these (`same_iff`).

  2. **One representation for each number** — `normalize` keeps the number, and a normalized decimal has
     no zero at the end of its places (`Normal`), so two numbers are equal exactly when they normalize to
     the same decimal (`normalize_eq_normalize_iff`).

  3. **The bounds** — normalizing and reading stay within them.
-/
namespace Tabletop.Decimal

/-! ## The number -/

/-- The number. -/
def toRat (d : Decimal) : ℚ := d.coefficient / 10 ^ d.scale

/-- A whole number is what it was made of. -/
@[simp] theorem toRat_ofInt (n : Int) : (ofInt n).toRat = n := by
  simp [toRat, ofInt]

/-- The coefficient at a finer scale stands for the same number. -/
theorem toRat_eq_coefficientAt (d : Decimal) {scale : Nat} (h : d.scale ≤ scale) :
    d.toRat = d.coefficientAt scale / 10 ^ scale := by
  obtain ⟨k, rfl⟩ := Nat.exists_eq_add_of_le h
  rw [toRat, coefficientAt, Nat.add_sub_cancel_left, pow_add]
  push_cast
  field_simp

/-- **Comparing decimals compares the numbers.** -/
theorem same_iff {a b : Decimal} : a.same b = true ↔ a.toRat = b.toRat := by
  have hpow : (10 : ℚ) ^ max a.scale b.scale ≠ 0 := by positivity
  rw [same, beq_iff_eq, compare, Int.compare_eq_eq,
    toRat_eq_coefficientAt a (Nat.le_max_left a.scale b.scale),
    toRat_eq_coefficientAt b (Nat.le_max_right a.scale b.scale), div_left_inj' hpow, Int.cast_inj]

@[simp] theorem same_refl (d : Decimal) : d.same d = true := same_iff.2 rfl

/-! ## One representation for each number -/

/-- Zeros at the end of the places are worth nothing. -/
@[simp] theorem toRat_stripZeros (c : Int) (s : Nat) : (stripZeros c s).toRat = (⟨c, s⟩ : Decimal).toRat := by
  induction s generalizing c with
  | zero => rfl
  | succ s ih =>
    rw [stripZeros]
    split
    · next hzero =>
      -- a coefficient that ends with a zero is ten times what is left
      have hc : c = c / 10 * 10 := by omega
      rw [ih, toRat, toRat, pow_succ]
      conv => rhs; rw [hc]
      push_cast
      field_simp
    · rfl

/-- So the normal form is the same number. -/
@[simp] theorem toRat_normalize (d : Decimal) : d.normalize.toRat = d.toRat :=
  toRat_stripZeros d.coefficient d.scale

/-- The last place, if there is one, is not a zero. -/
def Normal (d : Decimal) : Prop := d.scale = 0 ∨ d.coefficient % 10 ≠ 0

/-- Zeros are taken away as long as there are places. -/
theorem normal_stripZeros (c : Int) (s : Nat) : (stripZeros c s).Normal := by
  induction s generalizing c with
  | zero => exact .inl rfl
  | succ s ih =>
    rw [stripZeros]
    split
    · exact ih (c / 10)
    · next hzero => exact .inr hzero

/-- The normal form is normal. -/
theorem normal_normalize (d : Decimal) : d.normalize.Normal := normal_stripZeros d.coefficient d.scale

/-- There is nothing to be taken away from it. -/
theorem normalize_of_normal {d : Decimal} (h : d.Normal) : d.normalize = d := by
  obtain ⟨c, scale⟩ := d
  cases scale with
  | zero => rfl
  | succ s => exact if_neg (h.resolve_left (Nat.succ_ne_zero s))

/-- Taking away a second time changes nothing. -/
@[simp] theorem normalize_normalize (d : Decimal) : d.normalize.normalize = d.normalize :=
  normalize_of_normal (normal_normalize d)

/-- A normalized number with more places than another is a different number. -/
theorem scale_le_of_normal {a b : Decimal} (hb : b.Normal) (h : a.toRat = b.toRat) :
    b.scale ≤ a.scale := by
  by_contra hlt
  obtain ⟨k, hk⟩ := Nat.exists_eq_add_of_lt (Nat.lt_of_not_le hlt)
  -- written with the places of `b`, the coefficient of `a` ends in a zero
  rw [toRat_eq_coefficientAt a (Nat.le_of_not_le hlt), toRat,
    div_left_inj' (by positivity), Int.cast_inj, coefficientAt,
    show b.scale - a.scale = k + 1 by omega, pow_succ, ← mul_assoc] at h
  rcases hb with hb | hb
  · omega
  · omega

/-- Of one number there is one normal form. -/
theorem Normal.eq_of_toRat_eq {a b : Decimal} (ha : a.Normal) (hb : b.Normal)
    (h : a.toRat = b.toRat) : a = b := by
  have hscale : a.scale = b.scale :=
    Nat.le_antisymm (scale_le_of_normal ha h.symm) (scale_le_of_normal hb h)
  obtain ⟨c, scale⟩ := a
  obtain ⟨c', scale'⟩ := b
  obtain rfl : scale = scale' := hscale
  rw [toRat, toRat, div_left_inj' (by positivity), Int.cast_inj] at h
  dsimp only at h
  rw [h]

/-- **Numbers are equal exactly when they normalize to the same decimal.** -/
theorem normalize_eq_normalize_iff {a b : Decimal} : a.normalize = b.normalize ↔ a.toRat = b.toRat := by
  constructor
  · intro h
    rw [← toRat_normalize a, h, toRat_normalize]
  · intro h
    refine (normal_normalize a).eq_of_toRat_eq (normal_normalize b) ?_
    rw [toRat_normalize, toRat_normalize, h]

/-! ## The bounds -/

/-- Without its zeros a coefficient is no larger. -/
theorem natAbs_stripZeros_le (c : Int) (s : Nat) : (stripZeros c s).coefficient.natAbs ≤ c.natAbs := by
  induction s generalizing c with
  | zero => exact Nat.le_refl _
  | succ s ih =>
    rw [stripZeros]
    split
    · exact Nat.le_trans (ih (c / 10)) (by omega)
    · exact Nat.le_refl _

/-- What fits goes on fitting. -/
theorem Fits.normalize {d : Decimal} (h : d.Fits) : d.normalize.Fits :=
  ⟨Nat.lt_of_le_of_lt (natAbs_stripZeros_le d.coefficient d.scale) h.1,
    Nat.le_trans (stripZeros_scale_le d.coefficient d.scale) h.2⟩

/-- One more digit is dropped, and may carry into the coefficient; if that has become too large, the
    last place goes as well. -/
theorem roundLast_fits {m scale digit : Nat} (hm : m < coefficientBound) (hscale : scale ≤ maxScale)
    {r : Nat × Nat} (h : roundLast m scale digit = some r) : r.1 < coefficientBound ∧ r.2 ≤ maxScale := by
  unfold roundLast at h
  split at h
  · cases h
    exact ⟨hm, hscale⟩
  · split at h
    · next hcarry =>
      cases h
      exact ⟨hcarry, hscale⟩
    · cases scale with
      | zero => cases h
      | succ s =>
        cases h
        -- the carry is into a coefficient that has lost a digit
        refine ⟨?_, by omega⟩
        unfold coefficientBound at hm ⊢
        omega

/-- The places are read as long as there is room for them. -/
theorem readPlaces_fits {ds : List Char} {m scale : Nat} (hm : m < coefficientBound)
    (hscale : scale ≤ maxScale) {r : Nat × Nat} (h : readPlaces m scale ds = some r) :
    r.1 < coefficientBound ∧ r.2 ≤ maxScale := by
  induction ds generalizing m scale with
  | nil =>
    cases h
    exact ⟨hm, hscale⟩
  | cons c ds ih =>
    rw [readPlaces] at h
    split at h
    · next hroom => exact ih hroom.2 hroom.1 h
    · exact roundLast_fits hm hscale h

/-- A literal without a sign fits. -/
theorem readUnsigned?_fits {cs : List Char} {r : Nat × Nat} (h : readUnsigned? cs = some r) :
    r.1 < coefficientBound ∧ r.2 ≤ maxScale := by
  -- with a point and without one, the digits are read in the same way
  have hdigits {whole places : List Char} (h : ofDigits? whole places = some r) :
      r.1 < coefficientBound ∧ r.2 ≤ maxScale := by
    unfold ofDigits? at h
    dsimp only at h
    split at h
    · next hm => exact readPlaces_fits hm (Nat.zero_le _) h
    · cases h
  unfold readUnsigned? at h
  dsimp only at h
  split at h <;> split at h
  · exact hdigits h
  · cases h
  · exact hdigits h
  · cases h

/-- **What is read fits.** -/
theorem readSigned?_fits {cs : List Char} {d : Decimal} (h : readSigned? cs = some d) : d.Fits := by
  have hunsigned {cs : List Char} (sign : Nat → Int) (hsign : ∀ n, (sign n).natAbs = n)
      (h : (readUnsigned? cs).map (fun r => (⟨sign r.1, r.2⟩ : Decimal)) = some d) : d.Fits := by
    obtain ⟨r, hr, rfl⟩ := Option.map_eq_some_iff.1 h
    obtain ⟨hm, hscale⟩ := readUnsigned?_fits hr
    exact ⟨by rw [hsign]; exact hm, hscale⟩
  unfold readSigned? at h
  split at h
  · exact hunsigned (fun n => -(n : Int)) (fun n => by omega) h
  · exact hunsigned (fun n => (n : Int)) (fun n => by omega) h
  · exact hunsigned (fun n => (n : Int)) (fun n => by omega) h

/-- **A literal fits** if it is read at all. -/
theorem ofText?_fits {s : String} {d : Decimal} (h : ofText? s = some d) : d.Fits := readSigned?_fits h

end Tabletop.Decimal
