import Mathlib.Data.Nat.Digits.Defs
import Tabletop.Decimal.Binary
import Tabletop.Proofs.Binary64.Shortest
import Tabletop.Proofs.Decimal.Literal
import Tabletop.Proofs.Decimal.Value

/-
  How a binary number is read as a decimal.

  1. **Plain digits** — the shortest decimal has 17 digits at most, so its plain text is within the bounds
     and nothing of it is rounded (`layout_cases`).

  2. **With an exponent** — the reader for literals refuses the text, and the digits and the exponent are
     put together exactly if the decimal fits (`ofExponentForm_eq_some`, `exists_ofExponentForm`).

  3. **Neither** — what is left has about 16 digits (`ofBits_eq_some`).
-/
namespace Tabletop.Decimal

open Binary64 (layout)

/-- A number with a sign. -/
def signed (negative : Bool) (r : ℚ) : ℚ := if negative then -r else r

/-- The number that the text of a binary number shows: its shortest decimal, with the sign. -/
def shown (x : Binary64) : ℚ := signed x.negative (x.shortest.1 * 10 ^ x.shortest.2)

/-! ## Plain digits -/

/-- A text that the reader for unsigned literals takes in all its digits. -/
def Reads (cs : List Char) (r : ℚ) : Prop :=
  ∃ whole places, cs = whole ++ '.' :: places ∧ isDigits whole = true ∧ isDigits places = true ∧
    Nat.ofDigitChars 10 (whole ++ places) 0 < coefficientBound ∧ places.length ≤ maxScale ∧
    (Nat.ofDigitChars 10 (whole ++ places) 0 : ℚ) / 10 ^ places.length = r

/-- The text is read as its digits say. -/
theorem Reads.readUnsigned? {cs : List Char} {r : ℚ} (h : Reads cs r) :
    ∃ m scale, readUnsigned? cs = some (m, scale) ∧ (m : ℚ) / 10 ^ scale = r := by
  obtain ⟨whole, places, rfl, hwhole, hplaces, hfits, hscale, hr⟩ := h
  exact ⟨_, _, (readUnsigned?_point hwhole hplaces).trans (ofDigits?_eq hfits hscale), hr⟩

/-- **The text is read with its sign.** -/
theorem Reads.readSigned? {cs : List Char} {r : ℚ} (h : Reads cs r) (negative : Bool) :
    ∃ d, readSigned? (if negative then '-' :: cs else cs) = some d ∧
      d.toRat = signed negative r := by
  obtain ⟨m, scale, hread, hr⟩ := h.readUnsigned?
  cases negative with
  | true =>
    refine ⟨⟨-(m : Int), scale⟩, ?_, ?_⟩
    · show (Decimal.readUnsigned? cs).map _ = _
      rw [hread]
      rfl
    · rw [toRat, ← hr]
      show ((-(m : Int) : Int) : ℚ) / 10 ^ scale = -(m / 10 ^ scale)
      push_cast
      exact neg_div _ _
  | false =>
    obtain ⟨whole, places, hcs, hwhole, -⟩ := h
    obtain ⟨hne, hdigit⟩ := isDigits_iff.1 hwhole
    obtain ⟨c, rest, rfl⟩ := List.exists_cons_of_ne_nil hne
    have hc := hdigit c List.mem_cons_self
    refine ⟨⟨m, scale⟩, ?_, ?_⟩
    · show Decimal.readSigned? cs = _
      rw [Decimal.readSigned?, hread, Option.map_some]
      -- the first digit is no sign
      all_goals
        intro ds hds
        rw [hcs] at hds
        rw [(List.cons.inj hds).1] at hc
        exact absurd hc (by decide)
    · rw [toRat, ← hr]
      rfl

/-- More digits behind digits. -/
theorem isDigits_append {as bs : List Char} (ha : isDigits as = true)
    (hb : ∀ c ∈ bs, c.isDigit = true) : isDigits (as ++ bs) = true := by
  obtain ⟨hne, hdigit⟩ := isDigits_iff.1 ha
  refine isDigits_iff.2 ⟨List.append_ne_nil_of_left_ne_nil hne bs, fun c hc => ?_⟩
  exact (List.mem_append.1 hc).elim (hdigit c) (hb c)

/-- Zeros are digits. -/
theorem isDigit_of_mem_replicate {n : Nat} {c : Char} (h : c ∈ List.replicate n '0') :
    c.isDigit = true := by
  rw [List.eq_of_mem_replicate h]
  rfl

section Layout

variable {digits : List Char} {d : Nat} (hdigits : isDigits digits = true)
  (hvalue : Nat.ofDigitChars 10 digits 0 = d)
include hdigits hvalue

/-- Zeros behind the digits, and one place. -/
theorem reads_whole {k : Nat} (hd : d * 10 ^ k < 10 ^ 16) :
    Reads (digits ++ List.replicate k '0' ++ ['.', '0']) (d * 10 ^ k) := by
  have hall : Nat.ofDigitChars 10 (digits ++ List.replicate k '0' ++ ['0']) 0 = d * 10 ^ k * 10 := by
    rw [Nat.ofDigitChars_append, Nat.ofDigitChars_append, hvalue, Nat.ofDigitChars_replicate_zero]
    show 10 * (10 ^ k * d) + 0 = _
    rw [Nat.mul_comm (10 ^ k) d, Nat.mul_comm 10]
    rfl
  refine ⟨digits ++ List.replicate k '0', ['0'], rfl,
    isDigits_append hdigits fun c hc => isDigit_of_mem_replicate hc, by decide, ?_, by decide, ?_⟩
  · rw [hall]
    unfold coefficientBound
    omega
  · rw [hall]
    push_cast
    show (d * 10 ^ k * 10 : ℚ) / 10 ^ 1 = _
    ring

/-- The point among the digits. -/
theorem reads_inside {p : Nat} (hp : 0 < p) (hlength : p < digits.length)
    (hscale : digits.length - p ≤ maxScale) (hd : d < coefficientBound) :
    Reads (digits.take p ++ '.' :: digits.drop p) (d / 10 ^ (digits.length - p)) := by
  obtain ⟨-, hdigit⟩ := isDigits_iff.1 hdigits
  have hall : Nat.ofDigitChars 10 (digits.take p ++ digits.drop p) 0 = d := by
    rw [List.take_append_drop, hvalue]
  have hplaces : (digits.drop p).length = digits.length - p := List.length_drop
  refine ⟨digits.take p, digits.drop p, rfl,
    isDigits_iff.2 ⟨?_, fun c hc => hdigit c (List.mem_of_mem_take hc)⟩,
    isDigits_iff.2 ⟨?_, fun c hc => hdigit c (List.mem_of_mem_drop hc)⟩,
    by rw [hall]; exact hd, by rw [hplaces]; exact hscale, by rw [hall, hplaces]⟩
  · refine List.ne_nil_of_length_pos ?_
    rw [List.length_take]
    omega
  · refine List.ne_nil_of_length_pos ?_
    omega

/-- Zeros in front of the digits. -/
theorem reads_fraction {z : Nat} (hscale : z + digits.length ≤ maxScale) (hd : d < coefficientBound) :
    Reads ('0' :: '.' :: (List.replicate z '0' ++ digits)) (d / 10 ^ (z + digits.length)) := by
  obtain ⟨hne, hdigit⟩ := isDigits_iff.1 hdigits
  have hall : Nat.ofDigitChars 10 (['0'] ++ (List.replicate z '0' ++ digits)) 0 = d := by
    rw [Nat.ofDigitChars_append, Nat.ofDigitChars_append]
    show Nat.ofDigitChars 10 digits (Nat.ofDigitChars 10 (List.replicate z '0') 0) = d
    rw [Nat.ofDigitChars_replicate_zero, Nat.mul_zero, hvalue]
  have hplaces : (List.replicate z '0' ++ digits).length = z + digits.length := by
    rw [List.length_append, List.length_replicate]
  refine ⟨['0'], List.replicate z '0' ++ digits, rfl, by decide,
    isDigits_iff.2 ⟨List.append_ne_nil_of_right_ne_nil _ hne, fun c hc => ?_⟩,
    by rw [hall]; exact hd, by rw [hplaces]; exact hscale, by rw [hall, hplaces]⟩
  exact (List.mem_append.1 hc).elim isDigit_of_mem_replicate (hdigit c)

end Layout

/-- **The text of the shortest decimal** is either plain and read exactly, or has an exponent. -/
theorem layout_cases {d : Nat} (hd : d ≤ 10 ^ 17) (e : Int) :
    Reads (layout (Nat.toDigits 10 d) e) (d * 10 ^ e) ∨ 'e' ∈ layout (Nat.toDigits 10 d) e := by
  obtain ⟨digits, heq⟩ : ∃ digits, digits = Nat.toDigits 10 d := ⟨_, rfl⟩
  have hvalue : Nat.ofDigitChars 10 digits 0 = d := by
    rw [heq]
    exact Nat.ofDigitChars_ten_toDigits
  have hdigits : isDigits digits = true := heq ▸ isDigits_toDigits d
  have hpos : 0 < digits.length := List.length_pos_iff.2 (isDigits_iff.1 hdigits).1
  have hlength : digits.length ≤ 18 := by
    rw [heq]
    exact (Nat.length_toDigits_le_iff (by decide) (by decide)).2 (by omega)
  have hbound : d < coefficientBound := by
    unfold coefficientBound
    omega
  rw [← heq]
  unfold layout
  dsimp only
  split
  · -- a whole number: zeros are filled in up to the point
    next hwhole =>
    obtain ⟨k, rfl⟩ := Int.eq_ofNat_of_zero_le hwhole.1
    have hsmall : d * 10 ^ k < 10 ^ 16 := by
      have hlt : d < 10 ^ digits.length := by
        rw [heq] at hpos ⊢
        exact (Nat.length_toDigits_le_iff (by decide) hpos).1 le_rfl
      calc d * 10 ^ k < 10 ^ digits.length * 10 ^ k := Nat.mul_lt_mul_of_pos_right hlt (by positivity)
        _ = 10 ^ (digits.length + k) := (Nat.pow_add ..).symm
        _ ≤ 10 ^ 16 := Nat.pow_le_pow_right (by decide) (by omega)
    rw [zpow_natCast, Int.toNat_natCast]
    exact .inl (reads_whole hdigits hvalue hsmall)
  · next hwhole =>
    split
    · -- the point is among the digits
      next hpoint =>
      obtain ⟨p, hp⟩ := Int.eq_ofNat_of_zero_le hpoint.1.le
      have hexponent : e = -((digits.length - p : Nat) : Int) := by omega
      rw [hp, Int.toNat_natCast, hexponent, zpow_neg, zpow_natCast, ← div_eq_mul_inv]
      exact .inl (reads_inside hdigits hvalue (by omega) (by omega)
        (by unfold maxScale; omega) hbound)
    · next hpoint =>
      split
      · -- zeros stand between the point and the digits
        next hsmall =>
        obtain ⟨z, hz⟩ : ∃ z : Nat, -((digits.length : Int) + e) = z :=
          Int.eq_ofNat_of_zero_le (by omega)
        have hexponent : e = -((z + digits.length : Nat) : Int) := by omega
        rw [hz, Int.toNat_natCast, hexponent, zpow_neg, zpow_natCast, ← div_eq_mul_inv]
        exact .inl (reads_fraction hdigits hvalue (by unfold maxScale; omega) hbound)
      · -- everything else has an exponent
        exact .inr (List.mem_append_right _ List.mem_cons_self)

/-! ## With an exponent -/

/-- **Digits and exponent are put together exactly.** -/
theorem ofExponentForm_eq_some {negative : Bool} {digits scale : Nat} {exponent : Int} {d : Decimal}
    (h : ofExponentForm negative digits scale exponent = some d) :
    d.toRat = signed negative (digits * 10 ^ (exponent - scale)) := by
  unfold ofExponentForm at h
  dsimp only at h
  split at h
  · cases h
  · split at h
    · -- the exponent leaves places, so the number is a quotient
      next hdown =>
      split at h
      · obtain ⟨s, rfl⟩ : ∃ s : Nat, exponent = scale - s := ⟨(scale - exponent).toNat, by omega⟩
        cases h
        rw [toRat, sub_sub_cancel, Int.toNat_natCast, sub_sub_cancel_left, zpow_neg, zpow_natCast,
          ← div_eq_mul_inv]
        cases negative with
        | true =>
          show ((-(digits : Int) : Int) : ℚ) / 10 ^ s = -(digits / 10 ^ s)
          push_cast
          exact neg_div _ _
        | false => rfl
      · cases h
    · -- the exponent fills in zeros, so the number is a product
      next hup =>
      split at h
      · obtain ⟨s, rfl⟩ : ∃ s : Nat, exponent = scale + s := ⟨(exponent - scale).toNat, by omega⟩
        cases h
        rw [toRat_ofInt, add_sub_cancel_left, Int.toNat_natCast, zpow_natCast]
        cases negative with
        | true =>
          show ((-((digits * 10 ^ s : Nat) : Int) : Int) : ℚ) = -(digits * 10 ^ s)
          push_cast
          rfl
        | false =>
          show (((digits * 10 ^ s : Nat) : Int) : ℚ) = digits * 10 ^ s
          push_cast
          rfl
      · cases h

/-- The number of its digits places a number between two powers of ten. -/
theorem length_toDigits_bounds {digits places : Nat} (hpos : 0 < digits)
    (hplaces : (Nat.toDigits 10 digits).length = places + 1) :
    10 ^ places ≤ digits ∧ digits < 10 ^ (places + 1) := by
  refine ⟨?_, (Nat.length_toDigits_le_iff (by decide) (Nat.succ_pos places)).1 hplaces.le⟩
  rcases Nat.eq_zero_or_pos places with rfl | hne
  · exact hpos
  · by_contra hlt
    have := (Nat.length_toDigits_le_iff (by decide) hne).2 (Nat.lt_of_not_le hlt)
    omega

/-- The exponent of the first digit, from the bounds of the number. -/
theorem firstExponent_bounds {digits places : Nat} {e : Int}
    (hdigits : 10 ^ places ≤ digits ∧ digits < 10 ^ (places + 1))
    (hlow : (10 : ℚ) ^ (-28 : Int) ≤ digits * 10 ^ e) (hhigh : (digits : ℚ) * 10 ^ e < coefficientBound) :
    -28 < e + places + 1 ∧ e + places < 29 := by
  have hone : (1 : ℚ) < 10 := by norm_num
  have hgrid := Binary64.ten_zpow_pos e
  have hleast : (10 : ℚ) ^ places ≤ digits := by exact_mod_cast hdigits.1
  have hmost : (digits : ℚ) < 10 ^ (places + 1) := by exact_mod_cast hdigits.2
  constructor
  · refine (zpow_lt_zpow_iff_right₀ hone).1 ?_
    calc (10 : ℚ) ^ (-28 : Int) ≤ digits * 10 ^ e := hlow
      _ < 10 ^ (places + 1) * 10 ^ e := mul_lt_mul_of_pos_right hmost hgrid
      _ = 10 ^ (e + places + 1) := by
          rw [add_assoc, zpow_add₀ (by norm_num), mul_comm, ← zpow_natCast]
          rfl
  · refine (zpow_lt_zpow_iff_right₀ hone).1 ?_
    calc (10 : ℚ) ^ (e + places) = 10 ^ places * 10 ^ e := by
          rw [zpow_add₀ (by norm_num), zpow_natCast, mul_comm]
      _ ≤ digits * 10 ^ e := mul_le_mul_of_nonneg_right hleast hgrid.le
      _ < coefficientBound := hhigh
      _ ≤ 10 ^ (29 : Int) := by
          unfold coefficientBound
          norm_num

/-- **Digits and exponent of a number within the bounds are put together.** -/
theorem exists_ofExponentForm (negative : Bool) {digits : Nat} (hpos : 0 < digits) {e : Int}
    (he : -28 ≤ e) (hlow : (10 : ℚ) ^ (-28 : Int) ≤ digits * 10 ^ e)
    (hhigh : (digits : ℚ) * 10 ^ e < coefficientBound) :
    ∃ d, ofExponentForm negative digits ((Nat.toDigits 10 digits).length - 1)
      (e + ((Nat.toDigits 10 digits).length - 1 : Nat)) = some d := by
  obtain ⟨places, hplaces⟩ : ∃ places, (Nat.toDigits 10 digits).length = places + 1 :=
    Nat.exists_eq_add_one.2 (List.length_pos_iff.2 Nat.toDigits_ne_nil)
  obtain ⟨hlast, hfirst⟩ := firstExponent_bounds (length_toDigits_bounds hpos hplaces) hlow hhigh
  rw [hplaces, Nat.add_sub_cancel]
  have hexponent : ¬(e + (places : Int)).natAbs > maxScale := by
    unfold maxScale
    omega
  unfold ofExponentForm
  dsimp only
  rw [if_neg hexponent]
  split
  · next hdown =>
    have hscale : ((places : Int) - (e + places)).toNat ≤ maxScale := by
      unfold maxScale
      omega
    rw [if_pos hscale]
    exact ⟨_, rfl⟩
  · next hup =>
    obtain ⟨s, rfl⟩ : ∃ s : Nat, e = s := ⟨e.toNat, by omega⟩
    rw [zpow_natCast] at hhigh
    have hfits : digits * 10 ^ s < coefficientBound := by exact_mod_cast hhigh
    rw [add_sub_cancel_right, Int.toNat_natCast, if_pos hfits]
    exact ⟨_, rfl⟩

/-- **How a binary number is read**: as the number that its text shows, or by its bits if digits and
    exponent do not fit. -/
theorem ofBinary?_cases {x : Binary64} (hx : x.WellFormed) (hpos : 0 < x.significand) :
    (∃ d, ofBinary? x = some d ∧ d.toRat = shown x) ∨
      (ofExponentForm x.negative x.shortest.1 ((Nat.toDigits 10 x.shortest.1).length - 1)
          (x.shortest.2 + ((Nat.toDigits 10 x.shortest.1).length - 1 : Nat)) = none ∧
        ofBinary? x = ofBits x) := by
  obtain ⟨magnitude, hmagnitude⟩ :
      ∃ cs, cs = layout (Nat.toDigits 10 x.shortest.1) x.shortest.2 := ⟨_, rfl⟩
  have htext : x.renderChars = if x.negative then '-' :: magnitude else magnitude := by
    have hzero : x.isZero = false := beq_eq_false_iff_ne.2 (Nat.ne_of_gt hpos)
    rw [Binary64.renderChars, hzero, hmagnitude]
    rfl
  -- the three readers, in the order in which they are tried
  have hdef : ofBinary? x = (readSigned? x.renderChars).or
      ((ofExponentForm x.negative x.shortest.1 ((Nat.toDigits 10 x.shortest.1).length - 1)
        (x.shortest.2 + ((Nat.toDigits 10 x.shortest.1).length - 1 : Nat))).orElse fun _ => ofBits x) := by
    unfold ofBinary?
    dsimp only
    cases readSigned? x.renderChars <;> rfl
  rw [hdef, htext]
  rcases layout_cases (Binary64.shortest_spec hx hpos).2 x.shortest.2 with hplain | hexponent
  · rw [← hmagnitude] at hplain
    obtain ⟨d, hd, hvalue⟩ := hplain.readSigned? x.negative
    rw [hd]
    exact .inl ⟨d, rfl, hvalue⟩
  · rw [← hmagnitude] at hexponent
    -- a text with an exponent is not what the first reader accepts
    have hnone : readSigned? (if x.negative then '-' :: magnitude else magnitude) = none := by
      refine readSigned?_eq_none (c := 'e') (by decide) ?_
      split
      · exact List.mem_cons_of_mem _ hexponent
      · exact hexponent
    rw [hnone]
    cases hform : ofExponentForm x.negative x.shortest.1 ((Nat.toDigits 10 x.shortest.1).length - 1)
        (x.shortest.2 + ((Nat.toDigits 10 x.shortest.1).length - 1 : Nat)) with
    | some d =>
      refine .inl ⟨d, rfl, ?_⟩
      rw [ofExponentForm_eq_some hform, add_sub_cancel_right]
      rfl
    | none => exact .inr ⟨rfl, rfl⟩

/-- Zero is shown as zero, with or without a sign. -/
theorem ofBinary?_of_isZero {x : Binary64} (h : x.isZero = true) :
    ∃ d, ofBinary? x = some d ∧ d.toRat = 0 := by
  have htext : x.renderChars = if x.negative then ['-', '0', '.', '0'] else ['0', '.', '0'] := by
    rw [Binary64.renderChars, h]
    rfl
  unfold ofBinary?
  rw [htext]
  cases x.negative with
  | true => exact ⟨⟨-0, 1⟩, rfl, by rw [toRat]; norm_num⟩
  | false => exact ⟨⟨0, 1⟩, rfl, by rw [toRat]; norm_num⟩

/-! ## Neither -/

/-- Places are dropped until none is left or the coefficient has 52 bits. -/
theorem dropExcess_spec (scale m : Nat) :
    (dropExcess scale m).2 = 0 ∨ (dropExcess scale m).1 < 2 ^ 52 := by
  induction scale generalizing m with
  | zero => exact .inl rfl
  | succ s ih =>
    rw [dropExcess]
    split
    · exact ih _
    · next h => exact .inr (not_le.1 h)

/-- Zeros that are taken away make it no larger. -/
theorem stripZeros_spec {negative : Bool} {m scale : Nat} (h : scale = 0 ∨ m < 2 ^ 52) :
    (stripZeros (if negative then -(m : Int) else m) scale).scale = 0 ∨
      (stripZeros (if negative then -(m : Int) else m) scale).coefficient.natAbs < 2 ^ 52 := by
  refine h.imp (fun hscale => ?_) fun hm => ?_
  · exact Nat.eq_zero_of_le_zero (le_of_le_of_eq (stripZeros_scale_le _ _) hscale)
  · refine Nat.lt_of_le_of_lt (natAbs_stripZeros_le _ _) ?_
    split <;> omega

/-- **A number that is read by its bits** has 52 bits, unless it is whole. -/
theorem ofBits_eq_some {x : Binary64} {d : Decimal} (h : ofBits x = some d) :
    d.scale = 0 ∨ d.coefficient.natAbs < 2 ^ 52 := by
  unfold ofBits at h
  split at h
  · cases h
    exact .inl rfl
  · dsimp only at h
    obtain ⟨m, -, h⟩ := Option.bind_eq_some_iff.1 h
    exact Option.some.inj h ▸ stripZeros_spec (dropExcess_spec _ _)

end Tabletop.Decimal
