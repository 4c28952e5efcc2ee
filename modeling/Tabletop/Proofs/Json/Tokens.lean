import Tabletop.Json.Printer
import Tabletop.Json.Reader
import Tabletop.Proofs.Decimal.Reading

/-
  The tokens of JSON text: strings and integers are read back as they were written.

  1. **Strings** — `readString_escapeChar` reads one character back from its escape, whatever
     follows.  Every escape that is written starts with a backslash and has its own letter behind
     it; a character that is written as itself is none that the reader stops at.

  2. **Integers** — the reader gathers digits from left to right and checks the bound at each of
     them.  The value of a front part never exceeds the value of the whole (`gather_eq`), so an
     integer that fits is gathered without a digit left over.

  3. **What follows** — a number has no closing character, so its reader has to see where it ends.
     `Closes` says that nothing behind a value goes on with a number.  In a document a comma, a closing
     bracket or a blank stands there, or the text ends.
-/
namespace Tabletop.Json

/-! ## Strings -/

/-- Hexadecimal digits, one by one. -/
theorem hexValue?_hexDigit : ∀ n < 16, hexValue? (hexDigit n) = some n := by decide

/-- **A character that was escaped** is read back.  Seven characters have a letter of their own, the
    other control characters are four digits, and everything else stands for itself. -/
theorem readString_escapeChar (c : Char) (r : List Char) :
    readString (escapeChar c ++ r) = push c (readString r) := by
  unfold escapeChar
  -- the letters: both sides compute
  iterate 7
    split
    · next h => rw [h]; rfl
  split
  · next h =>
    -- a control character without a letter of its own
    have hhigh : hexValue? (hexDigit (c.toNat / 16)) = some (c.toNat / 16) :=
      hexValue?_hexDigit _ (by omega)
    have hlow : hexValue? (hexDigit (c.toNat % 16)) = some (c.toNat % 16) :=
      hexValue?_hexDigit _ (by omega)
    have hcode : hex4? '0' '0' (hexDigit (c.toNat / 16)) (hexDigit (c.toNat % 16)) = some c.toNat := by
      rw [hex4?, hhigh, hlow]
      show some ((0 * 16 + 0) * 256 + c.toNat / 16 * 16 + c.toNat % 16) = some c.toNat
      congr 1
      omega
    -- a control character is no half of a surrogate pair
    have hhs : isHighSurrogate c.toNat = false := by simp [isHighSurrogate]; omega
    have hls : isLowSurrogate c.toNat = false := by simp [isLowSurrogate]; omega
    simp only [List.cons_append, List.nil_append]
    rw [readString]
    simp only [hcode, hhs, hls, Bool.false_eq_true, if_false, Char.ofNat_toNat]
  · -- the last two equations of the reader: no quote, no backslash
    next hquote hslash _ _ _ _ _ hcontrol =>
    rw [List.singleton_append, readString, if_neg hcontrol]
    · exact hquote
    · intro _ _ _ _ _ h
      exact absurd h hslash
    · intro _ _ h
      exact absurd h hslash

/-- **A string is read back**, up to its closing quote. -/
theorem readString_escape (cs r : List Char) : readString (escape cs ++ '"' :: r) = some (cs, r) := by
  induction cs with
  | nil => rfl
  | cons c cs ih =>
    rw [escape, List.flatMap_cons, List.append_assoc, readString_escapeChar]
    show push c (readString (escape cs ++ '"' :: r)) = some (c :: cs, r)
    rw [ih]
    rfl

/-! ## Integers -/

/-- What may stand behind a value: the end of the text, or a character that does not go on with a
    number. -/
def Closes (r : List Char) : Prop :=
  ∀ c ∈ r.head?, c.isDigit = false ∧ c ≠ '.' ∧ c ≠ 'e' ∧ c ≠ 'E'

/-- The end of the text closes a number. -/
theorem closes_nil : Closes [] := fun _ h => nomatch h

/-- **Digits that fit are all gathered.**  The value only grows, so no front part is out of bounds
    when the whole is not. -/
theorem gather_eq {ds : List Char} {m : Nat} (fits : Nat.ofDigitChars 10 ds m < significandBound) :
    gather m ds = (Nat.ofDigitChars 10 ds m, 0) := by
  induction ds generalizing m with
  | nil => rfl
  | cons c ds ih =>
    rw [Nat.ofDigitChars_cons] at fits ⊢
    have hstep : 10 * m + (c.toNat - '0'.toNat) = m * 10 + Decimal.digitValue c := by
      rw [Nat.mul_comm, Decimal.digitValue]
    rw [hstep] at fits ⊢
    have hfront := Decimal.le_ofDigitChars ds (m * 10 + Decimal.digitValue c)
    rw [gather, if_pos (by omega), ih fits]

/-- A number is written without zeros in front. -/
theorem isWhole_toDigits (n : Nat) : isWhole (Nat.toDigits 10 n) = true := by
  by_cases hn : n = 0
  · rw [hn, Nat.toDigits_zero]
    rfl
  · obtain ⟨c, cs, hcs, hc⟩ := Decimal.head_toDigits hn
    rw [hcs, isWhole, bne_iff_ne]
    · exact hc
    · intro h _
      exact absurd h hc

/-- There is no fraction where the number is closed. -/
theorem readFraction_of_closes {r : List Char} (hr : Closes r) : readFraction r = some ([], r) := by
  cases r with
  | nil => rfl
  | cons c r =>
    rw [readFraction]
    intro cs h
    exact absurd (List.cons.inj h).1 (hr c rfl).2.1

/-- And no exponent. -/
theorem readExponent_of_closes {r : List Char} (hr : Closes r) : readExponent r = some (none, r) := by
  cases r with
  | nil => rfl
  | cons c r =>
    obtain ⟨-, -, he, hE⟩ := hr c rfl
    exact if_neg (not_or.2 ⟨he, hE⟩)

/-- Digits alone are read whole, and are all that there is of the number. -/
theorem readUnsigned_toDigits {negative : Bool} {m : Nat} {n : JsonNumber} {r : List Char}
    (parts : ofParts negative (Nat.toDigits 10 m) [] none = some n) (hr : Closes r) :
    readUnsigned negative (Nat.toDigits 10 m ++ r) = some (n, r) := by
  have digits : ∀ c ∈ Nat.toDigits 10 m, c.isDigit = true := fun c h =>
    Nat.isDigit_of_mem_toDigits (by omega) (by omega) h
  obtain ⟨htake, hdrop⟩ := Text.takeWhile_append_of_stop digits fun c hc => (hr c hc).1
  rw [readUnsigned, htake, hdrop, if_pos (isWhole_toDigits m)]
  simp only [readFraction_of_closes hr, readExponent_of_closes hr, parts, Option.bind_eq_bind,
    Option.bind_some]
  rfl

/-- The integers that a document can hold. -/
def InWords (n : Int) : Prop := -2 ^ 63 ≤ n ∧ n < 2 ^ 64

instance (n : Int) : Decidable (InWords n) := inferInstanceAs (Decidable (_ ∧ _))

/-- Digits that fit are gathered to the number that they were written from. -/
theorem gather_toDigits {m : Nat} (fits : m < significandBound) :
    gather 0 (Nat.toDigits 10 m) = (m, 0) := by
  have hvalue : Nat.ofDigitChars 10 (Nat.toDigits 10 m) 0 = m := Nat.ofDigitChars_ten_toDigits
  rw [gather_eq (hvalue.symm ▸ fits), hvalue]

/-- A number has a first digit. -/
theorem exists_toDigits (m : Nat) : ∃ c cs, Nat.toDigits 10 m = c :: cs ∧ c.isDigit = true := by
  obtain ⟨c, cs, hcs⟩ := List.exists_cons_of_ne_nil (Nat.toDigits_ne_nil (n := m) (b := 10))
  have hc : c ∈ Nat.toDigits 10 m := hcs ▸ List.mem_cons_self
  exact ⟨c, cs, hcs, Nat.isDigit_of_mem_toDigits (by omega) (by omega) hc⟩

theorem renderNumber_of_neg {n : Int} (h : n < 0) :
    renderNumber (.integer n) = '-' :: Nat.toDigits 10 n.natAbs := by
  simp [renderNumber, Decimal.renderChars, Decimal.ofInt, Decimal.placedDigits, h]

theorem renderNumber_of_not_neg {n : Int} (h : ¬n < 0) :
    renderNumber (.integer n) = Nat.toDigits 10 n.natAbs := by
  simp [renderNumber, Decimal.renderChars, Decimal.ofInt, Decimal.placedDigits, h]

/-- An integer starts with its sign or a digit. -/
theorem exists_renderNumber (n : Int) :
    ∃ c cs, renderNumber (.integer n) = c :: cs ∧ (c = '-' ∨ c.isDigit = true) := by
  by_cases h : n < 0
  · exact ⟨'-', _, renderNumber_of_neg h, .inl rfl⟩
  · obtain ⟨c, cs, hcs, hc⟩ := exists_toDigits n.natAbs
    exact ⟨c, cs, (renderNumber_of_not_neg h).trans hcs, .inr hc⟩

/-- **An integer is read back**, up to what closes it. -/
theorem readNumber_renderNumber {n : Int} (hn : InWords n) {r : List Char} (hr : Closes r) :
    readNumber (renderNumber (.integer n) ++ r) = some (.integer n, r) := by
  obtain ⟨hlow, hhigh⟩ := hn
  have hfits : n.natAbs < significandBound := by
    show n.natAbs < 2 ^ 64
    omega
  have hgather := gather_toDigits hfits
  by_cases hneg : n < 0
  · rw [renderNumber_of_neg hneg, List.cons_append, readNumber]
    refine readUnsigned_toDigits ?_ hr
    simp only [ofParts, hgather]
    rw [if_pos (by decide), if_neg (by decide), if_neg (by omega), if_pos (by omega)]
    congr 2
    omega
  · have hparts : ofParts false (Nat.toDigits 10 n.natAbs) [] none = some (.integer n) := by
      simp only [ofParts, hgather]
      rw [if_pos (by decide), if_pos (by decide)]
      congr 2
      omega
    rw [renderNumber_of_not_neg hneg, readNumber]
    · exact readUnsigned_toDigits hparts hr
    · -- the first digit is no sign
      intro cs hcs
      obtain ⟨c, ds, hds, hc⟩ := exists_toDigits n.natAbs
      rw [hds, List.cons_append, List.cons.injEq] at hcs
      rw [hcs.1] at hc
      exact absurd hc (by decide)

end Tabletop.Json
