import Tabletop.Text.FormCoding
import Tabletop.Proofs.Text.Pieces

/-
  Form data: what is written is read back.

  1. **Octets** — `decode_encodeChar` reads one character back from its octets, whatever follows.
     It is the only place where the four lengths of a character are told apart.

  2. **Written octets** — `octets_encodeOctet` is the same one level up: an octet comes back from
     itself, from the `+` of a blank, or from its two hexadecimal digits.  A plus sign or a percent
     sign of the text is never kept, so the reader cannot take one for the other.

  3. **Separators** — a code has no ampersand, no equals sign and no blank in it.  So codes that are
     joined with `&` come apart at the same places, trimming leaves them alone, and the reader never
     finds a name and a value in them.
-/
namespace Tabletop.Text

/-! ## Octets -/

namespace Utf8

/-- Octets have eight bits. -/
theorem mem_encodeChar_lt {c : Char} {b : Nat} (h : b ∈ encodeChar c) : b < 256 := by
  have hv : c.toNat < 0xD800 ∨ 0xDFFF < c.toNat ∧ c.toNat < 0x110000 := c.valid
  simp only [encodeChar] at h
  repeat' split at h
  all_goals
    simp only [List.mem_cons, List.not_mem_nil, or_false] at h
    omega

/-- **A character is read back**, whatever octets stand behind it. -/
theorem decode_encodeChar (c : Char) (r : List Nat) : decode (encodeChar c ++ r) = c :: decode r := by
  have hv : c.toNat < 0xD800 ∨ 0xDFFF < c.toNat ∧ c.toNat < 0x110000 := c.valid
  have back {n : Nat} (hn : n = c.toNat) : Char.ofNat n = c := by rw [hn, Char.ofNat_toNat]
  have tail (n : Nat) : isTail (0x80 + n % 0x40) = true := by
    simp only [isTail, Bool.and_eq_true, decide_eq_true_eq]
    omega
  simp only [encodeChar]
  split
  · next h1 =>
    rw [List.singleton_append, decode.eq_def]
    dsimp only
    rw [if_pos h1, back rfl]
  · next h1 =>
    split
    · next h2 =>
      simp only [List.cons_append, List.nil_append]
      rw [decode.eq_def]
      dsimp only
      rw [if_neg (by omega), if_pos (by omega), if_pos (tail _), back (by omega)]
    · next h2 =>
      split
      · next h3 =>
        -- three octets: the second one depends on the first, so that no surrogate is written
        have second : isSecondOf3 (0xE0 + c.toNat / 0x1000) (0x80 + c.toNat / 0x40 % 0x40) = true := by
          simp only [isSecondOf3, tail, Bool.true_and, Bool.and_eq_true, Bool.or_eq_true, bne_iff_ne,
            decide_eq_true_eq]
          omega
        simp only [List.cons_append, List.nil_append]
        rw [decode.eq_def]
        dsimp only
        rw [if_neg (by omega), if_neg (by omega), if_pos (by omega), if_pos second, if_pos (tail _),
          back (by omega)]
      · next h3 =>
        have second : isSecondOf4 (0xF0 + c.toNat / 0x40000) (0x80 + c.toNat / 0x1000 % 0x40) = true := by
          simp only [isSecondOf4, tail, Bool.true_and, Bool.and_eq_true, Bool.or_eq_true, bne_iff_ne,
            decide_eq_true_eq]
          omega
        simp only [List.cons_append, List.nil_append]
        rw [decode.eq_def]
        dsimp only
        rw [if_neg (by omega), if_neg (by omega), if_neg (by omega), if_pos (by omega),
          if_pos second, if_pos (tail _), if_pos (tail _), back (by omega)]

/-- **Text is read back from its octets.** -/
@[simp] theorem decode_encode (cs : List Char) : decode (encode cs) = cs := by
  induction cs with
  | nil => rfl
  | cons c cs ih =>
    show decode (encodeChar c ++ encode cs) = c :: cs
    rw [decode_encodeChar, ih]

end Utf8

/-! ## Written octets -/

namespace FormCoding

/-- Hexadecimal digits, one by one. -/
theorem hexValue?_hexDigit : ∀ n < 16, hexValue? (hexDigit n) = some n := by decide

/-- An octet that is kept is a character of its own, and none of the two signs of the coding. -/
theorem kept_eq : ∀ b < 256, isKept b = true →
    Utf8.encodeChar (Char.ofNat b) = [b] ∧ Char.ofNat b ≠ '+' ∧ Char.ofNat b ≠ '%' := by
  decide +kernel

/-- A character that separates nothing: no ampersand, no equals sign, no blank. -/
def isInner (c : Char) : Bool := c != '&' && c != '=' && !isBlank c

/-- An octet is coded without signs that mean something in a form. -/
theorem encodeOctet_inner : ∀ b < 256, (encodeOctet b).all isInner = true := by decide +kernel

/-- **One octet is read back**: it is kept, or a plus, or two hexadecimal digits. -/
theorem octets_encodeOctet {b : Nat} (hb : b < 256) (r : List Char) :
    octets (encodeOctet b ++ r) = b :: octets r := by
  unfold encodeOctet
  split
  · next hk =>
    obtain ⟨he, hplus, hpercent⟩ := kept_eq b hb hk
    rw [List.singleton_append, octets, he]
    · rfl
    · exact hplus
    · intro _ _ _ h
      exact absurd h hpercent
  · split
    · next hs =>
      rw [List.singleton_append, octets, hs]
    · -- both halves of an octet are below 16
      have hhigh : hexValue? (hexDigit (b / 16)) = some (b / 16) := hexValue?_hexDigit _ (by omega)
      have hlow : hexValue? (hexDigit (b % 16)) = some (b % 16) := hexValue?_hexDigit _ (by omega)
      simp only [List.cons_append, List.nil_append]
      rw [octets, hhigh, hlow]
      dsimp only
      rw [show b / 16 * 16 + b % 16 = b by omega]

/-- And so are all octets. -/
theorem octets_flatMap {bs : List Nat} (h : ∀ b ∈ bs, b < 256) :
    octets (bs.flatMap encodeOctet) = bs := by
  induction bs with
  | nil => rfl
  | cons b bs ih =>
    rw [List.flatMap_cons, octets_encodeOctet (h b List.mem_cons_self),
      ih fun x hx => h x (List.mem_cons_of_mem _ hx)]

theorem mem_encode_lt {cs : List Char} {b : Nat} (h : b ∈ Utf8.encode cs) : b < 256 := by
  obtain ⟨c, -, hb⟩ := List.mem_flatMap.1 h
  exact Utf8.mem_encodeChar_lt hb

/-- **A text is read back from its code.** -/
@[simp] theorem decodeChars_encodeChars (cs : List Char) : decodeChars (encodeChars cs) = cs := by
  rw [decodeChars, encodeChars, octets_flatMap fun _ => mem_encode_lt, Utf8.decode_encode]

/-! ## Separators -/

/-- A class that has the codes of all octets has all codes. -/
theorem forall_mem_encodeChars {p : Char → Bool} (hp : ∀ b < 256, (encodeOctet b).all p = true)
    {cs : List Char} {x : Char} (h : x ∈ encodeChars cs) : p x = true := by
  obtain ⟨b, hb, hx⟩ := List.mem_flatMap.1 h
  exact List.all_eq_true.1 (hp b (mem_encode_lt hb)) x hx

/-- **A code has no separator in it.** -/
theorem isInner_of_mem_encodeChars {cs : List Char} {x : Char} (h : x ∈ encodeChars cs) :
    isInner x = true :=
  forall_mem_encodeChars encodeOctet_inner h

/-- What means something in a form does not occur in a code. -/
theorem not_mem_encodeChars {c : Char} (hc : isInner c = false) (cs : List Char) :
    c ∉ encodeChars cs := by
  intro h
  rw [isInner_of_mem_encodeChars h] at hc
  exact Bool.noConfusion hc

theorem encodeChars_ne_nil {cs : List Char} (h : cs ≠ []) : encodeChars cs ≠ [] := by
  intro he
  have hback := decodeChars_encodeChars cs
  -- an empty code is read back as the empty text
  rw [he] at hback
  exact h hback.symm

/-- The codes of texts, joined to one form. -/
def joinCodes (xs : List (List Char)) : List Char := joinChars ['&'] (xs.map encodeChars)

/-- Between codes there are ampersands only. -/
theorem isInner_of_mem_joinCodes {xs : List (List Char)} {x : Char} (h : x ∈ joinCodes xs) :
    x = '&' ∨ isInner x = true := by
  rcases mem_of_mem_joinChars h with h | ⟨p, hp, hx⟩
  · exact .inl (List.mem_singleton.1 h)
  · obtain ⟨cs, -, rfl⟩ := List.mem_map.1 hp
    exact .inr (isInner_of_mem_encodeChars hx)

theorem isBlank_of_mem_joinCodes {xs : List (List Char)} {x : Char} (h : x ∈ joinCodes xs) :
    isBlank x = false := by
  rcases isInner_of_mem_joinCodes h with rfl | h
  · decide
  · simp only [isInner, Bool.and_eq_true, Bool.not_eq_true'] at h
    exact h.2

/-- **The fields of joined codes are the codes**, if none of them codes the empty text. -/
theorem fields_joinCodes {xs : List (List Char)} (full : ∀ x ∈ xs, x ≠ []) :
    fields (joinCodes xs) = xs.map encodeChars := by
  cases xs with
  | nil => rfl
  | cons x xs =>
    rw [fields, joinCodes, splitChars_joinChars (by simp)]
    · refine List.filter_eq_self.2 fun p hp => ?_
      obtain ⟨cs, hcs, rfl⟩ := List.mem_map.1 hp
      simp [encodeChars_ne_nil (full cs hcs)]
    · intro p hp
      obtain ⟨cs, -, rfl⟩ := List.mem_map.1 hp
      exact not_mem_encodeChars rfl cs

/-- No sign of equality occurs. -/
theorem contains_joinCodes (xs : List (List Char)) : (joinCodes xs).contains '=' = false := by
  rw [List.contains_eq_mem, decide_eq_false_iff_not]
  intro h
  rcases isInner_of_mem_joinCodes h with h | h <;> exact absurd h (by decide)

/-- **Of joined codes the first is decoded.** -/
theorem decodeFirst_joinCodes {x : List Char} {xs : List (List Char)} (full : ∀ y ∈ x :: xs, y ≠ []) :
    decodeFirst (joinCodes (x :: xs)) = x := by
  have hcut : cutAt (· == '=') (encodeChars x) = none :=
    cutAt_eq_none fun y hy => beq_eq_false_iff_ne.2 fun h =>
      not_mem_encodeChars (c := '=') rfl x (h ▸ hy)
  -- neither the first field nor the whole form has an equals sign
  rw [decodeFirst, fields_joinCodes full, List.map_cons]
  simp only [hcut, contains_joinCodes, Option.getD_none, Bool.false_eq_true, if_false]
  exact decodeChars_encodeChars x

/-- One code decodes to its text, empty or not. -/
theorem decodeFirst_encodeChars (x : List Char) : decodeFirst (encodeChars x) = x := by
  cases x with
  | nil => rfl
  | cons c cs =>
    show decodeFirst (joinCodes [c :: cs]) = c :: cs
    exact decodeFirst_joinCodes (by simp)

end FormCoding

end Tabletop.Text
