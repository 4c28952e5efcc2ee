import Tabletop.Campaign.TokenId

/-
  Ids are read as they were written.

  1. **Digits** — the digits are those of the number, and the reader gathers them from the most
     significant one on.  After `k` digits it has the number without its last `32 - k` digits
     (`foldlM_digits`).

  2. **Groups** — the hyphens stand where the reader looks for them, and it takes the digits around
     them out again (`ofGroups?_join`).

  3. **Other forms** — the written form has 36 characters and starts with a digit, so it is taken for
     none of them.
-/
namespace Tabletop.TokenId

/-! ## Digits -/

theorem length_digits (id : TokenId) : id.digits.length = 32 := by
  rw [digits, List.length_map, List.length_range]

theorem hexValue?_digitChar : ∀ n < 16, hexValue? (Nat.digitChar n) = some n := by decide

/-- **The digits that have been read** are the number without the digits that are left. -/
theorem foldlM_digits (n k : Nat) (hk : k ≤ 32) (hn : n < 16 ^ 32) :
    ((List.range k).map fun i => Nat.digitChar (n / 16 ^ (31 - i) % 16)).foldlM
      (fun m c => (hexValue? c).map (m * 16 + ·)) 0 = some (n / 16 ^ (32 - k)) := by
  induction k with
  | zero =>
    rw [Nat.sub_zero, Nat.div_eq_of_lt hn]
    rfl
  | succ k ih =>
    have hdigit : hexValue? (Nat.digitChar (n / 16 ^ (31 - k) % 16)) = some (n / 16 ^ (31 - k) % 16) :=
      hexValue?_digitChar _ (Nat.mod_lt _ (by decide))
    have hplace : 32 - k = (31 - k) + 1 := by omega
    have hlast : 32 - (k + 1) = 31 - k := by omega
    have hsum : n / 16 ^ (32 - k) * 16 + n / 16 ^ (31 - k) % 16 = n / 16 ^ (31 - k) := by
      rw [hplace, Nat.pow_succ, ← Nat.div_div_eq_div_mul]
      exact Nat.div_add_mod' _ 16
    rw [List.range_succ, List.map_append, List.foldlM_append, ih (by omega), hlast]
    show (hexValue? (Nat.digitChar (n / 16 ^ (31 - k) % 16))).map _ >>= _ = _
    rw [hdigit]
    exact congrArg some hsum

/-- **The digits of an id are read as the id.** -/
theorem ofDigits?_digits (id : TokenId) : ofDigits? id.digits = some id := by
  have hfold := foldlM_digits id.bits.toNat 32 (Nat.le_refl _) id.bits.isLt
  rw [Nat.sub_self, Nat.pow_zero, Nat.div_one] at hfold
  rw [ofDigits?, if_pos id.length_digits, digits, hfold, Option.map_some, BitVec.ofNat_toNat]
  rfl

/-! ## Groups -/

/-- Groups that are joined with hyphens are taken apart again. -/
theorem ofGroups?_join {a b c d e : List Char} (ha : a.length = 8) (hb : b.length = 4)
    (hc : c.length = 4) (hd : d.length = 4) (he : e.length = 12) :
    ofGroups? (a ++ '-' :: b ++ '-' :: c ++ '-' :: d ++ '-' :: e) = ofDigits? (a ++ b ++ c ++ d ++ e) := by
  simp [ofGroups?, List.drop_append, List.drop_eq_nil_of_le, ha, hb, hc, hd, he]

/-! ## Other forms -/

/-- The first character is a digit, which starts neither an address nor a pair of braces. -/
theorem exists_chars (id : TokenId) :
    ∃ c cs, id.chars = c :: cs ∧ c ≠ 'u' ∧ c ≠ '\x7b' := by
  have hdigit : ∀ n < 16, Nat.digitChar n ≠ 'u' ∧ Nat.digitChar n ≠ '\x7b' := by decide
  exact ⟨_, _, rfl, hdigit _ (Nat.mod_lt _ (by decide))⟩

/-- The groups are all the digits. -/
theorem groups_digits (id : TokenId) :
    id.digits.take 8 ++ (id.digits.drop 8).take 4 ++ (id.digits.drop 12).take 4 ++
      (id.digits.drop 16).take 4 ++ id.digits.drop 20 = id.digits := by
  have group (i k : Nat) :
      (id.digits.drop i).take k ++ id.digits.drop (i + k) = id.digits.drop i := by
    rw [← List.drop_drop, List.take_append_drop]
  rw [List.append_assoc, List.append_assoc, List.append_assoc, group 16 4, group 12 4, group 8 4,
    List.take_append_drop]

/-- **An id is read as it was written.** -/
theorem ofChars?_chars (id : TokenId) : ofChars? id.chars = some id := by
  have hdigits := id.length_digits
  have hlength : id.chars.length = 36 := by simp [chars, hdigits]
  have hgroups : ofGroups? id.chars = some id := by
    rw [chars, ofGroups?_join (by simp [hdigits]) (by simp [hdigits]) (by simp [hdigits])
      (by simp [hdigits]) (by simp [hdigits]), groups_digits, ofDigits?_digits]
  obtain ⟨c, cs, hcs, hu, hbrace⟩ := id.exists_chars
  have hurn : urn.isPrefixOf id.chars = false := by
    rw [hcs, urn, List.isPrefixOf, beq_false_of_ne (Ne.symm hu), Bool.false_and]
  have hbraces : ¬(id.chars.head? = some '\x7b' ∧ id.chars.getLast? = some '\x7d') := by
    rw [hcs]
    exact fun h => hbrace (Option.some.inj h.1)
  rw [ofChars?, if_neg (by rw [hlength]; decide), hurn, if_neg Bool.false_ne_true, if_neg hbraces, hgroups]

end Tabletop.TokenId
