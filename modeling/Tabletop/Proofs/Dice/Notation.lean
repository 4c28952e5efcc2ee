import Tabletop.Proofs.Decimal.Reading
import Tabletop.Proofs.Dice.Limits
import Tabletop.Proofs.Text.Pieces

/-
  Dice notation is read back, but for one modifier.

  1. **Characters** — a written notation has no blanks and no capitals, so nothing is dropped or
     changed before it is cut (`compact_chars`).

  2. **Cutting** — a notation is cut in front of its signs.  Pools are written without one, so what comes
     out are the pools and the modifier that were written, each as a term (`signedTerms_chars`).

  3. **Terms** — every legal pool is read back (`addTerm_pool`).  A modifier is read as a sign and a
     size, and the size has to be a positive integer of 64 bits.  That is one less than there are below
     zero: the least modifier has a notation, `-9223372036854775808`, that is not read
     (`addTerm_least`).

  4. **Notations** — so what was read and is written again is read as the same, exactly if its modifier
     is another one than the least (`parse_display_iff`).
-/
namespace Tabletop.Dice

/-! ## Characters -/

/-- A number is written with digits. -/
theorem isDigit_of_mem_digitsOf {n : Nat} {c : Char} (h : c ∈ digitsOf n) : c.isDigit = true :=
  (Decimal.isDigits_iff.1 (Decimal.isDigits_toDigits n)).2 c h

section Class

variable {P : Char → Prop} (digit : ∀ c, c.isDigit = true → P c) (letter : P 'd' ∧ P 'k' ∧ P 'h' ∧ P 'l')
include digit letter

/-- The characters of the part that says what is kept. -/
theorem forall_mem_keep (k : Keep) : ∀ c ∈ k.chars, P c := by
  obtain ⟨-, hk, hh, hl⟩ := letter
  cases k with
  | all => exact nofun
  | highest n =>
    exact List.forall_mem_cons.2 ⟨hk, List.forall_mem_cons.2
      ⟨hh, fun c hc => digit c (isDigit_of_mem_digitsOf hc)⟩⟩
  | lowest n =>
    exact List.forall_mem_cons.2 ⟨hk, List.forall_mem_cons.2
      ⟨hl, fun c hc => digit c (isDigit_of_mem_digitsOf hc)⟩⟩

/-- A pool is written with digits and four letters. -/
theorem forall_mem_pool (p : Pool) : ∀ c ∈ p.chars, P c := by
  refine List.forall_mem_append.2 ⟨List.forall_mem_append.2 ⟨?_, ?_⟩, forall_mem_keep digit letter p.keep⟩
  · exact fun c hc => digit c (isDigit_of_mem_digitsOf hc)
  · exact List.forall_mem_cons.2 ⟨letter.1, fun c hc => digit c (isDigit_of_mem_digitsOf hc)⟩

/-- An expression is written with those and two signs. -/
theorem forall_mem_chars (sign : P '+' ∧ P '-') (ps : List Pool) (m : Int) :
    ∀ c ∈ poolChars ps ++ modifierChars m, P c := by
  refine List.forall_mem_append.2 ⟨?_, ?_⟩
  · induction ps with
    | nil => exact nofun
    | cons p ps ih =>
      cases ps with
      | nil => exact forall_mem_pool digit letter p
      | cons q ps =>
        exact List.forall_mem_append.2
          ⟨forall_mem_pool digit letter p, List.forall_mem_cons.2 ⟨sign.1, ih⟩⟩
  · unfold modifierChars
    split
    · exact nofun
    · split
      · exact List.forall_mem_cons.2 ⟨sign.1, fun c hc => digit c (isDigit_of_mem_digitsOf hc)⟩
      · exact List.forall_mem_cons.2 ⟨sign.2, fun c hc => digit c (isDigit_of_mem_digitsOf hc)⟩

end Class

/-- A character that stays as it is before a notation is cut: no blank, no capital, and of ASCII. -/
def IsPlain (c : Char) : Prop := Text.isBlank c = false ∧ lowerLetter c = c ∧ c.toNat < 128

instance (c : Char) : Decidable (IsPlain c) := inferInstanceAs (Decidable (_ ∧ _))

/-- Digits are no blanks, have no capitals, and have seven bits. -/
theorem isPlain_of_isDigit (c : Char) (h : c.isDigit = true) : IsPlain c := by
  have hc : 48 ≤ c.toNat ∧ c.toNat ≤ 57 := Char.isDigit_iff_toNat.1 h
  refine ⟨?_, ?_, by omega⟩
  · cases hblank : Text.isBlank c with
    | false => rfl
    | true =>
      simp only [Text.isBlank, Bool.or_eq_true, Bool.and_eq_true, decide_eq_true_eq, beq_iff_eq] at hblank
      omega
  · rw [lowerLetter, if_neg (by omega)]
    refine dif_neg ?_
    rintro ⟨hle, -⟩
    have hle : 65 ≤ c.toNat := hle
    omega

/-- So all of the notation is plain. -/
theorem isPlain_of_mem_chars (ps : List Pool) (m : Int) : ∀ c ∈ poolChars ps ++ modifierChars m, IsPlain c :=
  forall_mem_chars isPlain_of_isDigit ⟨by decide, by decide, by decide, by decide⟩ ⟨by decide, by decide⟩ ps m

/-- **Nothing of a written notation is dropped or changed.** -/
theorem compact_of_isPlain {cs : List Char} (h : ∀ c ∈ cs, IsPlain c) : compact cs = cs := by
  have hkept : cs.filter (!Text.isBlank ·) = cs :=
    List.filter_eq_self.2 fun c hc => by rw [(h c hc).1, Bool.not_false]
  have hcase : cs.map lowerLetter = cs.map id := List.map_congr_left fun c hc => (h c hc).2.1
  rw [compact, hkept, hcase, List.map_id]

/-! ## Cutting -/

/-- The modifier as a term; zero is not written. -/
def modifierTerms (m : Int) : List (Bool × List Char) :=
  if m = 0 then [] else [(decide (m < 0), digitsOf m.natAbs)]

/-- What stands in front of the first sign is not cut. -/
theorem cutTerms_append {cs : List Char} (h : ∀ c ∈ cs, isSign c = false) (rest : List Char) :
    cutTerms (cs ++ rest) = (cs ++ (cutTerms rest).1, (cutTerms rest).2) := by
  induction cs with
  | nil => rfl
  | cons c cs ih =>
    rw [List.forall_mem_cons] at h
    rw [List.cons_append, cutTerms, ih h.2]
    exact if_neg (Bool.eq_false_iff.1 h.1)

/-- A sign ends a term and begins the next one. -/
theorem cutTerms_sign {c : Char} (h : isSign c = true) (rest : List Char) :
    cutTerms (c :: rest) = ([], (c == '-', (cutTerms rest).1) :: (cutTerms rest).2) := by
  rw [cutTerms]
  exact if_pos h

/-- No digit is a sign. -/
theorem isSign_of_isDigit (c : Char) (h : c.isDigit = true) : isSign c = false := by
  have hc : 48 ≤ c.toNat ∧ c.toNat ≤ 57 := Char.isDigit_iff_toNat.1 h
  cases hsign : isSign c with
  | false => rfl
  | true =>
    rw [isSign, Bool.or_eq_true] at hsign
    rcases hsign with hsign | hsign
    all_goals
      rw [eq_of_beq hsign] at hc
      exact absurd hc (by decide)

/-- So digits are one term. -/
theorem cutTerms_digitsOf (n : Nat) : cutTerms (digitsOf n) = (digitsOf n, []) := by
  have hcut := cutTerms_append (fun c hc => isSign_of_isDigit c (isDigit_of_mem_digitsOf (n := n) hc)) []
  rw [List.append_nil] at hcut
  rw [hcut, cutTerms, List.append_nil]

/-- The modifier is one term, or none if it is zero. -/
theorem cutTerms_modifierChars (m : Int) : cutTerms (modifierChars m) = ([], modifierTerms m) := by
  unfold modifierChars modifierTerms
  split
  · rfl
  · next hzero =>
    split
    · -- a plus stands in front of the digits, or a minus
      next hpos =>
      rw [cutTerms_sign (by decide), cutTerms_digitsOf, decide_eq_false (by omega)]
      rfl
    · next hneg =>
      rw [cutTerms_sign (by decide), cutTerms_digitsOf, decide_eq_true (by omega)]
      rfl

/-- A pool is not cut. -/
theorem cutTerms_pool (p : Pool) (rest : List Char) :
    cutTerms (p.chars ++ rest) = (p.chars ++ (cutTerms rest).1, (cutTerms rest).2) :=
  cutTerms_append (forall_mem_pool isSign_of_isDigit ⟨by decide, by decide, by decide, by decide⟩ p) rest

/-- The pools and the modifier are the terms of the notation. -/
theorem cutTerms_chars (p : Pool) (ps : List Pool) (m : Int) :
    cutTerms (poolChars (p :: ps) ++ modifierChars m) =
      (p.chars, ps.map (fun p => (false, p.chars)) ++ modifierTerms m) := by
  induction ps generalizing p with
  | nil =>
    show cutTerms (p.chars ++ modifierChars m) = _
    rw [cutTerms_pool, cutTerms_modifierChars, List.append_nil]
    rfl
  | cons q ps ih =>
    -- cut at the plus; behind it stands a notation with one pool less
    show cutTerms (p.chars ++ '+' :: poolChars (q :: ps) ++ modifierChars m) = _
    rw [List.append_assoc, List.cons_append, cutTerms_pool, cutTerms_sign (by decide), ih, List.append_nil]
    rfl

/-- **A written notation is cut into its pools and its modifier.** -/
theorem signedTerms_chars {ps : List Pool} (h : ps ≠ []) (m : Int) :
    signedTerms (poolChars ps ++ modifierChars m) =
      ps.map (fun p => (false, p.chars)) ++ modifierTerms m := by
  obtain ⟨p, ps, rfl⟩ := List.exists_cons_of_ne_nil h
  have hsome : p.chars.isEmpty = false := by
    rw [List.isEmpty_eq_false_iff, Pool.chars]
    simp
  rw [signedTerms, cutTerms_chars]
  dsimp only
  rw [hsome]
  rfl

/-! ## Terms -/

/-- A number below the bound is read back. -/
theorem readBelow?_digitsOf {bound n : Nat} (h : n < bound) : readBelow? bound (digitsOf n) = some n := by
  have hvalue : Nat.ofDigitChars 10 (digitsOf n) 0 = n := Nat.ofDigitChars_ten_toDigits
  rw [readBelow?, hvalue, digitsOf, Decimal.isDigits_toDigits, Bool.true_and, if_pos (decide_eq_true h)]

/-- What has something else in it is no number. -/
theorem readBelow?_of_not_isDigit {bound : Nat} {c : Char} {cs : List Char} (hmem : c ∈ cs)
    (hc : c.isDigit = false) : readBelow? bound cs = none := by
  rw [readBelow?, if_neg]
  rw [Bool.and_eq_true, Decimal.isDigits_iff]
  rintro ⟨⟨-, hdigits⟩, -⟩
  rw [hdigits c hmem] at hc
  cases hc

/-- What is kept is read back. -/
theorem readKeep?_chars {keep : Keep} {count : Nat} (hcount : count < 2 ^ 32) (h : keep.size count ≤ count) :
    readKeep? keep.chars = some keep := by
  cases keep with
  | all => rfl
  | highest n =>
    have hn : n ≤ count := h
    show (readBelow? (2 ^ 32) (digitsOf n)).map Keep.highest = _
    rw [readBelow?_digitsOf (by omega)]
    rfl
  | lowest n =>
    have hn : n ≤ count := h
    show (readBelow? (2 ^ 32) (digitsOf n)).map Keep.lowest = _
    rw [readBelow?_digitsOf (by omega)]
    rfl

/-- Digits are read up to the first character that is none. -/
theorem spanDigits_digitsOf (n : Nat) {rest : List Char} (h : ∀ c ∈ rest.head?, c.isDigit = false) :
    (digitsOf n ++ rest).takeWhile Char.isDigit = digitsOf n ∧
      (digitsOf n ++ rest).dropWhile Char.isDigit = rest :=
  Text.takeWhile_append_of_stop (fun _ hc => isDigit_of_mem_digitsOf hc) h

/-- **A legal pool is read back.** -/
theorem readPool?_chars {p : Pool} (h : p.Legal) : readPool? p.chars = some (p.count, p.sides, p.keep) := by
  have hcount : p.count < 2 ^ 32 := Nat.lt_of_le_of_lt h.count_le (by decide)
  have hsides : p.sides < 2 ^ 32 := Nat.lt_of_le_of_lt h.sides_le (by decide)
  have hchars : p.chars = digitsOf p.count ++ 'd' :: (digitsOf p.sides ++ p.keep.chars) :=
    List.append_assoc _ _ _
  have hsome : (digitsOf p.count).isEmpty = false := List.isEmpty_eq_false_iff.2 Nat.toDigits_ne_nil
  -- the number of sides ends at the letter for what is kept, or at the end of the pool
  have hstop : ∀ c ∈ p.keep.chars.head?, c.isDigit = false := by
    cases p.keep with
    | all => exact nofun
    | highest n =>
      rintro c ⟨⟩
      rfl
    | lowest n =>
      rintro c ⟨⟩
      rfl
  have hd : ∀ c ∈ ('d' :: (digitsOf p.sides ++ p.keep.chars)).head?, c.isDigit = false := by
    rintro c ⟨⟩
    rfl
  -- the number of dice ends at the letter
  obtain ⟨hfront, hback⟩ := spanDigits_digitsOf p.count hd
  obtain ⟨hmiddle, hend⟩ := spanDigits_digitsOf p.sides hstop
  rw [hchars, readPool?, hfront, hback, hsome]
  dsimp only
  rw [if_neg Bool.false_ne_true, readBelow?_digitsOf hcount]
  show (do
    let sides ← readBelow? (2 ^ 32) ((digitsOf p.sides ++ p.keep.chars).takeWhile Char.isDigit)
    let keep ← readKeep? ((digitsOf p.sides ++ p.keep.chars).dropWhile Char.isDigit)
    pure (p.count, sides, keep)) = some (p.count, p.sides, p.keep)
  rw [hmiddle, hend, readBelow?_digitsOf hsides, readKeep?_chars hcount h.keep_le]
  rfl

variable (source : String)

/-- A legal pool is put behind the pools that were read. -/
theorem addTerm_pool {p : Pool} (h : p.Legal) (e : Expression) :
    addTerm source e (false, p.chars) = .ok { e with pools := e.pools ++ [p] } := by
  have hd : 'd' ∈ p.chars := by
    rw [Pool.chars]
    simp
  have hpool : (Pool.make p.count p.sides >>= (·.keeping p.keep)) = .ok p :=
    Pool.make_keeping_eq_ok.2 ⟨rfl, h⟩
  rw [addTerm, readBelow?_of_not_isDigit hd (by decide), readPool?_chars h]
  dsimp only
  rw [if_neg Bool.false_ne_true, ← bind_assoc, hpool]
  rfl

/-- The terms of the pools add the pools. -/
theorem foldlM_pools {ps : List Pool} (h : ∀ p ∈ ps, p.Legal) (e : Expression) :
    (ps.map fun p => (false, p.chars)).foldlM (addTerm source) e =
      .ok { e with pools := e.pools ++ ps } := by
  induction ps generalizing e with
  | nil =>
    rw [List.append_nil]
    rfl
  | cons p ps ih =>
    obtain ⟨hp, hps⟩ := List.forall_mem_cons.1 h
    rw [List.map_cons, List.foldlM_cons, addTerm_pool source hp]
    show (ps.map _).foldlM _ _ = _
    rw [ih hps, List.append_assoc]
    rfl

/-- The least integer of 64 bits. -/
def leastModifier : Int := -2 ^ 63

/-- **A modifier is read back**, if it is not the least one. -/
theorem foldlM_modifier {m : Int} (hword : Decimal.InWord m) (hm : m ≠ leastModifier) (ps : List Pool) :
    (modifierTerms m).foldlM (addTerm source) ⟨ps, 0⟩ = .ok ⟨ps, m⟩ := by
  unfold modifierTerms
  split
  · next hzero =>
    rw [hzero]
    rfl
  · -- only the least modifier has a magnitude out of the range
    have hsize : m.natAbs < 2 ^ 63 := by
      obtain ⟨hlow, hhigh⟩ := hword
      unfold leastModifier at hm
      omega
    have hsum : addWord 0 (if decide (m < 0) = true then -(m.natAbs : Int) else m.natAbs) = .ok m := by
      refine addWord_eq_ok.2 ⟨?_, hword⟩
      by_cases hneg : m < 0
      · rw [if_pos (decide_eq_true hneg)]
        omega
      · rw [if_neg (by rwa [decide_eq_true_eq])]
        omega
    rw [List.foldlM_cons, addTerm, readBelow?_digitsOf hsize]
    dsimp only
    rw [hsum]
    rfl

/-- **The least modifier is not read back.** -/
theorem foldlM_leastModifier (e : Expression) :
    (modifierTerms leastModifier).foldlM (addTerm source) e = .error (.malformed source) := by
  have hterms : modifierTerms leastModifier = [(true, digitsOf (2 ^ 63))] := by decide
  have hsize : readBelow? (2 ^ 63) (digitsOf (2 ^ 63)) = none := by decide
  have hpool : readPool? (digitsOf (2 ^ 63)) = none := by decide
  -- too large for an integer, and without a letter it is no pool either
  rw [hterms, List.foldlM_cons, addTerm]
  dsimp only
  rw [hsize]
  dsimp only
  rw [hpool]
  rfl

/-! ## Notations -/

/-- The notation is that of the pools, and that of the modifier behind them. -/
theorem toList_display (e : Expression) :
    e.display.toList = poolChars e.pools ++ modifierChars e.modifier := String.toList_ofList

/-- It is compact already. -/
theorem compact_display (e : Expression) : compact e.display.toList = e.display.toList := by
  rw [toList_display]
  exact compact_of_isPlain (isPlain_of_mem_chars e.pools e.modifier)

/-- And it has characters of seven bits only. -/
theorem ascii_display (e : Expression) : (compact e.display.toList).all (·.toNat < 128) = true := by
  rw [compact_display, toList_display, List.all_eq_true]
  exact fun c hc => decide_eq_true (isPlain_of_mem_chars e.pools e.modifier c hc).2.2

/-- There is nothing to be trimmed. -/
theorem trim_display (e : Expression) : Text.trim e.display = e.display := by
  have hblank : ∀ c ∈ e.display.toList, Text.isBlank c = false := by
    rw [toList_display]
    exact fun c hc => (isPlain_of_mem_chars e.pools e.modifier c hc).1
  have htrimmed : Text.Trimmed e.display.toList :=
    ⟨fun c hc => hblank c (List.mem_of_mem_head? hc), fun c hc => hblank c (List.mem_of_mem_getLast? hc)⟩
  exact htrimmed.trim_eq

/-- Of the notation of a legal expression all pools are read, and then the modifier. -/
theorem terms_display {e : Expression} (h : e.Legal) :
    (signedTerms (compact e.display.toList)).foldlM (addTerm (Text.trim e.display)) ⟨[], 0⟩ =
      (modifierTerms e.modifier).foldlM (addTerm e.display) ⟨e.pools, 0⟩ := by
  rw [compact_display, trim_display, toList_display, signedTerms_chars h.pools_ne_nil, List.foldlM_append,
    foldlM_pools e.display h.pools]
  rfl

/-- A legal expression is read back, unless its modifier is the least one. -/
theorem parse_display_of_ne {e : Expression} (h : e.Legal) (hm : e.modifier ≠ leastModifier) :
    Expression.parse e.display = .ok e := by
  refine Expression.parse_eq_ok.2 ⟨ascii_display e, ?_, h.pools_ne_nil, h.count_le⟩
  rw [terms_display h, foldlM_modifier e.display h.modifier hm]

/-- The least modifier has no magnitude in the range, and so its notation is refused. -/
theorem parse_display_of_least {e : Expression} (h : e.Legal) (hm : e.modifier = leastModifier) :
    Expression.parse e.display = .error (.malformed e.display) := by
  refine Expression.parse_eq_error_of_terms (ascii_display e) ?_
  rw [terms_display h, hm, foldlM_leastModifier]

/-- **Dice notation is read back but for one modifier.**  An expression that was read and is written
    again is read as the same expression exactly if its modifier is not the least integer of 64 bits;
    with that modifier, what is written is no notation. -/
theorem parse_display_iff {source : String} {e : Expression} (h : Expression.parse source = .ok e) :
    (Expression.parse e.display = .ok e ↔ e.modifier ≠ -2 ^ 63) ∧
    (e.modifier = -2 ^ 63 → Expression.parse e.display = .error (.malformed e.display)) := by
  have hlegal := Expression.legal_of_parse h
  refine ⟨⟨?_, parse_display_of_ne hlegal⟩, parse_display_of_least hlegal⟩
  intro hread hm
  rw [parse_display_of_least hlegal hm] at hread
  cases hread

/-- Pools on both sides of modifiers, with a choice, a capital, blanks and zeros in front. -/
theorem parse_display_iff_volley :
    Expression.parse " -1 + D20+04d6 KL1 - 2" = .ok ⟨[⟨1, 20, .all⟩, ⟨4, 6, .lowest 1⟩], -3⟩ ∧
    (⟨[⟨1, 20, .all⟩, ⟨4, 6, .lowest 1⟩], -3⟩ : Expression).display = "1d20+4d6kl1-3" ∧
    Expression.parse "1d20+4d6kl1-3" = .ok ⟨[⟨1, 20, .all⟩, ⟨4, 6, .lowest 1⟩], -3⟩ := by
  have hparse : Expression.parse " -1 + D20+04d6 KL1 - 2" =
      .ok ⟨[⟨1, 20, .all⟩, ⟨4, 6, .lowest 1⟩], -3⟩ := by rfl
  have hdisplay : (⟨[⟨1, 20, .all⟩, ⟨4, 6, .lowest 1⟩], -3⟩ : Expression).display = "1d20+4d6kl1-3" := by rfl
  refine ⟨hparse, hdisplay, ?_⟩
  rw [← hdisplay]
  exact (parse_display_iff hparse).1.2 (by decide)

/-- **The least modifier is lost**: it can be reached by a sum, and is then written as one term. -/
theorem least_modifier_not_read :
    ¬∀ source e, Expression.parse source = .ok e → Expression.parse e.display = .ok e := by
  intro h
  have hparse : Expression.parse "1d6-9223372036854775807-1" = .ok ⟨[⟨1, 6, .all⟩], -2 ^ 63⟩ := by rfl
  have hread := h _ _ hparse
  rw [parse_display_of_least (Expression.legal_of_parse hparse) rfl] at hread
  cases hread

end Tabletop.Dice
