import Tabletop.Proofs.Decimal.Reading
import Tabletop.Proofs.Expr.Printer

/-
  Written tokens are read back.

  1. **Words** — numbers, names and dice have word characters all through, and none of these stands
     behind them.  So each is cut out as a whole, and then told from the other two by its shape.

  2. **Quoted texts** — every quote inside is behind a backslash, so the first quote that the reader
     sees without one is the closing one (`readQuoted_quoted`).

  3. **Lines** — one token is read back whatever stands behind its end (`read_chars`).  From that, by
     induction on what is behind the first token, a line and then all lines (`scan_write`).
-/
namespace Tabletop.Lexeme

/-! ## Words -/

/-- Digits may stand in words. -/
theorem isAlphanum_of_isDigit {c : Char} (h : c.isDigit = true) : c.isAlphanum = true := by
  rw [Char.isAlphanum, h, Bool.or_true]

/-- So may a letter whose lower case may. -/
theorem isAlphanum_of_toLower {c : Char} (h : c.toLower.isAlphanum = true) : c.isAlphanum = true := by
  unfold Char.toLower at h
  split at h
  · next hbounds =>
    have hupper : c.isUpper = true := decide_eq_true hbounds
    show (c.isUpper || c.isLower || c.isDigit) = true
    rw [hupper]
    rfl
  · exact h

/-- A word may begin with a digit. -/
theorem startsWord_of_isDigit {c : Char} (h : c.isDigit = true) : startsWord c = true := by
  rw [startsWord, isAlphanum_of_isDigit h, Bool.true_or]

/-- What may begin a word may go on with it. -/
theorem continuesWord_of_startsWord {c : Char} (h : startsWord c = true) : continuesWord c = true := by
  rw [continuesWord, h, Bool.true_or]

/-- No word starts with a blank. -/
theorem isBlank_of_startsWord {c : Char} (h : startsWord c = true) : Text.isBlank c = false := by
  -- words begin with characters of seven bits, between the digits and the small letters
  have hbounds : 48 ≤ c.toNat ∧ c.toNat ≤ 122 := by
    rw [startsWord, Bool.or_eq_true, beq_iff_eq] at h
    rcases h with h | rfl
    · change (c.isUpper || c.isLower || c.isDigit) = true at h
      rw [Bool.or_eq_true, Bool.or_eq_true] at h
      rcases h with (h | h) | h
      · have hupper : 65 ≤ c.toNat ∧ c.toNat ≤ 90 := of_decide_eq_true h
        omega
      · change (decide ('a'.val ≤ c.val) && decide (c.val ≤ 'z'.val)) = true at h
        rw [Bool.and_eq_true, decide_eq_true_eq, decide_eq_true_eq] at h
        have hlower : 97 ≤ c.toNat ∧ c.toNat ≤ 122 := h
        omega
      · have hdigit : 48 ≤ c.toNat ∧ c.toNat ≤ 57 := Char.isDigit_iff_toNat.1 h
        omega
    · decide
  simp only [Text.isBlank, Bool.or_eq_false_iff, Bool.and_eq_false_iff, decide_eq_false_iff_not,
    beq_eq_false_iff_ne]
  omega

/-- Dice are written with letters and digits. -/
theorem isAlphanum_of_mem_dice {w : List Char} (h : isDiceWord w = true) {c : Char} (hc : c ∈ w) :
    c.isAlphanum = true := by
  refine isAlphanum_of_toLower ?_
  have hlower : c.toLower ∈ w.map Char.toLower := List.mem_map_of_mem hc
  have hdigits {cs : List Char} (hx : c.toLower ∈ cs.takeWhile Char.isDigit) :
      c.toLower.isAlphanum = true :=
    isAlphanum_of_isDigit (List.all_eq_true.1 List.all_takeWhile _ hx)
  have hkeep {x : Char} {n : List Char} (hletter : x.isAlphanum = true) (hn : Decimal.isDigits n = true)
      (hx : c.toLower ∈ 'k' :: x :: n) : c.toLower.isAlphanum = true := by
    rw [List.mem_cons, List.mem_cons] at hx
    rcases hx with hx | hx | hx
    · rw [hx]
      rfl
    · rw [hx]
      exact hletter
    · exact isAlphanum_of_isDigit ((Decimal.isDigits_iff.1 hn).2 _ hx)
  -- the parts in the order of the shape: digits, `d`, digits, and perhaps which dice to keep
  rw [← List.takeWhile_append_dropWhile (p := Char.isDigit) (l := w.map Char.toLower),
    List.mem_append] at hlower
  unfold isDiceWord at h
  split at h
  · next cs hcs =>
    rw [Bool.and_eq_true] at h
    rw [hcs, List.mem_cons, ← List.takeWhile_append_dropWhile (p := Char.isDigit) (l := cs),
      List.mem_append] at hlower
    rcases hlower with hx | hx | hx | hx
    · exact hdigits hx
    · rw [hx]
      rfl
    · exact hdigits hx
    · obtain ⟨-, h⟩ := h
      split at h
      · next hrest =>
        rw [hrest] at hx
        exact absurd hx List.not_mem_nil
      · next n hrest => exact hkeep (by decide) h (hrest ▸ hx)
      · next n hrest => exact hkeep (by decide) h (hrest ▸ hx)
      · cases h
  · cases h

/-- A word that no `d` or `D` is in has not the shape of dice. -/
theorem isDiceWord_of_not_mem {w : List Char} (h : 'd' ∉ w.map Char.toLower) : isDiceWord w = false := by
  unfold isDiceWord
  split
  · next cs hcs =>
    have hmem : 'd' ∈ (w.map Char.toLower).dropWhile Char.isDigit := hcs ▸ List.mem_cons_self
    exact absurd ((List.dropWhile_sublist _).mem hmem) h
  · rfl

/-- No number has the shape of dice. -/
theorem isDiceWord_renderChars {d : Decimal} (h : 0 ≤ d.coefficient) : isDiceWord d.renderChars = false := by
  refine isDiceWord_of_not_mem fun hmem => ?_
  obtain ⟨c, hc, hlower⟩ := List.mem_map.1 hmem
  rw [Decimal.renderChars, if_neg (Int.not_lt.2 h), List.nil_append] at hc
  rcases Decimal.mem_placedDigits hc with hdigit | rfl
  · have hsame : c.toLower = c := by
      have hbounds : 48 ≤ c.toNat ∧ c.toNat ≤ 57 := Char.isDigit_iff_toNat.1 hdigit
      -- digits come before all capital letters
      unfold Char.toLower
      rw [dif_neg]
      rintro ⟨hge, -⟩
      change 65 ≤ c.toNat at hge
      omega
    rw [← hsame, hlower] at hdigit
    exact absurd hdigit (by decide)
  · exact absurd hlower (by decide)

/-- What may stand behind a token: a space or a semicolon, or the text ends. -/
def Ends (r : List Char) : Prop := ∀ c ∈ r.head?, c = ' ' ∨ c = ';'

/-- A token is read back, whatever stands behind its end. -/
def IsRead (t : Lexeme) : Prop :=
  ∀ r, Ends r → ∃ c cs, t.chars ++ r = c :: cs ∧ Text.isBlank c = false ∧ read c cs = .ok (t, r)

/-- What ends a token ends a word. -/
theorem continuesWord_of_ends {r : List Char} (hr : Ends r) : ∀ c ∈ r.head?, continuesWord c = false := by
  intro c hc
  rcases hr c hc with rfl | rfl
  · rfl
  · rfl

/-- **A word is cut out as a whole.** -/
theorem isRead_word {t : Lexeme} {c : Char} {cs : List Char} (hchars : t.chars = c :: cs)
    (hstart : startsWord c = true) (hword : ∀ x ∈ cs, continuesWord x = true)
    (hof : ofWord t.chars = .ok t) : t.IsRead := by
  intro r hr
  obtain ⟨htake, hdrop⟩ := Text.takeWhile_append_of_stop hword (continuesWord_of_ends hr)
  have hquote : ¬(c = '"' ∨ c = '\'') := by
    rintro (rfl | rfl)
    · exact absurd hstart (by decide)
    · exact absurd hstart (by decide)
  refine ⟨c, cs ++ r, by rw [hchars]; rfl, isBlank_of_startsWord hstart, ?_⟩
  rw [read, if_neg hquote, if_pos hstart, htake, hdrop, ← hchars, hof]
  rfl

/-- A number that is not negative is one word, and no dice. -/
theorem isRead_number {d : Decimal} (fits : d.Fits) (sign : 0 ≤ d.coefficient) : (number d).IsRead := by
  have hchars : (number d).chars = Decimal.placedDigits d.coefficient.natAbs d.scale := by
    rw [chars, Decimal.renderChars, if_neg (Int.not_lt.2 sign), List.nil_append]
  obtain ⟨c, cs, hcs, hdigit⟩ := Decimal.exists_cons_placedDigits d.coefficient.natAbs d.scale
  -- behind the first digit there are digits and the point
  have hword : ∀ x ∈ cs, continuesWord x = true := by
    intro x hx
    have hmem : x ∈ Decimal.placedDigits d.coefficient.natAbs d.scale := hcs ▸ List.mem_cons_of_mem c hx
    rcases Decimal.mem_placedDigits hmem with h | rfl
    · exact continuesWord_of_startsWord (startsWord_of_isDigit h)
    · rfl
  refine isRead_word (hchars.trans hcs) (startsWord_of_isDigit hdigit) hword ?_
  have hhead : (number d).chars.head?.any Char.isDigit = true := by rw [hchars, hcs]; exact hdigit
  have hread : Decimal.readSigned? (number d).chars = some d := Decimal.readSigned?_renderChars fits
  rw [ofWord, if_neg (by rw [chars, isDiceWord_renderChars sign]; decide), if_pos hhead, hread]

/-- Dice are one word. -/
theorem isRead_dice {s : String} (shape : isDiceWord s.toList = true) : (dice s).IsRead := by
  obtain ⟨c, cs, hcs⟩ : ∃ c cs, s.toList = c :: cs := by
    cases hs : s.toList with
    | nil =>
      rw [hs] at shape
      cases shape
    | cons c cs => exact ⟨c, cs, rfl⟩
  have hstart : ∀ x ∈ s.toList, startsWord x = true := by
    intro x hx
    rw [startsWord, isAlphanum_of_mem_dice shape hx, Bool.true_or]
  refine isRead_word hcs (hstart c (hcs ▸ List.mem_cons_self)) (fun x hx => ?_) ?_
  · exact continuesWord_of_startsWord (hstart x (hcs ▸ List.mem_cons_of_mem c hx))
  · rw [ofWord, chars, if_pos shape, String.ofList_toList]

/-- A name is one word, which begins with no digit and is no dice. -/
theorem isRead_name {x : String} (h : IsName x) : (name x).IsRead := by
  obtain ⟨hhead, hword, hdice⟩ := h
  rw [List.all_eq_true] at hword
  cases hx : x.toList with
  | nil =>
    rw [hx] at hhead
    cases hhead
  | cons c cs =>
    rw [hx, List.head?_cons, Option.any_some, Bool.and_eq_true, Bool.not_eq_true'] at hhead
    refine isRead_word hx hhead.1 (fun y hy => hword y (hx ▸ List.mem_cons_of_mem c hy)) ?_
    -- it begins with no digit, so it is no number
    have hdigit : x.toList.head?.any Char.isDigit = false := by
      rw [hx]
      exact hhead.2
    rw [ofWord, chars, hdice, hdigit, String.ofList_toList]
    rfl

/-! ## Quoted texts -/

/-- A character between quotes is read back, with its escape if it has one. -/
theorem readQuoted_quotedChar (c : Char) (r : List Char) :
    readQuoted '"' (quotedChar c ++ r) = (readQuoted '"' r).map fun p => (c :: p.1, p.2) := by
  unfold quotedChar
  split
  · next h =>
    rcases h with rfl | rfl
    · rfl
    · rfl
  · next h =>
    obtain ⟨hslash, hquote⟩ := not_or.1 h
    rw [List.singleton_append, readQuoted, if_neg hquote]
    intro x xs hc _
    exact hslash hc

/-- **A quoted text is read back**, up to its closing quote. -/
theorem readQuoted_quoted (cs r : List Char) :
    readQuoted '"' (cs.flatMap quotedChar ++ '"' :: r) = some (cs, r) := by
  induction cs with
  | nil => rfl
  | cons c cs ih =>
    rw [List.flatMap_cons, List.append_assoc, readQuoted_quotedChar, ih]
    rfl

/-- A quoted text is read up to its own closing quote. -/
theorem isRead_quoted (s : String) : (quoted s).IsRead := by
  intro r hr
  refine ⟨'"', s.toList.flatMap quotedChar ++ '"' :: r, ?_, by decide, ?_⟩
  · show '"' :: (s.toList.flatMap quotedChar ++ ['"'] ++ r) = _
    rw [List.append_assoc]
    rfl
  · rw [read, if_pos (.inl rfl), readQuoted_quoted]
    dsimp only
    rw [String.ofList_toList]

/-! ## Lines -/

/-- The tokens that there is a text for. -/
def Legible : Lexeme → Prop
  | .number d => d.Fits ∧ 0 ≤ d.coefficient
  | .dice s => isDiceWord s.toList = true
  | .name x => IsName x
  | _ => True

/-- Nothing that ends a token makes a longer sign of it. -/
theorem isRead_sign (o : OperatorSign) : (sign o).IsRead := by
  intro r hr
  cases r with
  | nil => cases o <;> exact ⟨_, _, rfl, by decide, rfl⟩
  | cons c r =>
    rcases hr c rfl with rfl | rfl
    · cases o <;> exact ⟨_, _, rfl, by decide, rfl⟩
    · cases o <;> exact ⟨_, _, rfl, by decide, rfl⟩

/-- **A token is read back**, whatever stands behind its end. -/
theorem read_chars {t : Lexeme} (h : t.Legible) : t.IsRead := by
  cases t with
  | number d => exact isRead_number h.1 h.2
  | dice s => exact isRead_dice h
  | quoted s => exact isRead_quoted s
  | name x => exact isRead_name h
  | sign o => exact isRead_sign o
  | leftParen | rightParen | comma | semicolon => exact fun r _ => ⟨_, r, rfl, by decide, rfl⟩

/-- Reading `cs` gives the tokens `ts`, and goes on with `r`. -/
structure Passes (cs : List Char) (ts : List Lexeme) (r : List Char) : Prop where
  /-- There is a character for each token. -/
  spent : ts.length + r.length ≤ cs.length
  readAll_eq : ∀ fuel, readAll (ts.length + fuel) cs = (readAll fuel r).map (ts ++ ·)

namespace Passes

variable {cs r q : List Char} {ts us : List Lexeme}

/-- Nothing has been read. -/
theorem refl (r : List Char) : Passes r [] r := by
  refine ⟨Nat.le_of_eq (Nat.zero_add r.length), fun fuel => ?_⟩
  rw [List.length_nil, Nat.zero_add]
  cases readAll fuel r <;> rfl

/-- Texts are read one after the other, and the fuel is enough for both. -/
theorem trans (h : Passes cs ts r) (h' : Passes r us q) : Passes cs (ts ++ us) q := by
  have hspent := h.spent
  have hspent' := h'.spent
  constructor
  · rw [List.length_append]
    omega
  · intro fuel
    rw [List.length_append, Nat.add_assoc, h.readAll_eq, h'.readAll_eq]
    cases readAll fuel q with
    | error e => rfl
    | ok vs => exact congrArg Except.ok (List.append_assoc ts us vs).symm

/-- A space is no token. -/
theorem space (r : List Char) : Passes (' ' :: r) [] r := by
  have hrefl := refl r
  refine ⟨Nat.le_succ_of_le hrefl.spent, fun fuel => ?_⟩
  rw [← hrefl.readAll_eq]
  cases [].length + fuel <;> rfl

/-- One token. -/
theorem token {c : Char} {t : Lexeme} (hblank : Text.isBlank c = false) (hread : read c cs = .ok (t, r))
    (hspent : r.length ≤ cs.length) : Passes (c :: cs) [t] r := by
  have htrim : Text.trimStart (c :: cs) = c :: cs := by
    rw [Text.trimStart, List.dropWhile_cons, hblank]
    rfl
  constructor
  · show 1 + r.length ≤ cs.length + 1
    omega
  · intro fuel
    rw [List.length_singleton, Nat.add_comm, readAll, htrim]
    dsimp only
    rw [hread]
    show (readAll fuel r >>= fun ts => pure (t :: ts)) = _
    cases readAll fuel r <;> rfl

/-- A token is read if what follows does not belong to it. -/
theorem chars {t : Lexeme} (h : t.Legible) (hr : Ends r) : Passes (t.chars ++ r) [t] r := by
  obtain ⟨c, cs, hcs, hblank, hread⟩ := read_chars h r hr
  obtain ⟨x, xs, hx, -⟩ := read_chars h [] nofun
  have hlength := congrArg List.length hcs
  have hpos := congrArg List.length hx
  rw [List.length_append, List.length_cons] at hlength hpos
  rw [List.length_nil] at hpos
  rw [hcs]
  exact token hblank hread (by omega)

end Passes

/-- Spaces and semicolons belong to no token. -/
theorem ends_cons {c : Char} (h : c = ' ' ∨ c = ';') (r : List Char) : Ends (c :: r) := by
  intro x hx
  rwa [← Option.some.inj hx]

/-- **A line is read back.** -/
theorem passes_line {ts : List Lexeme} (h : ∀ t ∈ ts, t.Legible) {r : List Char} (hr : Ends r) :
    Passes (line ts ++ r) ts r := by
  induction ts with
  | nil => exact .refl r
  | cons t ts ih =>
    obtain ⟨ht, hts⟩ := List.forall_mem_cons.1 h
    cases ts with
    | nil => exact .chars ht hr
    | cons u ts =>
      have hline : line (t :: u :: ts) ++ r = t.chars ++ ' ' :: (line (u :: ts) ++ r) := by
        show t.chars ++ [' '] ++ line (u :: ts) ++ r = _
        rw [List.append_assoc, List.append_assoc]
        rfl
      rw [hline]
      -- the space ends the token, whatever the next one is
      exact (Passes.chars ht (ends_cons (.inl rfl) _)).trans ((Passes.space _).trans (ih hts))

/-- The tokens of lines, with semicolons between them. -/
def separated : List (List Lexeme) → List Lexeme
  | [] => []
  | [ts] => ts
  | ts :: lines => ts ++ .semicolon :: separated lines

/-- Statements are read one by one, with the semicolons between them. -/
theorem passes_lines {lines : List (List Lexeme)} (h : ∀ ts ∈ lines, ∀ t ∈ ts, t.Legible) :
    Passes (Text.joinChars [';'] (lines.map line)) (separated lines) [] := by
  induction lines with
  | nil => exact .refl []
  | cons ts lines ih =>
    obtain ⟨hts, hlines⟩ := List.forall_mem_cons.1 h
    cases lines with
    | nil =>
      have hline := passes_line hts (r := []) nofun
      rw [List.append_nil] at hline
      exact hline
    | cons us lines =>
      have hjoin : Text.joinChars [';'] ((ts :: us :: lines).map line) =
          line ts ++ ';' :: Text.joinChars [';'] ((us :: lines).map line) := by
        show line ts ++ [';'] ++ _ = _
        rw [List.append_assoc]
        rfl
      rw [hjoin]
      -- nothing makes a longer sign of a semicolon, so it needs no end
      have hsemicolon {r : List Char} : Passes (';' :: r) [.semicolon] r :=
        .token (by decide) rfl (Nat.le_refl _)
      exact (passes_line hts (ends_cons (.inr rfl) _)).trans (hsemicolon.trans (ih hlines))

/-- **Lines are read back** from their text. -/
theorem scan_write {lines : List (List Lexeme)} (h : ∀ ts ∈ lines, ∀ t ∈ ts, t.Legible) :
    scan (write lines) = .ok (separated lines) := by
  have hpasses := passes_lines h
  have hspent := hpasses.spent
  rw [List.length_nil, Nat.add_zero] at hspent
  obtain ⟨k, hk⟩ := Nat.exists_eq_add_of_le hspent
  have hend : readAll (k + 1) [] = .ok [] := rfl
  rw [scan, write, String.toList_ofList, hk, Nat.add_assoc, hpasses.readAll_eq, hend]
  exact congrArg Except.ok (List.append_nil _)

end Tabletop.Lexeme
