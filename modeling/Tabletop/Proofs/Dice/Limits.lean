import Tabletop.Dice.Notation

/-
  What a notation of dice can mean.

  1. **Limits** — `Legal` says what the types leave open: a die has between one and `maxSides` sides, no
     choice keeps more dice than there are, and an expression has a pool, at most `maxDice` dice, and a
     modifier of 64 bits.

  2. **Terms** — a term replaces the modifier by another one of 64 bits, or it puts a legal pool at the
     end (`addTerm_cases`).

  3. **Notations** — so an expression that was read is legal (`legal_of_parse`).
-/
namespace Tabletop.Dice

/-- What goes on with a result had one to go on with. -/
theorem bind_eq_ok {ε α β : Type} {act : Except ε α} {k : α → Except ε β} {b : β}
    (h : act >>= k = .ok b) : ∃ a, act = .ok a ∧ k a = .ok b := by
  cases act with
  | error fault => cases h
  | ok a => exact ⟨a, rfl, h⟩

/-! ## Limits -/

/-- A pool within the limits. -/
structure Pool.Legal (p : Pool) : Prop where
  sides_pos : 1 ≤ p.sides
  sides_le : p.sides ≤ maxSides
  count_le : p.count ≤ maxDice
  keep_le : p.keep.size p.count ≤ p.count

/-- An expression within the limits. -/
structure Expression.Legal (e : Expression) : Prop where
  pools : ∀ p ∈ e.pools, p.Legal
  pools_ne_nil : e.pools ≠ []
  count_le : e.count ≤ maxDice
  modifier : Decimal.InWord e.modifier

theorem Pool.make_eq_ok {count sides : Nat} {p : Pool} : Pool.make count sides = .ok p ↔
    1 ≤ sides ∧ sides ≤ maxSides ∧ count ≤ maxDice ∧ p = ⟨count, sides, .all⟩ := by
  unfold Pool.make
  split
  · next hzero => exact ⟨nofun, fun h => absurd hzero (Nat.ne_of_gt h.1)⟩
  · split
    · next hsides => exact ⟨nofun, fun h => absurd hsides (Nat.not_lt.2 h.2.1)⟩
    · split
      · next hcount => exact ⟨nofun, fun h => absurd hcount (Nat.not_lt.2 h.2.2.1)⟩
      · next hpos hsides hcount =>
        constructor
        · rintro ⟨⟩
          exact ⟨Nat.pos_of_ne_zero hpos, Nat.le_of_not_lt hsides, Nat.le_of_not_lt hcount, rfl⟩
        · rintro ⟨-, -, -, rfl⟩
          rfl

theorem Pool.keeping_eq_ok {p q : Pool} {keep : Keep} :
    p.keeping keep = .ok q ↔ keep.size p.count ≤ p.count ∧ q = { p with keep } := by
  unfold Pool.keeping
  split
  · next hkeep => exact ⟨nofun, fun h => absurd hkeep (Nat.not_lt.2 h.1)⟩
  · next hkeep =>
    constructor
    · rintro ⟨⟩
      exact ⟨Nat.le_of_not_lt hkeep, rfl⟩
    · rintro ⟨-, rfl⟩
      rfl

/-- **A pool is made and gets its choice** exactly within the limits. -/
theorem Pool.make_keeping_eq_ok {count sides : Nat} {keep : Keep} {p : Pool} :
    (Pool.make count sides >>= (·.keeping keep)) = .ok p ↔ p = ⟨count, sides, keep⟩ ∧ p.Legal := by
  constructor
  · intro h
    obtain ⟨made, hmade, hkeeping⟩ := bind_eq_ok h
    obtain ⟨hpos, hsides, hcount, rfl⟩ := Pool.make_eq_ok.1 hmade
    obtain ⟨hkeep, rfl⟩ := Pool.keeping_eq_ok.1 hkeeping
    exact ⟨rfl, hpos, hsides, hcount, hkeep⟩
  · rintro ⟨rfl, legal⟩
    rw [Pool.make_eq_ok.2 ⟨legal.sides_pos, legal.sides_le, legal.count_le, rfl⟩]
    exact Pool.keeping_eq_ok.2 ⟨legal.keep_le, rfl⟩

/-! ## Terms -/

variable {source : String} {e e' : Expression} {term : Bool × List Char}

theorem addWord_eq_ok {a b c : Int} : addWord a b = .ok c ↔ c = a + b ∧ Decimal.InWord c := by
  unfold addWord
  split
  · next h =>
    constructor
    · rintro ⟨⟩
      exact ⟨rfl, h⟩
    · rintro ⟨rfl, -⟩
      rfl
  · next h =>
    constructor
    · rintro ⟨⟩
    · rintro ⟨rfl, hword⟩
      exact absurd hword h

/-- **What a term can do**: it changes the modifier, or it puts a pool at the end. -/
theorem addTerm_cases (h : addTerm source e term = .ok e') :
    (∃ m, Decimal.InWord m ∧ e' = { e with modifier := m }) ∨
    (∃ p : Pool, p.Legal ∧ e' = { e with pools := e.pools ++ [p] }) := by
  unfold addTerm at h
  split at h
  · obtain ⟨m, hsum, hm⟩ := bind_eq_ok h
    cases hm
    exact .inl ⟨m, (addWord_eq_ok.1 hsum).2, rfl⟩
  · split at h
    · cases h
    · split at h
      · cases h
      · -- a pool is legal only once it has its choice, so the two steps are taken as one
        rw [← bind_assoc] at h
        obtain ⟨p, hpool, hp⟩ := bind_eq_ok h
        cases hp
        exact .inr ⟨p, (Pool.make_keeping_eq_ok.1 hpool).2, rfl⟩

theorem legal_of_terms {terms : List (Bool × List Char)} (h : terms.foldlM (addTerm source) e = .ok e')
    (hpools : ∀ p ∈ e.pools, p.Legal) (hmodifier : Decimal.InWord e.modifier) :
    (∀ p ∈ e'.pools, p.Legal) ∧ Decimal.InWord e'.modifier := by
  induction terms generalizing e with
  | nil =>
    cases h
    exact ⟨hpools, hmodifier⟩
  | cons term terms ih =>
    rw [List.foldlM_cons] at h
    obtain ⟨next, hterm, hrest⟩ := bind_eq_ok h
    rcases addTerm_cases hterm with ⟨m, hm, rfl⟩ | ⟨p, hp, rfl⟩
    · exact ih hrest hpools hm
    · refine ih hrest (fun q hq => ?_) hmodifier
      rcases List.mem_append.1 hq with hq | hq
      · exact hpools q hq
      · exact List.mem_singleton.1 hq ▸ hp

/-! ## Notations -/

/-- When a notation is read, and as what. -/
theorem Expression.parse_eq_ok : Expression.parse source = .ok e ↔
    (compact source.toList).all (·.toNat < 128) = true ∧
    (signedTerms (compact source.toList)).foldlM (addTerm (Text.trim source)) ⟨[], 0⟩ = .ok e ∧
    e.pools ≠ [] ∧ e.count ≤ maxDice := by
  unfold Expression.parse
  dsimp only
  by_cases hascii : (compact source.toList).all (·.toNat < 128) = true
  · rw [if_pos hascii]
    constructor
    · intro h
      -- the checks come one after the other: the terms, at least one pool, and the number of dice
      obtain ⟨read, hterms, hread⟩ := bind_eq_ok h
      split at hread
      · cases hread
      · next hne =>
        split at hread
        · cases hread
        · next hcount =>
          cases hread
          exact ⟨hascii, hterms, fun h => hne (List.isEmpty_iff.2 h), Nat.le_of_not_lt hcount⟩
    · rintro ⟨-, hterms, hne, hcount⟩
      rw [hterms]
      show (if e.pools.isEmpty then _ else if maxDice < e.count then _ else Except.ok e) = _
      rw [if_neg (mt List.isEmpty_iff.1 hne), if_neg (Nat.not_lt.2 hcount)]
  · rw [if_neg hascii]
    exact ⟨nofun, fun h => absurd h.1 hascii⟩

/-- A term that is not read is the fault of the notation. -/
theorem Expression.parse_eq_error_of_terms {fault : DiceError}
    (ascii : (compact source.toList).all (·.toNat < 128) = true)
    (terms : (signedTerms (compact source.toList)).foldlM (addTerm (Text.trim source)) ⟨[], 0⟩ =
      .error fault) : Expression.parse source = .error fault := by
  unfold Expression.parse
  dsimp only
  rw [if_pos ascii, terms]
  rfl

/-- **What is read is legal.** -/
theorem Expression.legal_of_parse (h : Expression.parse source = .ok e) : e.Legal := by
  obtain ⟨-, hterms, hne, hcount⟩ := Expression.parse_eq_ok.1 h
  obtain ⟨hpools, hmodifier⟩ := legal_of_terms hterms nofun (by decide)
  exact ⟨hpools, hne, hcount, hmodifier⟩

end Tabletop.Dice
