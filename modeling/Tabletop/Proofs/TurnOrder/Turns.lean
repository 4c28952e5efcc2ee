import Tabletop.Campaign.Initiative

/-
  The course of the turns.

  1. **Changes** — tokens join, tokens leave, and turns are taken.  `after` is the list behind a
     sequence of changes; the turn orders that there can be are the `new.after cs`.

  2. **The place of the turn** — if anyone has the turn, its place is one of the list (`WellPlaced`).
     A token that leaves can shorten the list to below that place; the turn is then looked up anew
     among the entries that are left, or nobody has it.

  3. **Rounds** — `next` starts a round if the turn was at the last entry, and nothing else does.  So
     the number of the round is at most one more than that of the turns that were taken.

  4. **Turns in a row** — from nobody's turn, `k + 1` turns among `n` entries lead to place `k % n`
     after `k / n` rounds (`after_turns`).  A remainder and a quotient determine the number that was
     divided, so every entry has one turn in each round.
-/
namespace Tabletop.InitiativeList

/-! ## Changes -/

/-- What can happen to a turn order. -/
inductive Change where
  | add (id : TokenId) (initiative : Option String)
  | remove (id : TokenId)
  | next
deriving DecidableEq, Repr

/-- The turn order behind one change. -/
def apply (l : InitiativeList) : Change → InitiativeList
  | .add id initiative => l.add id initiative
  | .remove id => l.remove id
  | .next => l.next

/-- The turn order behind a sequence of changes. -/
def after (l : InitiativeList) (cs : List Change) : InitiativeList := cs.foldl apply l

/-- Turns in a row. -/
def turns (k : Nat) : List Change := List.replicate k .next

@[simp] theorem after_append (l : InitiativeList) (cs ds : List Change) :
    l.after (cs ++ ds) = (l.after cs).after ds := List.foldl_append

/-- One more turn is taken last. -/
theorem turns_succ (k : Nat) : turns (k + 1) = turns k ++ [.next] := List.replicate_succ'

/-- The four ways in which a turn is taken. -/
theorem next_cases (l : InitiativeList) :
    (l.entries = [] ∧ l.next = { l with current := none }) ∨
    (l.entries ≠ [] ∧ l.current = none ∧ l.next = { l with current := some 0 }) ∨
    (l.entries ≠ [] ∧ ∃ i, l.current = some i ∧ l.entries.length ≤ i + 1 ∧
      l.next = { l with round := l.round + 1, current := some 0 }) ∨
    (∃ i, l.current = some i ∧ i + 1 < l.entries.length ∧ l.next = { l with current := some (i + 1) }) := by
  by_cases hnone : l.entries = []
  · exact .inl ⟨hnone, if_pos (List.isEmpty_iff.2 hnone)⟩
  · rw [next, if_neg (mt List.isEmpty_iff.1 hnone)]
    cases hcurrent : l.current with
    | none => exact .inr (.inl ⟨hnone, rfl, rfl⟩)
    | some i =>
      by_cases hend : l.entries.length ≤ i + 1
      · exact .inr (.inr (.inl ⟨hnone, i, rfl, hend, if_pos hend⟩))
      · exact .inr (.inr (.inr ⟨i, rfl, Nat.lt_of_not_le hend, if_neg hend⟩))

/-! ## The place of the turn -/

/-- The place of the turn is a place of the list. -/
def WellPlaced (l : InitiativeList) : Prop := ∀ i, l.current = some i → i < l.entries.length

/-- Nobody has the turn yet. -/
theorem wellPlaced_new : new.WellPlaced := nofun

/-- Who is added comes last, so the turn stays where it is. -/
theorem wellPlaced_add {l : InitiativeList} (h : l.WellPlaced) (id : TokenId)
    (initiative : Option String) : (l.add id initiative).WellPlaced := by
  intro i hi
  have hplace := h i hi
  rw [add, List.length_append]
  omega

theorem wellPlaced_remove (l : InitiativeList) (id : TokenId) : (l.remove id).WellPlaced := by
  intro i hi
  rw [remove] at hi
  dsimp only at hi
  split at hi
  · split at hi
    · cases hi
    · -- the turn is looked up among the entries that are left
      exact (List.findIdx?_eq_some_iff_findIdx_eq.1 hi).1
  · cases hi

/-- The turn goes to an entry that is there. -/
theorem wellPlaced_next (l : InitiativeList) : l.next.WellPlaced := by
  intro i hi
  -- no entries, no turn so far, the end of a round, or the next entry
  rcases next_cases l with ⟨-, hnext⟩ | ⟨hne, -, hnext⟩ | ⟨hne, -, -, -, hnext⟩ | ⟨j, -, hlt, hnext⟩
  all_goals rw [hnext] at hi ⊢
  · cases hi
  · cases hi
    exact List.length_pos_iff.2 hne
  · cases hi
    exact List.length_pos_iff.2 hne
  · cases hi
    exact hlt

/-- All changes keep the turn in its place. -/
theorem wellPlaced_apply {l : InitiativeList} (h : l.WellPlaced) (c : Change) :
    (l.apply c).WellPlaced := by
  cases c with
  | add id initiative => exact wellPlaced_add h id initiative
  | remove id => exact wellPlaced_remove l id
  | next => exact wellPlaced_next l

/-- **Whatever happens, the place of the turn is a place of the list.** -/
theorem wellPlaced_after {l : InitiativeList} (h : l.WellPlaced) (cs : List Change) :
    (l.after cs).WellPlaced := by
  induction cs generalizing l with
  | nil => exact h
  | cons c cs ih => exact ih (wellPlaced_apply h c)

/-! ## Rounds -/

/-- A turn starts a round or it does not. -/
theorem round_next (l : InitiativeList) : l.next.round = l.round ∨ l.next.round = l.round + 1 := by
  rcases next_cases l with ⟨-, hnext⟩ | ⟨-, -, hnext⟩ | ⟨-, -, -, -, hnext⟩ | ⟨i, -, -, hnext⟩
  all_goals rw [hnext]
  · exact .inl rfl
  · exact .inl rfl
  · exact .inr rfl
  · exact .inl rfl

/-- Only the next turn begins a round. -/
theorem round_apply (l : InitiativeList) (c : Change) :
    (l.apply c).round = l.round ∨ (c = .next ∧ (l.apply c).round = l.round + 1) := by
  cases c with
  | add id initiative => exact .inl rfl
  | remove id => exact .inl rfl
  | next => exact (round_next l).imp_right fun h => ⟨rfl, h⟩

/-- **The number of the round grows with the turns**, and at most by one with each. -/
theorem round_after (l : InitiativeList) (cs : List Change) :
    l.round ≤ (l.after cs).round ∧ (l.after cs).round ≤ l.round + cs.count .next := by
  induction cs generalizing l with
  | nil => exact ⟨Int.le_refl _, Int.le_add_of_nonneg_right (Int.natCast_nonneg _)⟩
  | cons c cs ih =>
    have hrest := ih (l.apply c)
    show l.round ≤ ((l.apply c).after cs).round ∧ ((l.apply c).after cs).round ≤ _
    rw [List.count_cons]
    rcases round_apply l c with hsame | ⟨rfl, hmore⟩
    · rw [hsame] at hrest
      omega
    · rw [hmore] at hrest
      rw [if_pos (beq_self_eq_true _)]
      omega

/-! ## Turns in a row -/

/-- One more divided by `n`: either the remainder starts again, or it grows. -/
theorem div_mod_succ {n : Nat} (hn : 0 < n) (k : Nat) :
    (n ≤ k % n + 1 ∧ (k + 1) / n = k / n + 1 ∧ (k + 1) % n = 0) ∨
    (k % n + 1 < n ∧ (k + 1) / n = k / n ∧ (k + 1) % n = k % n + 1) := by
  have hk := Nat.mod_add_div k n
  have hlt := Nat.mod_lt k hn
  by_cases hend : n ≤ k % n + 1
  · refine .inl ⟨hend, ?_⟩
    apply (Nat.div_mod_unique hn).2
    rw [Nat.mul_succ]
    omega
  · refine .inr ⟨by omega, ?_⟩
    apply (Nat.div_mod_unique hn).2
    omega

/-- **Turns in a row**, from nobody's turn. -/
theorem after_turns {l : InitiativeList} (hne : l.entries ≠ []) (hnone : l.current = none) (k : Nat) :
    l.after (turns (k + 1)) =
      ⟨l.round + (k / l.entries.length : Nat), some (k % l.entries.length), l.entries⟩ := by
  have hpos := List.length_pos_iff.2 hne
  induction k with
  | zero =>
    show l.next = _
    rcases next_cases l with ⟨hempty, -⟩ | ⟨-, -, hnext⟩ | ⟨-, i, hi, -⟩ | ⟨i, hi, -⟩
    · exact absurd hempty hne
    · rw [hnext, Nat.zero_div, Nat.zero_mod, Int.natCast_zero, Int.add_zero]
    · rw [hnone] at hi
      cases hi
    · rw [hnone] at hi
      cases hi
  | succ k ih =>
    rw [turns_succ, after_append, ih]
    show next _ = _
    -- the round ends exactly where the remainder starts again
    have hdiv := div_mod_succ hpos k
    rcases next_cases ⟨l.round + (k / l.entries.length : Nat), some (k % l.entries.length), l.entries⟩
      with ⟨hempty, -⟩ | ⟨-, hi, -⟩ | ⟨-, i, hi, hend, hnext⟩ | ⟨i, hi, hinner, hnext⟩
    · exact absurd hempty hne
    · cases hi
    · cases hi
      dsimp only at hend
      obtain ⟨-, hquotient, hremainder⟩ := hdiv.resolve_right fun h => by omega
      rw [hnext, hquotient, hremainder, Int.natCast_add, Int.add_assoc]
      rfl
    · cases hi
      dsimp only at hinner
      obtain ⟨-, hquotient, hremainder⟩ := hdiv.resolve_left fun h => by omega
      rw [hnext, hquotient, hremainder]

/-- **Every entry has one turn in each round**: the one whose number is that of the entry, behind the
    turns of all rounds before. -/
theorem after_turns_iff {l : InitiativeList} (hne : l.entries ≠ []) (hnone : l.current = none)
    {i : Nat} (hi : i < l.entries.length) (k rounds : Nat) :
    ((l.after (turns (k + 1))).current = some i ∧
        (l.after (turns (k + 1))).round = l.round + (rounds : Int)) ↔
      k = rounds * l.entries.length + i := by
  rw [after_turns hne hnone]
  -- quotient and remainder are unique
  have hunique := Nat.div_mod_unique (a := k) (c := i) (d := rounds) (List.length_pos_iff.2 hne)
  rw [Nat.mul_comm] at hunique
  constructor
  · rintro ⟨hplace, hround⟩
    have hplace : k % l.entries.length = i := Option.some.inj hplace
    dsimp only at hround
    have hdiv := hunique.1 ⟨by omega, hplace⟩
    omega
  · intro hk
    obtain ⟨hdiv, hplace⟩ := hunique.2 ⟨by omega, hi⟩
    exact ⟨congrArg some hplace, by rw [hdiv]⟩

/-- **The arithmetic of the turn order.**  Whatever has happened to a new list, the place of the turn is
    one of the list; the round, which is 1 at first, never goes back, only a turn raises it, and it is
    at most one more than the number of turns that were taken.  In a list of `n` entries of which none
    has the turn, turn `k` is at place `(k - 1) % n` in the round that is `(k - 1) / n` behind the one
    of the start, so that every entry has exactly one turn in each round. -/
theorem turns_go_round :
    (∀ cs i, (new.after cs).current = some i → i < (new.after cs).entries.length) ∧
    (new.after []).round = 1 ∧
    (∀ cs ds, (new.after cs).round ≤ (new.after (cs ++ ds)).round) ∧
    (∀ cs c, (new.after cs).round < (new.after (cs ++ [c])).round → c = .next) ∧
    (∀ cs, (new.after cs).round ≤ 1 + cs.count .next) ∧
    ∀ l : InitiativeList, l.entries ≠ [] → l.current = none →
      (∀ k, 1 ≤ k → l.after (turns k) =
        ⟨l.round + ((k - 1) / l.entries.length : Nat), some ((k - 1) % l.entries.length), l.entries⟩) ∧
      ∀ i rounds k : Nat, i < l.entries.length → 1 ≤ k →
        (((l.after (turns k)).current = some i ∧ (l.after (turns k)).round = l.round + (rounds : Int)) ↔
          k = rounds * l.entries.length + i + 1) := by
  refine ⟨fun cs => wellPlaced_after wellPlaced_new cs, rfl, ?_, ?_, fun cs => (round_after new cs).2,
    fun l hne hnone => ⟨?_, ?_⟩⟩
  · intro cs ds
    rw [after_append]
    exact (round_after (new.after cs) ds).1
  · intro cs c hlt
    rw [after_append] at hlt
    rcases round_apply (new.after cs) c with hsame | ⟨hnext, -⟩
    · have hlt : (new.after cs).round < ((new.after cs).apply c).round := hlt
      omega
    · exact hnext
  · intro k hk
    obtain ⟨k, rfl⟩ := Nat.exists_eq_succ_of_ne_zero (Nat.ne_of_gt hk)
    exact after_turns hne hnone k
  · intro i rounds k hi hk
    obtain ⟨k, rfl⟩ := Nat.exists_eq_succ_of_ne_zero (Nat.ne_of_gt hk)
    rw [Nat.succ_eq_add_one, after_turns_iff hne hnone hi]
    omega

/-- Three entries, two of them of one token, at the start of round 4. -/
def skirmish : InitiativeList := ⟨4, none, [⟨⟨1⟩, some "18"⟩, ⟨⟨2⟩, none⟩, ⟨⟨1⟩, some "5"⟩]⟩

/-- The fifth turn of the skirmish is that of the second entry, in the round behind the first one, and
    no other turn of that round is. -/
theorem turns_go_round_skirmish :
    skirmish.entries ≠ [] ∧ skirmish.current = none ∧
    skirmish.after (turns 5) = ⟨5, some 1, skirmish.entries⟩ ∧
    (∀ k, 1 ≤ k → (((skirmish.after (turns k)).current = some 1 ∧
      (skirmish.after (turns k)).round = 4 + ((1 : Nat) : Int)) ↔ k = 5)) := by
  have hne : skirmish.entries ≠ [] := by decide
  have hnone : skirmish.current = none := rfl
  obtain ⟨-, -, -, -, -, hlist⟩ := turns_go_round
  obtain ⟨hturns, hone⟩ := hlist skirmish hne hnone
  exact ⟨hne, hnone, hturns 5 (by decide), fun k hk => hone 1 1 k (by decide) hk⟩

end Tabletop.InitiativeList
