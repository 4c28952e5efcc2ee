import Tabletop.Proofs.TurnOrder.Turns

/-
  Who has the turn when a token leaves.

  1. **Entries** — a token that leaves takes its entries along.  An entry that stays has in front of it
     what is left of what stood in front of it (`survivorsBefore`), so different entries that stay have
     different places.

  2. **Where the turn goes** — the entries that are left are searched for the token that has the turn.
     The search ends at the first entry of that token (`firstPlace?`), which need not be the one that
     had the turn (`current_remove`).

  3. **Staying** — so the turn stays with its entry exactly if no entry in front is of the same token
     (`keepsTurn_iff`).  A token that joined twice and has its second turn is set back to its first one
     when anybody else leaves.
-/
namespace Tabletop.InitiativeList

/-! ## Filtered lists -/

section Filtered

variable {α : Type} {p q : α → Bool} {xs : List α} {x : α} {i j : Nat}

/-- An element that stays is found behind those in front of it that stay. -/
theorem getElem?_filter (hi : xs[i]? = some x) (hx : p x = true) :
    (xs.filter p)[((xs.take i).filter p).length]? = some x := by
  induction xs generalizing i with
  | nil => cases hi
  | cons y xs ih =>
    cases i with
    | zero =>
      obtain rfl : y = x := Option.some.inj hi
      rw [List.filter_cons, if_pos hx]
      rfl
    | succ i =>
      have hrest := ih hi
      rw [List.take_succ_cons, List.filter_cons, List.filter_cons]
      by_cases hy : p y = true
      · rw [if_pos hy, if_pos hy]
        exact hrest
      · rw [if_neg hy, if_neg hy]
        exact hrest

/-- Behind an element that stays, there is one more that stays. -/
theorem length_filter_take_lt (hi : xs[i]? = some x) (hx : p x = true) (hij : i < j) :
    ((xs.take i).filter p).length < ((xs.take j).filter p).length := by
  have hsplit : xs.take j = xs.take i ++ (xs.take j).drop i := by
    have htake := List.take_append_drop i (xs.take j)
    rw [List.take_take, Nat.min_eq_left (Nat.le_of_lt hij)] at htake
    exact htake.symm
  have hmem : x ∈ ((xs.take j).drop i).filter p := by
    refine List.mem_filter.2 ⟨List.mem_of_getElem? (i := 0) ?_, hx⟩
    rw [List.getElem?_drop, Nat.add_zero, List.getElem?_take_of_lt hij, hi]
  have hpos := List.length_pos_of_mem hmem
  rw [hsplit, List.filter_append, List.length_append]
  omega

/-- Where an element of a class is first found among those of a larger class. -/
theorem findIdx?_filter (hq : ∀ x, q x = true → p x = true) (xs : List α) :
    (xs.filter p).findIdx? q = (xs.findIdx? q).map fun i => ((xs.take i).filter p).length := by
  induction xs with
  | nil => rfl
  | cons x xs ih =>
    -- what is found stays, so only what is passed over can be missing
    by_cases hx : q x = true
    · rw [List.filter_cons, if_pos (hq x hx), List.findIdx?_cons, List.findIdx?_cons, hx]
      rfl
    · rw [Bool.not_eq_true] at hx
      rw [List.findIdx?_cons, hx, List.filter_cons]
      by_cases hp : p x = true
      · rw [if_pos hp, List.findIdx?_cons, hx, ih]
        cases xs.findIdx? q <;> simp [hp]
      · rw [if_neg hp, ih]
        cases xs.findIdx? q <;> simp [hp]

end Filtered

/-! ## Entries that stay -/

variable {l : InitiativeList} {id : TokenId} {i j : Nat} {e : InitiativeEntry}

/-- How many of the first `i` entries stay when a token leaves. -/
def survivorsBefore (l : InitiativeList) (id : TokenId) (i : Nat) : Nat :=
  ((l.entries.take i).filter fun e => e.token != id).length

/-- **An entry that stays** is found behind the entries in front of it that stay. -/
theorem getElem?_remove (hi : l.entries[i]? = some e) (he : e.token ≠ id) :
    (l.remove id).entries[l.survivorsBefore id i]? = some e :=
  getElem?_filter hi (bne_iff_ne.2 he)

theorem survivorsBefore_lt (hi : l.entries[i]? = some e) (he : e.token ≠ id) (hij : i < j) :
    l.survivorsBefore id i < l.survivorsBefore id j :=
  length_filter_take_lt hi (bne_iff_ne.2 he) hij

/-! ## Where the turn goes -/

/-- The token that has the turn. -/
def turn? (l : InitiativeList) : Option TokenId := l.currentEntry?.map InitiativeEntry.token

/-- The place of the first entry of the token that has the turn. -/
def firstPlace? (l : InitiativeList) : Option Nat :=
  l.turn?.bind fun t => l.entries.findIdx? fun x => x.token == t

theorem currentEntry?_eq_none (hcurrent : l.current = none) : l.currentEntry? = none := by
  rw [ currentEntry?, hcurrent]
  rfl

theorem currentEntry?_eq_some (hcurrent : l.current = some i) (hi : l.entries[i]? = some e) :
    l.currentEntry? = some e := by
  rw [ currentEntry?, hcurrent]
  exact hi

theorem turn?_eq_none (hcurrent : l.current = none) : l.turn? = none := by
  rw [turn?, currentEntry?_eq_none hcurrent]
  rfl

theorem turn?_eq_some (hcurrent : l.current = some i) (hi : l.entries[i]? = some e) :
    l.turn? = some e.token := by
  rw [turn?, currentEntry?_eq_some hcurrent hi]
  rfl

/-- **The turn goes to the first entry** of the token that has it. -/
theorem current_remove (other : l.turn? ≠ some id) :
    (l.remove id).current = l.firstPlace?.map (l.survivorsBefore id) := by
  rw [firstPlace?, turn?]
  rw [turn?] at other
  cases hcurrent : l.currentEntry? with
  | none =>
    rw [remove, hcurrent]
    rfl
  | some e =>
    rw [hcurrent] at other
    have he : e.token ≠ id := fun h => other (congrArg some h)
    have hsame (x : InitiativeEntry) (hx : (x.token == e.token) = true) : (x.token != id) = true := by
      rw [eq_of_beq hx]
      exact bne_iff_ne.2 he
    rw [remove, hcurrent]
    dsimp only
    rw [if_neg he]
    exact findIdx?_filter hsame l.entries

/-- The first entry of the token that has the turn stands at the turn or in front of it. -/
theorem exists_firstPlace? (hcurrent : l.current = some i) (hi : l.entries[i]? = some e) :
    ∃ j f, l.firstPlace? = some j ∧ j ≤ i ∧ l.entries[j]? = some f ∧ f.token = e.token ∧
      ∀ x ∈ l.entries.take j, x.token ≠ e.token := by
  rw [firstPlace?, turn?_eq_some hcurrent hi]
  obtain ⟨hlt, rfl⟩ := List.getElem?_eq_some_iff.1 hi
  cases hfirst : l.entries.findIdx? fun x => x.token == l.entries[i].token with
  | none =>
    have hnone := List.findIdx?_eq_none_iff.1 hfirst _ (List.getElem_mem hlt)
    rw [beq_self_eq_true] at hnone
    cases hnone
  | some j =>
    obtain ⟨hj, hsame, hbefore⟩ := List.findIdx?_eq_some_iff_getElem.1 hfirst
    refine ⟨j, l.entries[j], hfirst, Nat.le_of_not_lt fun hij => ?_, List.getElem?_eq_getElem hj,
      eq_of_beq hsame, ?_⟩
    · exact hbefore i hij (beq_self_eq_true _)
    · intro x hx heq
      obtain ⟨k, hk, rfl⟩ := List.mem_take_iff_getElem.1 hx
      exact hbefore k (by omega) (beq_iff_eq.2 heq)

/-! ## Staying -/

/-- The turn stays where it is when a token leaves: in front of its place is what is left of what stood
    in front of it. -/
def KeepsTurn (l : InitiativeList) (id : TokenId) : Prop :=
  (l.remove id).current = l.current.map (l.survivorsBefore id)

instance (l : InitiativeList) (id : TokenId) : Decidable (l.KeepsTurn id) :=
  inferInstanceAs (Decidable (_ = _))

/-- The entry that has the turn is the first one of its token. -/
def AtFirstEntry (l : InitiativeList) : Prop :=
  ∀ i e, l.current = some i → l.entries[i]? = some e → ∀ x ∈ l.entries.take i, x.token ≠ e.token

variable (placed : l.WellPlaced) (other : l.turn? ≠ some id)
include placed other

/-- **The turn stays with the token that has it.** -/
theorem turn?_remove : (l.remove id).turn? = l.turn? := by
  have hremove := current_remove other
  cases hcurrent : l.current with
  | none =>
    rw [firstPlace?, turn?_eq_none hcurrent] at hremove
    rw [turn?_eq_none hremove, turn?_eq_none hcurrent]
  | some i =>
    have hi := List.getElem?_eq_getElem (placed i hcurrent)
    obtain ⟨j, f, hfirst, -, hj, htoken, -⟩ := exists_firstPlace? hcurrent hi
    have hturn := turn?_eq_some hcurrent hi
    have hf : f.token ≠ id := fun h => other (by rw [hturn, ← htoken, h])
    rw [hfirst] at hremove
    rw [turn?_eq_some hremove (getElem?_remove hj hf), hturn, htoken]

/-- **The turn stays with its entry** exactly if that entry is the first one of its token. -/
theorem keepsTurn_iff : l.KeepsTurn id ↔ l.AtFirstEntry := by
  rw [KeepsTurn, current_remove other]
  cases hcurrent : l.current with
  | none =>
    rw [firstPlace?, turn?_eq_none hcurrent]
    refine ⟨fun _ i e hi => ?_, fun _ => rfl⟩
    rw [hcurrent] at hi
    cases hi
  | some i =>
    have hi := List.getElem?_eq_getElem (placed i hcurrent)
    obtain ⟨j, f, hfirst, hji, hj, htoken, hbefore⟩ := exists_firstPlace? hcurrent hi
    have hf : f.token ≠ id := fun h => other (by rw [turn?_eq_some hcurrent hi, ← htoken, h])
    rw [hfirst]
    constructor
    · intro hkeeps i' e' hi' he'
      obtain rfl : i = i' := Option.some.inj (hcurrent.symm.trans hi')
      obtain rfl := Option.some.inj (hi.symm.trans he')
      -- two entries that stay, with equally many in front of them
      have hsame : l.survivorsBefore id j = l.survivorsBefore id i := Option.some.inj hkeeps
      have hnot : ¬j < i := fun hlt => absurd hsame (Nat.ne_of_lt (survivorsBefore_lt hj hf hlt))
      obtain rfl : j = i := by omega
      exact hbefore
    · intro hfront
      -- the first entry of the token would be one in front
      have hnot : ¬j < i := fun hlt => by
        have hmem : f ∈ l.entries.take i :=
          List.mem_of_getElem? ((List.getElem?_take_of_lt hlt).trans hj)
        exact hfront i _ hcurrent hi f hmem htoken
      obtain rfl : j = i := by omega
      rfl

/-- If the turn stays where it is, it stays with the very entry that has it. -/
theorem KeepsTurn.currentEntry?_remove (h : l.KeepsTurn id) :
    currentEntry? (l.remove id) = l.currentEntry? := by
  rw [KeepsTurn] at h
  cases hcurrent : l.current with
  | none =>
    rw [hcurrent] at h
    rw [currentEntry?_eq_none h, currentEntry?_eq_none hcurrent]
  | some i =>
    rw [hcurrent] at h
    have hlt := placed i hcurrent
    have hi := List.getElem?_eq_getElem hlt
    have he : l.entries[i].token ≠ id := fun h => other (by rw [turn?_eq_some hcurrent hi, h])
    rw [currentEntry?_eq_some h (getElem?_remove hi he), currentEntry?_eq_some hcurrent hi]

omit placed other

/-- **Who has the turn when a token leaves** that does not have it itself.  In every turn order that
    there can be, the entries of all other tokens stay in their order, and the turn stays with its
    token.  It goes to the first entry of that token; so it stays with its entry, behind what is left of
    what stood in front of it, exactly if no entry in front of it is of the same token. -/
theorem remove_keepsTurn_iff (cs : List Change) {id : TokenId} (other : (new.after cs).turn? ≠ some id) :
    let l := new.after cs
    (l.remove id).entries = l.entries.filter (fun e => e.token != id) ∧
    (l.remove id).turn? = l.turn? ∧
    (l.remove id).current = l.firstPlace?.map (l.survivorsBefore id) ∧
    (l.KeepsTurn id ↔ l.AtFirstEntry) ∧
    (l.KeepsTurn id → currentEntry? (l.remove id) = l.currentEntry?) := by
  intro l
  have placed : l.WellPlaced := wellPlaced_after wellPlaced_new cs
  exact ⟨rfl, turn?_remove placed other, current_remove other, keepsTurn_iff placed other,
    fun h => h.currentEntry?_remove placed other⟩

/-- Token 1 joins with 18 and once more with 5, token 2 in between, token 3 last; then `n` turns are
    taken. -/
def ambush (n : Nat) : List Change :=
  [.add ⟨1⟩ (some "18"), .add ⟨2⟩ none, .add ⟨1⟩ (some "5"), .add ⟨3⟩ none] ++ turns n

/-- Token 2 leaves at the fourth turn, which is that of token 3: the turn stays with its entry, which is
    now the third one. -/
theorem remove_keepsTurn_iff_ambush :
    (new.after (ambush 4)).turn? ≠ some ⟨2⟩ ∧ (new.after (ambush 4)).current = some 3 ∧
    ((new.after (ambush 4)).remove ⟨2⟩).current = some 2 ∧
    ((new.after (ambush 4)).remove ⟨2⟩).turn? = some ⟨3⟩ ∧ (new.after (ambush 4)).AtFirstEntry := by
  have other : (new.after (ambush 4)).turn? ≠ some ⟨2⟩ := by decide
  obtain ⟨-, hturn, -, hiff, -⟩ := remove_keepsTurn_iff (ambush 4) other
  exact ⟨other, by decide, by decide, hturn.trans (by decide), hiff.1 (by decide)⟩

/-- **The turn can be set back**: token 1 has its second turn of the round when token 2 leaves, and is
    then at its first entry. -/
theorem turn_set_back :
    ¬∀ cs id, (new.after cs).turn? ≠ some id → (new.after cs).KeepsTurn id := by
  intro h
  have hkeeps := h (ambush 3) ⟨2⟩ (by decide)
  exact absurd hkeeps (by decide)

end Tabletop.InitiativeList
