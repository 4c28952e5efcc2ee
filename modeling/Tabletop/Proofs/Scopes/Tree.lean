import Tabletop.Macro.ScopeTree

/-
  What a step does to the scopes that are there.

  1. **Places** — `ScopeTree.Placed`: every scope points at variables that are there.  All steps keep
     it, and it is what makes a new place a place of its own: no older scope can point at it.

  2. **Children** — a new scope leaves the older ones as they are.  It has the variables of its parent,
     or none.

  3. **Updates** — a change of the variables of one scope is seen in the scopes that share them, and
     nowhere else.
-/
namespace Tabletop.ScopeTree

/-- Every scope points at variables that are there. -/
def Placed (t : ScopeTree) : Prop := ∀ s ∈ t.scopes, s.place < t.places.length

variable {t : ScopeTree} {i j : Nat} {s : Scope}

/-- Scopes are numbered without gaps. -/
theorem scope?_eq_some_of_lt (h : i < t.scopes.length) : ∃ s, t.scope? i = some s :=
  ⟨t.scopes[i], List.getElem?_eq_getElem h⟩

/-- The place of a scope is there. -/
theorem Placed.place_lt (ht : t.Placed) (h : t.scope? i = some s) : s.place < t.places.length :=
  ht s (List.mem_of_getElem? h)

/-- The variables of a scope are those at its place. -/
theorem bindings_eq (h : t.scope? i = some s) : t.bindings i = (t.places[s.place]?).getD [] := by
  unfold bindings
  rw [h]
  rfl

/-! ## Sharing -/

/-- Two scopes share if they point at the same place. -/
theorem shares_eq {a b : Scope} (ha : t.scope? i = some a) (hb : t.scope? j = some b) :
    t.shares i j = (a.place == b.place) := by
  unfold shares
  rw [ha, hb]

/-- A scope shares with itself. -/
theorem shares_self (hi : i < t.scopes.length) : t.shares i i = true := by
  obtain ⟨a, ha⟩ := scope?_eq_some_of_lt hi
  rw [shares_eq ha ha, beq_self_eq_true]

/-- Sharing goes both ways. -/
theorem shares_comm (t : ScopeTree) (i j : Nat) : t.shares i j = t.shares j i := by
  unfold shares
  cases t.scope? i with
  | none => cases t.scope? j <;> rfl
  | some a =>
    cases t.scope? j with
    | none => rfl
    | some b => exact Bool.beq_comm

/-- Sharing passes on from scope to scope. -/
theorem shares_trans {k : Nat} (hij : t.shares i j = true) (hjk : t.shares j k = true) :
    t.shares i k = true := by
  unfold shares at *
  cases hi : t.scope? i with
  | none => simp [hi] at hij
  | some a =>
    cases hj : t.scope? j with
    | none => simp [hj] at hjk
    | some b =>
      cases hk : t.scope? k with
      | none => simp [hj, hk] at hjk
      | some c => simp_all

/-- Scopes that share their variables have the same ones. -/
theorem bindings_eq_of_shares (h : t.shares i j = true) : t.bindings i = t.bindings j := by
  cases ha : t.scope? i with
  | none => unfold shares at h; rw [ha] at h; cases h
  | some a =>
    cases hb : t.scope? j with
    | none => unfold shares at h; rw [ha, hb] at h; cases h
    | some b =>
      rw [shares_eq ha hb] at h
      rw [bindings_eq ha, bindings_eq hb, eq_of_beq h]

/-! ## Children -/

/-- The first scope has the first place. -/
theorem root_placed (subject : Option TokenId) : (root subject).Placed := by
  intro s hs
  obtain rfl := List.mem_singleton.1 hs
  exact Nat.zero_lt_one

variable {share : Bool} {subject : Option (Option TokenId)}

/-- A child that shares takes the place of its parent; any other gets a new place behind the old ones.
    -/
theorem child_eq (hs : t.scope? i = some s) : t.child i share subject =
    if share then ⟨t.scopes ++ [⟨s.place, subject.getD s.subject⟩], t.places⟩
    else ⟨t.scopes ++ [⟨t.places.length, subject.getD s.subject⟩], t.places ++ [[]]⟩ := by
  unfold child
  rw [hs]

/-- Making a child keeps all places in order. -/
theorem child_placed (ht : t.Placed) (i : Nat) (share : Bool) (subject : Option (Option TokenId)) :
    (t.child i share subject).Placed := by
  cases hs : t.scope? i with
  | none =>
    unfold child
    rw [hs]
    exact ht
  | some s =>
    rw [child_eq hs]
    cases share with
    -- the place of the child is the place of the parent, which was there
    | true =>
      intro a ha
      rcases List.mem_append.1 ha with h | h
      · exact ht a h
      · obtain rfl := List.mem_singleton.1 h
        exact ht.place_lt (s := s) hs
    -- there is one place more, and it is the place of the child
    | false =>
      intro a ha
      show a.place < (t.places ++ [[]]).length
      rw [List.length_append, List.length_singleton]
      rcases List.mem_append.1 ha with h | h
      · exact Nat.lt_succ_of_lt (ht a h)
      · obtain rfl := List.mem_singleton.1 h
        exact Nat.lt_succ_self _

/-- The number of a new scope is the count of the older ones. -/
theorem length_child (hi : i < t.scopes.length) (share : Bool) (subject : Option (Option TokenId)) :
    (t.child i share subject).scopes.length = t.scopes.length + 1 := by
  obtain ⟨s, hs⟩ := scope?_eq_some_of_lt hi
  rw [child_eq hs]
  cases share <;> exact List.length_append

/-- Older scopes stay what they are. -/
theorem scope?_child (hj : j < t.scopes.length) :
    (t.child i share subject).scope? j = t.scope? j := by
  cases hs : t.scope? i with
  | none => unfold child; rw [hs]
  | some s =>
    rw [child_eq hs]
    cases share <;> exact List.getElem?_append_left hj

/-- The scope that was made last. -/
theorem scope?_child_new (hs : t.scope? i = some s) :
    (t.child i share subject).scope? t.scopes.length =
      some ⟨if share then s.place else t.places.length, subject.getD s.subject⟩ := by
  rw [child_eq hs]
  cases share <;> exact List.getElem?_concat_length

/-- Older scopes share as before. -/
theorem shares_child (hi : i < t.scopes.length) (hj : j < t.scopes.length) {k : Nat} :
    (t.child k share subject).shares i j = t.shares i j := by
  unfold shares
  rw [scope?_child hi, scope?_child hj]

/-- **A new scope** shares its variables with those that its parent shares them with, or with none. -/
theorem shares_child_new (ht : t.Placed) (hi : i < t.scopes.length) (hj : j < t.scopes.length) :
    (t.child i share subject).shares t.scopes.length j = (share && t.shares i j) := by
  obtain ⟨a, ha⟩ := scope?_eq_some_of_lt hi
  obtain ⟨b, hb⟩ := scope?_eq_some_of_lt hj
  have hb' : (t.child i share subject).scope? j = some b := (scope?_child hj).trans hb
  rw [shares_eq (scope?_child_new ha) hb', shares_eq ha hb]
  cases share with
  | true => rfl
  | false =>
    -- the new place is behind all others, so no older scope points at it
    have hne : t.places.length ≠ b.place := Nat.ne_of_gt (ht.place_lt hb)
    exact beq_eq_false_iff_ne.2 hne

/-- Older scopes keep their variables. -/
theorem bindings_child (ht : t.Placed) (hj : j < t.scopes.length) :
    (t.child i share subject).bindings j = t.bindings j := by
  obtain ⟨b, hb⟩ := scope?_eq_some_of_lt hj
  have hb' : (t.child i share subject).scope? j = some b := (scope?_child hj).trans hb
  rw [bindings_eq hb, bindings_eq hb']
  cases hs : t.scope? i with
  | none => unfold child; rw [hs]
  | some s =>
    rw [child_eq hs]
    cases share with
    | true => rfl
    | false =>
      show ((t.places ++ [[]])[b.place]?).getD [] = _
      rw [List.getElem?_append_left (ht.place_lt hb)]

/-- A child starts with the variables of its parent, or with none. -/
theorem bindings_child_new (hi : i < t.scopes.length) :
    (t.child i share subject).bindings t.scopes.length = if share then t.bindings i else [] := by
  obtain ⟨a, ha⟩ := scope?_eq_some_of_lt hi
  rw [bindings_eq (scope?_child_new ha), bindings_eq ha, child_eq ha]
  cases share with
  | true => rfl
  | false =>
    show ((t.places ++ [[]])[t.places.length]?).getD [] = []
    rw [List.getElem?_concat_length]
    rfl

/-! ## Updates -/

variable {f : Variables → Variables}

@[simp] theorem scopes_update : (t.update i f).scopes = t.scopes := by
  unfold update
  cases t.scope? i <;> rfl

@[simp] theorem scope?_update (k : Nat) : (t.update i f).scope? k = t.scope? k := by
  unfold scope?
  rw [scopes_update]

@[simp] theorem length_update : (t.update i f).scopes.length = t.scopes.length :=
  congrArg List.length scopes_update

@[simp] theorem shares_update {k : Nat} : (t.update k f).shares i j = t.shares i j := by
  unfold shares
  rw [scope?_update, scope?_update]

/-- An update adds no place and takes none away. -/
theorem update_placed (ht : t.Placed) (i : Nat) (f : Variables → Variables) :
    (t.update i f).Placed := by
  unfold update
  cases t.scope? i with
  | none => exact ht
  | some s =>
    intro a ha
    show a.place < (t.places.modify s.place f).length
    rw [List.length_modify]
    exact ht a ha

/-- **An update** is seen where the variables are shared, and nowhere else. -/
theorem bindings_update (ht : t.Placed) (hi : i < t.scopes.length) (hj : j < t.scopes.length) :
    (t.update i f).bindings j = if t.shares i j then f (t.bindings j) else t.bindings j := by
  obtain ⟨a, ha⟩ := scope?_eq_some_of_lt hi
  obtain ⟨b, hb⟩ := scope?_eq_some_of_lt hj
  have hb' : (t.update i f).scope? j = some b := (scope?_update j).trans hb
  have hplaces : (t.update i f).places = t.places.modify a.place f := by
    unfold update
    rw [ha]
  have hlt : b.place < t.places.length := ht.place_lt hb
  have hplace : t.places[b.place]? = some t.places[b.place] := List.getElem?_eq_getElem hlt
  rw [bindings_eq hb', bindings_eq hb, hplaces, shares_eq ha hb, List.getElem?_modify, hplace]
  -- the update goes to one place: `j` sees it if that is its own
  by_cases hab : a.place = b.place
  · rw [if_pos (beq_iff_eq.2 hab)]
    exact if_pos hab
  · rw [if_neg (fun h => hab (beq_iff_eq.1 h))]
    exact if_neg hab

end Tabletop.ScopeTree
