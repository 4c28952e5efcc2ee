/-
  Maps from texts that list their entries in the order of the keys.

  The order is part of the type: two maps with the same entries are equal, and the written form of a
  map does not depend on how it was made.  `insert` keeps the order by putting a new key in front of
  the first greater one.
-/
namespace Tabletop

variable {α : Type}

/-- Entries with strictly increasing keys. -/
structure SortedMap (α : Type) where
  entries : List (String × α)
  sorted : entries.Pairwise fun a b => a.1 < b.1
deriving DecidableEq

namespace SortedMap

/-- The map without entries. -/
def empty : SortedMap α := ⟨[], .nil⟩

instance : Inhabited (SortedMap α) := ⟨empty⟩

instance [Repr α] : Repr (SortedMap α) := ⟨fun m n => reprPrec m.entries n⟩

/-- Puts an entry into sorted entries. -/
def insertEntry (key : String) (value : α) : List (String × α) → List (String × α)
  | [] => [(key, value)]
  | (k, v) :: rest =>
    if key < k then (key, value) :: (k, v) :: rest
    else if k = key then (k, value) :: rest
    else (k, v) :: insertEntry key value rest

theorem mem_insertEntry {key : String} {value : α} {l : List (String × α)} {e : String × α}
    (h : e ∈ insertEntry key value l) : e.1 = key ∨ e ∈ l := by
  induction l with
  | nil =>
    simp only [insertEntry, List.mem_singleton] at h
    exact Or.inl (by rw [h])
  | cons x rest ih =>
    obtain ⟨k, v⟩ := x
    simp only [insertEntry] at h
    split at h
    · rcases List.mem_cons.1 h with rfl | h
      · exact Or.inl rfl
      · exact Or.inr h
    · split at h
      · next hk =>
        rcases List.mem_cons.1 h with rfl | h
        · exact Or.inl hk
        · exact Or.inr (List.mem_cons_of_mem _ h)
      · rcases List.mem_cons.1 h with rfl | h
        · exact Or.inr (by simp)
        · rcases ih h with h | h
          · exact Or.inl h
          · exact Or.inr (List.mem_cons_of_mem _ h)

theorem sorted_insertEntry (key : String) (value : α) {l : List (String × α)}
    (h : l.Pairwise fun a b => a.1 < b.1) :
    (insertEntry key value l).Pairwise fun a b => a.1 < b.1 := by
  induction l with
  | nil => simp [insertEntry]
  | cons x rest ih =>
    obtain ⟨k, v⟩ := x
    obtain ⟨hhead, htail⟩ := List.pairwise_cons.1 h
    simp only [insertEntry]
    split
    · next hlt =>
      refine List.pairwise_cons.2 ⟨?_, h⟩
      intro e he
      rcases List.mem_cons.1 he with rfl | he
      · exact hlt
      · exact String.lt_trans hlt (hhead e he)
    · next hge =>
      split
      · exact List.pairwise_cons.2 ⟨hhead, htail⟩
      · next hne =>
        refine List.pairwise_cons.2 ⟨?_, ih htail⟩
        intro e he
        rcases mem_insertEntry he with he | he
        · rw [he]
          rcases Std.lt_trichotomy k key with h | h | h
          · exact h
          · exact absurd h hne
          · exact absurd h hge
        · exact hhead e he

/-- The map with the value of a key set. -/
def insert (m : SortedMap α) (key : String) (value : α) : SortedMap α :=
  ⟨insertEntry key value m.entries, sorted_insertEntry key value m.sorted⟩

/-- The map of entries given one after another. -/
def ofList (l : List (String × α)) : SortedMap α := l.foldl (fun m e => m.insert e.1 e.2) empty

/-- The value of a key. -/
def get? (m : SortedMap α) (key : String) : Option α :=
  (m.entries.find? fun e => e.1 == key).map Prod.snd

/-- The keys in order. -/
def keys (m : SortedMap α) : List String := m.entries.map Prod.fst

/-! ## Laws -/

theorem nodup_keys (m : SortedMap α) : m.keys.Nodup :=
  List.pairwise_map.2 (m.sorted.imp fun h => String.ne_of_lt h)

theorem find?_entry_cons (e : String × α) (l : List (String × α)) (key : String) :
    (e :: l).find? (fun e => e.1 == key) =
      if e.1 = key then some e else l.find? fun e => e.1 == key := by
  by_cases h : e.1 = key
  · rw [if_pos h, List.find?_cons_of_pos (by simpa using h)]
  · rw [if_neg h, List.find?_cons_of_neg (by simpa using h)]

theorem find?_insertEntry (key key' : String) (value : α) (l : List (String × α)) :
    (insertEntry key value l).find? (fun e => e.1 == key') =
      if key = key' then some (key, value) else l.find? fun e => e.1 == key' := by
  induction l with
  | nil => exact find?_entry_cons (key, value) [] key'
  | cons x rest ih =>
    obtain ⟨k, v⟩ := x
    rw [insertEntry]
    by_cases hlt : key < k
    · rw [if_pos hlt]
      exact find?_entry_cons (key, value) _ key'
    · rw [if_neg hlt]
      by_cases hk : k = key
      · subst hk
        rw [if_pos rfl, find?_entry_cons, find?_entry_cons]
        by_cases h : k = key'
        · rw [if_pos h, if_pos h]
        · rw [if_neg h, if_neg h, if_neg h]
      · rw [if_neg hk, find?_entry_cons, find?_entry_cons, ih]
        by_cases h : k = key'
        · rw [if_pos h, if_pos h, if_neg fun hkey => hk (h.trans hkey.symm)]
        · rw [if_neg h, if_neg h]

theorem get?_insert (m : SortedMap α) (key key' : String) (value : α) :
    (m.insert key value).get? key' = if key = key' then some value else m.get? key' := by
  unfold get?
  show ((insertEntry key value m.entries).find? _).map Prod.snd = _
  rw [find?_insertEntry]
  by_cases h : key = key'
  · rw [if_pos h, if_pos h, Option.map_some]
  · rw [if_neg h, if_neg h]

/-- A key greater than all others comes last. -/
theorem insertEntry_of_forall_lt {key : String} (value : α) {l : List (String × α)}
    (h : ∀ e ∈ l, e.1 < key) : insertEntry key value l = l ++ [(key, value)] := by
  induction l with
  | nil => rfl
  | cons x rest ih =>
    have hx : x.1 < key := h x List.mem_cons_self
    have hrest := ih fun e he => h e (List.mem_cons_of_mem _ he)
    rw [insertEntry, if_neg (String.lt_asymm hx), if_neg (String.ne_of_lt hx), hrest]
    rfl

/-- Entries in order are inserted one behind the other. -/
theorem entries_foldl_insert (m : SortedMap α) {l : List (String × α)}
    (h : (m.entries ++ l).Pairwise fun a b => a.1 < b.1) :
    (l.foldl (fun m e => m.insert e.1 e.2) m).entries = m.entries ++ l := by
  induction l generalizing m with
  | nil => exact (List.append_nil _).symm
  | cons x rest ih =>
    have hbefore : ∀ e ∈ m.entries, e.1 < x.1 := fun e he =>
      (List.pairwise_append.1 h).2.2 e he x List.mem_cons_self
    have hinsert : (m.insert x.1 x.2).entries = m.entries ++ [x] :=
      insertEntry_of_forall_lt x.2 hbefore
    have hsplit : m.entries ++ x :: rest = (m.insert x.1 x.2).entries ++ rest := by
      rw [hinsert, List.append_assoc]
      rfl
    rw [List.foldl_cons, ih _ (hsplit ▸ h), hsplit]

/-- A map is made again of its entries. -/
@[simp] theorem ofList_entries (m : SortedMap α) : ofList m.entries = m := by
  obtain ⟨entries, sorted⟩ := m
  have h := entries_foldl_insert empty (l := entries) sorted
  unfold ofList
  generalize entries.foldl (fun m e => m.insert e.1 e.2) empty = m at h
  obtain ⟨_, _⟩ := m
  cases h
  rfl

example : (ofList [("b", 1), ("a", 2), ("b", 3)]).entries = [("a", 2), ("b", 3)] := by
  decide +kernel

end SortedMap

/-- A set of names in order. -/
abbrev NameSet := SortedMap Unit

/-- The set of names given in any order. -/
def NameSet.ofNames (names : List String) : NameSet := SortedMap.ofList (names.map fun n => (n, ()))

end Tabletop
