/-
  Association lists with one entry per key, in the order in which the keys first came.

  `insert` overwrites the value of a key in place or appends a new entry, `erase` takes an entry out
  without moving the others.  JSON objects show this order in their text; for variables it is only a
  way to hold the entries.
-/
namespace Tabletop.Assoc

variable {κ : Type} {α : Type} [DecidableEq κ]

/-- The value of a key. -/
def get? : List (κ × α) → κ → Option α
  | [], _ => none
  | (k, v) :: rest, key => if k = key then some v else get? rest key

/-- Overwrites the value of a key in place, or appends a new entry. -/
def insert : List (κ × α) → κ → α → List (κ × α)
  | [], key, value => [(key, value)]
  | (k, v) :: rest, key, value =>
    if k = key then (k, value) :: rest else (k, v) :: insert rest key value

/-- Takes the entries of a key out. -/
def erase (entries : List (κ × α)) (key : κ) : List (κ × α) :=
  entries.filter fun e => e.1 ≠ key

/-- The keys in order. -/
def keys (entries : List (κ × α)) : List κ := entries.map Prod.fst

/-- A key is present. -/
def contains (entries : List (κ × α)) (key : κ) : Bool := (get? entries key).isSome

/-- The entries given one after another: a repeated key keeps its place and takes the last value. -/
def ofList (entries : List (κ × α)) : List (κ × α) :=
  entries.foldl (fun acc e => insert acc e.1 e.2) []

/-! ## Laws -/

@[simp] theorem get?_nil (key : κ) : get? ([] : List (κ × α)) key = none := rfl

theorem get?_insert (entries : List (κ × α)) (key key' : κ) (value : α) :
    get? (insert entries key value) key' =
      if key = key' then some value else get? entries key' := by
  induction entries with
  | nil => simp [insert, get?]
  | cons e rest ih =>
    obtain ⟨k, v⟩ := e
    simp only [insert]
    by_cases hk : k = key
    · subst hk
      by_cases h : k = key' <;> simp [get?, h]
    · rw [if_neg hk]
      simp only [get?, ih]
      by_cases h : k = key'
      · subst h
        simp [Ne.symm hk]
      · simp [h]

@[simp] theorem get?_insert_self (entries : List (κ × α)) (key : κ) (value : α) :
    get? (insert entries key value) key = some value := by simp [get?_insert]

theorem get?_insert_of_ne (entries : List (κ × α)) {key key' : κ} (value : α) (h : key ≠ key') :
    get? (insert entries key value) key' = get? entries key' := by simp [get?_insert, h]

/-- Writing down the value that a key has changes nothing. -/
theorem insert_eq_self {entries : List (κ × α)} {key : κ} {value : α}
    (h : get? entries key = some value) : insert entries key value = entries := by
  induction entries with
  | nil => cases h
  | cons e rest ih =>
    obtain ⟨k, v⟩ := e
    simp only [get?] at h
    simp only [insert]
    by_cases hk : k = key
    · rw [if_pos hk] at h ⊢
      rw [Option.some.inj h]
    · rw [if_neg hk] at h ⊢
      rw [ih h]

theorem get?_erase (entries : List (κ × α)) (key key' : κ) :
    get? (erase entries key) key' = if key = key' then none else get? entries key' := by
  induction entries with
  | nil => simp [erase, get?]
  | cons e rest ih =>
    obtain ⟨k, v⟩ := e
    simp only [erase, List.filter_cons] at ih ⊢
    by_cases hk : k = key
    · subst hk
      by_cases h : k = key' <;> simp_all [get?]
    · by_cases h : k = key'
      · subst h
        simp [get?, hk, Ne.symm hk]
      · simp_all [get?]

theorem contains_iff_mem_keys (entries : List (κ × α)) (key : κ) :
    contains entries key = true ↔ key ∈ keys entries := by
  induction entries with
  | nil => simp [contains, keys]
  | cons e rest ih =>
    obtain ⟨k, v⟩ := e
    rw [contains] at ih ⊢
    by_cases hk : k = key
    · simp [get?, keys, hk]
    · rw [get?, if_neg hk, ih]
      simp [keys, Ne.symm hk]

/-- A new key is appended, a present one stays where it is. -/
theorem keys_insert (entries : List (κ × α)) (key : κ) (value : α) :
    keys (insert entries key value) =
      if key ∈ keys entries then keys entries else keys entries ++ [key] := by
  induction entries with
  | nil => simp [insert, keys]
  | cons e rest ih =>
    obtain ⟨k, v⟩ := e
    simp only [insert]
    by_cases hk : k = key
    · simp [hk, keys]
    · simp only [keys] at ih
      simp only [if_neg hk, keys, List.map_cons, ih, List.mem_cons]
      by_cases h : key ∈ rest.map Prod.fst
      · simp [h]
      · simp [h, Ne.symm hk]

example : insert [("b", 1), ("a", 2)] "b" 3 = [("b", 3), ("a", 2)] := by decide

theorem insert_of_not_mem {entries : List (κ × α)} {key : κ} (h : key ∉ keys entries) (value : α) :
    insert entries key value = entries ++ [(key, value)] := by
  induction entries with
  | nil => rfl
  | cons e rest ih =>
    obtain ⟨k, v⟩ := e
    simp only [keys, List.map_cons, List.mem_cons, not_or] at h
    rw [insert, if_neg (Ne.symm h.1), ih h.2]
    rfl

theorem foldl_insert (entries acc : List (κ × α)) (h : (keys (acc ++ entries)).Nodup) :
    entries.foldl (fun acc e => insert acc e.1 e.2) acc = acc ++ entries := by
  induction entries generalizing acc with
  | nil => exact (List.append_nil acc).symm
  | cons e rest ih =>
    have he : e.1 ∉ keys acc := by
      simp only [keys, List.map_append, List.map_cons] at h
      intro hm
      exact (List.nodup_append.1 h).2.2 e.1 hm e.1 List.mem_cons_self rfl
    have hstep : acc ++ e :: rest = acc ++ [(e.1, e.2)] ++ rest := by simp
    rw [List.foldl_cons, insert_of_not_mem he, hstep]
    exact ih _ (hstep ▸ h)

/-- Entries without a repeated key stay as they are. -/
theorem ofList_eq {entries : List (κ × α)} (h : (keys entries).Nodup) : ofList entries = entries :=
  foldl_insert entries [] h

end Tabletop.Assoc
