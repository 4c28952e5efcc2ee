import Mathlib.Data.List.Nodup
import Tabletop.Builtin.Basic

/-
  The names of registered functions.

  A registry says twice where a name leads: the index gives the place of its function, and the function
  has the name in its descriptor.  Registrations change both, name by name.

  1. **Agreement** — `Registry.Consistent`: a function has a name exactly if the index leads from the
     name to it.  So a name has one function at most.

  2. **One registration (`foldl_assign`)** — while the names of a new function are assigned one by one,
     the index is ahead of the entries, for the new function is not there yet.  One half of the agreement
     holds all the time: the names that functions still have lead to them (`Owned`).  That is enough to
     see that assigning a name takes it away from all functions there are.

  3. **A history of registrations (`foldl_record`)** — every function that was accepted is there, in order,
     with its own names without those that later ones took over (`remaining`), and the two still agree.
-/
namespace Tabletop.Registry

variable {φ : Type} {r : Registry φ} {e : Registered φ} {name : String} {place : Nat}

/-! ## Names that are left -/

/-- A function that keeps none of these names. -/
def withoutNames (taken : List String) (e : Registered φ) : Registered φ :=
  { e with descriptor :=
    { e.descriptor with names := e.descriptor.names.filter fun n => n ∉ taken } }

/-- All names that these functions list. -/
def listed (fs : List (Registered φ)) : List String := fs.flatMap fun e => e.descriptor.names

/-- What is left of functions that were registered one after another. -/
def remaining : List (Registered φ) → List (Registered φ)
  | [] => []
  | e :: later =>
    if e.descriptor.names.isEmpty then remaining later
    else withoutNames (listed later) e :: remaining later

/-- A function keeps the names that were not taken. -/
theorem mem_names_withoutNames {taken : List String} :
    name ∈ (withoutNames taken e).descriptor.names ↔ name ∈ e.descriptor.names ∧ name ∉ taken := by
  simp [withoutNames]

/-- Of one name the same. -/
theorem mem_names_withoutName {n : String} :
    n ∈ (withoutName name e).descriptor.names ↔ n ∈ e.descriptor.names ∧ n ≠ name := by
  simp [withoutName]

/-- A name that it does not have cannot be taken away. -/
theorem withoutName_of_not_mem (h : name ∉ e.descriptor.names) : withoutName name e = e := by
  have hnames : e.descriptor.names.filter (fun n => n ≠ name) = e.descriptor.names := by
    refine List.filter_eq_self.2 fun n hn => ?_
    exact decide_eq_true fun hne => h (hne ▸ hn)
  rw [withoutName, hnames]

/-- Nothing was taken. -/
@[simp] theorem withoutNames_nil (e : Registered φ) : withoutNames [] e = e := by
  rw [withoutNames, List.filter_eq_self.2 fun n _ => decide_eq_true List.not_mem_nil]

/-- Names are taken one by one. -/
theorem withoutNames_withoutName (taken : List String) (e : Registered φ) :
    withoutNames taken (withoutName name e) = withoutNames (name :: taken) e := by
  simp only [withoutNames, withoutName, List.filter_filter, List.mem_cons, not_or, Bool.decide_and]
  congr 3
  funext n
  exact Bool.and_comm ..

/-- Or many at a time. -/
theorem withoutNames_withoutNames (taken later : List String) (e : Registered φ) :
    withoutNames later (withoutNames taken e) = withoutNames (taken ++ later) e := by
  simp only [withoutNames, List.filter_filter, List.mem_append, not_or, Bool.decide_and]
  congr 3
  funext n
  exact Bool.and_comm ..

@[simp] theorem listed_cons (e : Registered φ) (fs : List (Registered φ)) :
    listed (e :: fs) = e.descriptor.names ++ listed fs := rfl

theorem mem_listed {fs : List (Registered φ)} :
    name ∈ listed fs ↔ ∃ e ∈ fs, name ∈ e.descriptor.names := List.mem_flatMap

/-- A name that is listed at all is listed by a last one. -/
theorem exists_last_listing {fs : List (Registered φ)} (h : name ∈ listed fs) :
    ∃ before e after, fs = before ++ e :: after ∧ name ∈ e.descriptor.names ∧ name ∉ listed after := by
  induction fs with
  | nil => cases h
  | cons e fs ih =>
    by_cases hlater : name ∈ listed fs
    · obtain ⟨before, x, after, rfl, hx, hafter⟩ := ih hlater
      exact ⟨e :: before, x, after, rfl, hx, hafter⟩
    · rw [listed_cons, List.mem_append] at h
      exact ⟨[], e, fs, rfl, h.resolve_right hlater, hlater⟩

/-! ## Agreement of the entries and the index -/

/-- The names that functions have lead to them. -/
def Owned (r : Registry φ) : Prop :=
  ∀ i e name, r.entries[i]? = some e → name ∈ e.descriptor.names → Assoc.get? r.index name = some i

/-- The names that functions have, and no others, lead to them. -/
structure Consistent (r : Registry φ) : Prop where
  owned : r.Owned
  placed : ∀ {name i}, Assoc.get? r.index name = some i →
    ∃ e, r.entries[i]? = some e ∧ name ∈ e.descriptor.names

/-- Nothing is registered yet. -/
theorem empty_consistent : (empty : Registry φ).Consistent :=
  ⟨fun i e name he => by simp [empty] at he, fun h => by cases h⟩

/-- **What is found under a name** is the entry that has the name. -/
theorem Consistent.find?_eq_some_iff (h : r.Consistent) :
    r.find? name = some e ↔ e ∈ r.entries ∧ name ∈ e.descriptor.names := by
  rw [find?, Option.bind_eq_some_iff]
  constructor
  · rintro ⟨i, hi, he⟩
    obtain ⟨e', he', hname⟩ := h.placed hi
    obtain rfl : e' = e := Option.some.inj (he'.symm.trans he)
    exact ⟨List.mem_of_getElem? he, hname⟩
  · rintro ⟨he, hname⟩
    obtain ⟨i, hi⟩ := List.mem_iff_getElem?.1 he
    exact ⟨i, h.owned i e name hi hname, hi⟩

/-- A name is registered if an entry is found. -/
theorem Consistent.find?_isSome (h : r.Consistent) (name : String) :
    (r.find? name).isSome = r.contains name := by
  rw [find?, contains, Assoc.contains]
  cases hi : Assoc.get? r.index name with
  | none => rfl
  | some i =>
    obtain ⟨e, he, _⟩ := h.placed hi
    rw [Option.bind_some, he]
    rfl

/-- Under any other name none is found. -/
theorem Consistent.find?_eq_none (h : r.Consistent) (hname : r.contains name = false) :
    r.find? name = none := by
  rw [← h.find?_isSome] at hname
  cases hfind : r.find? name with
  | none => rfl
  | some e =>
    rw [hfind] at hname
    cases hname

/-- The index leads from a name exactly to the place of the function that has it. -/
theorem Consistent.get?_index_iff (h : r.Consistent) {i : Nat} :
    Assoc.get? r.index name = some i ↔
      ∃ e, r.entries[i]? = some e ∧ e.descriptor.hasName name = true := by
  constructor
  · intro hi
    obtain ⟨e, he, hname⟩ := h.placed hi
    exact ⟨e, he, List.contains_iff_mem.2 hname⟩
  · rintro ⟨e, he, hname⟩
    exact h.owned i e name he (List.contains_iff_mem.1 hname)

theorem descriptor?_eq (h : r.find? name = some e) : r.descriptor? name = some e.descriptor := by
  rw [descriptor?, h]
  rfl

/-- What is found under a name has the name. -/
theorem Consistent.hasName_of_descriptor? (h : r.Consistent) {d : Descriptor}
    (hd : r.descriptor? name = some d) : d.hasName name = true := by
  obtain ⟨e, he, rfl⟩ := Option.map_eq_some_iff.1 hd
  exact List.contains_iff_mem.2 (h.find?_eq_some_iff.1 he).2

/-- The function of a name is the first one that has it, for no other one has. -/
theorem Consistent.find?_eq (h : r.Consistent) (name : String) :
    r.find? name = r.entries.find? fun e => e.descriptor.hasName name := by
  cases hfind : r.entries.find? fun e => e.descriptor.hasName name with
  | some e =>
    have hhas := List.find?_some hfind
    have hname : name ∈ e.descriptor.names := List.contains_iff_mem.1 hhas
    exact h.find?_eq_some_iff.2 ⟨List.mem_of_find?_eq_some hfind, hname⟩
  | none =>
    refine Option.eq_none_iff_forall_ne_some.2 fun e he => ?_
    obtain ⟨hmem, hname⟩ := h.find?_eq_some_iff.1 he
    exact List.find?_eq_none.1 hfind e hmem (List.contains_iff_mem.2 hname)

/-! ## One name -/

/-- The index leads from the name to the new place. -/
theorem get?_index_assign (n : String) :
    Assoc.get? (r.assign place name).index n =
      if name = n then some place else Assoc.get? r.index n :=
  Assoc.get?_insert r.index name n place

/-- A name that nobody has is taken from nobody. -/
theorem entries_assign_of_none (h : Assoc.get? r.index name = none) :
    (r.assign place name).entries = r.entries := by
  rw [assign, h]

/-- A name that an entry has is taken from this entry. -/
theorem entries_assign_of_some {i : Nat} (h : Assoc.get? r.index name = some i) :
    (r.assign place name).entries = r.entries.modify i (withoutName name) := by
  rw [assign, h]

/-- **An assigned name is taken away from all functions there are.**  Only one is changed, but no other
    one has the name. -/
theorem Owned.entries_assign (h : r.Owned) :
    (r.assign place name).entries = r.entries.map (withoutName name) := by
  -- only the entry that the index leads to can have the name
  have hkeep {j : Nat} {e : Registered φ} (hj : r.entries[j]? = some e)
      (hne : Assoc.get? r.index name ≠ some j) : withoutName name e = e :=
    withoutName_of_not_mem fun hmem => hne (h j e name hj hmem)
  refine List.ext_getElem? fun j => ?_
  rw [List.getElem?_map]
  cases hindex : Assoc.get? r.index name with
  | none =>
    rw [entries_assign_of_none hindex]
    cases hj : r.entries[j]? with
    | none => rfl
    | some e =>
      have he : withoutName name e = e := hkeep hj (by rw [hindex]; exact nofun)
      rw [Option.map_some, he]
  | some previous =>
    rw [entries_assign_of_some hindex, List.getElem?_modify]
    cases hj : r.entries[j]? with
    | none => rfl
    | some e =>
      show some (if previous = j then withoutName name e else e) = some (withoutName name e)
      -- the entry at this place is the one that loses the name, or has not had it
      by_cases hp : previous = j
      · rw [if_pos hp]
      · have he : withoutName name e = e := hkeep hj (by rw [hindex]; exact fun h => hp (Option.some.inj h))
        rw [if_neg hp, he]

/-- The names are still where the index says. -/
theorem Owned.assign (h : r.Owned) (place : Nat) (name : String) : (r.assign place name).Owned := by
  intro i e n he hn
  rw [h.entries_assign, List.getElem?_map, Option.map_eq_some_iff] at he
  obtain ⟨e₀, he₀, rfl⟩ := he
  obtain ⟨hn₀, hne⟩ := mem_names_withoutName.1 hn
  rw [get?_index_assign, if_neg (Ne.symm hne)]
  exact h i e₀ n he₀ hn₀

/-! ## One registration -/

/-- All names of a new function are taken away from the others, and lead to its place. -/
theorem foldl_assign (h : r.Owned) (place : Nat) (names : List String) :
    (names.foldl (assign place) r).entries = r.entries.map (withoutNames names) ∧
      ∀ n, Assoc.get? (names.foldl (assign place) r).index n =
        if n ∈ names then some place else Assoc.get? r.index n := by
  induction names generalizing r with
  | nil =>
    refine ⟨?_, fun n => (if_neg List.not_mem_nil).symm⟩
    rw [funext withoutNames_nil, List.map_id']
    rfl
  | cons name names ih =>
    obtain ⟨hentries, hindex⟩ := ih (h.assign place name)
    rw [List.foldl_cons]
    constructor
    · rw [hentries, h.entries_assign, List.map_map]
      exact congrArg (r.entries.map ·) (funext (withoutNames_withoutName names))
    · intro n
      -- the place of a name is set once or more, and is the same each time
      rw [hindex, get?_index_assign]
      -- the name comes later in the list, is the first one, or is not in the list
      by_cases hmem : n ∈ names
      · rw [if_pos hmem, if_pos (List.mem_cons_of_mem _ hmem)]
      · by_cases hname : name = n
        · rw [if_neg hmem, if_pos hname, if_pos (by simp [hname])]
        · have hnot : n ∉ name :: names := by
            rw [List.mem_cons, not_or]
            exact ⟨Ne.symm hname, hmem⟩
          rw [if_neg hmem, if_neg hname, if_neg hnot]

/-- A function without a name is refused. -/
theorem register_of_nameless (r : Registry φ) (h : e.descriptor.names = []) :
    r.register e.descriptor e.function = .error .noNames := by
  rw [register, h]
  rfl

/-- The registry after a registration, accepted or not. -/
def record (r : Registry φ) (e : Registered φ) : Registry φ :=
  ((r.register e.descriptor e.function).toOption).getD r

/-- So nothing changes. -/
theorem record_of_nameless (r : Registry φ) (h : e.descriptor.names = []) : r.record e = r := by
  rw [record, register_of_nameless r h]
  rfl

/-- A function with names takes them all, and becomes the last entry. -/
theorem record_of_named (r : Registry φ) (h : e.descriptor.names ≠ []) :
    r.record e =
      { e.descriptor.names.foldl (assign r.entries.length) r with
        entries := (e.descriptor.names.foldl (assign r.entries.length) r).entries ++ [e] } := by
  have hempty : e.descriptor.names.isEmpty = false := by simpa using h
  rw [record, register, hempty]
  rfl

/-- All other entries lose these names. -/
theorem Consistent.entries_record (h : r.Consistent) (hnames : e.descriptor.names ≠ []) :
    (r.record e).entries = r.entries.map (withoutNames e.descriptor.names) ++ [e] := by
  rw [record_of_named r hnames]
  show (e.descriptor.names.foldl (assign r.entries.length) r).entries ++ [e] = _
  rw [(foldl_assign h.owned r.entries.length e.descriptor.names).1]

/-- The names lead to the new entry. -/
theorem Consistent.get?_index_record (h : r.Consistent) (hnames : e.descriptor.names ≠ [])
    (n : String) : Assoc.get? (r.record e).index n =
      if n ∈ e.descriptor.names then some r.entries.length else Assoc.get? r.index n := by
  rw [record_of_named r hnames]
  exact (foldl_assign h.owned r.entries.length e.descriptor.names).2 n

/-- An older entry stays in its place, without the names of the new one. -/
theorem Consistent.getElem?_record_of_lt (h : r.Consistent) (hnames : e.descriptor.names ≠ []) {i : Nat}
    (hi : i < r.entries.length) :
    (r.record e).entries[i]? = r.entries[i]?.map (withoutNames e.descriptor.names) := by
  rw [h.entries_record hnames, List.getElem?_append_left (by simpa using hi), List.getElem?_map]

/-- The new entry is the last one. -/
theorem Consistent.getElem?_record_length (h : r.Consistent) (hnames : e.descriptor.names ≠ []) :
    (r.record e).entries[r.entries.length]? = some e := by
  rw [h.entries_record hnames, List.getElem?_append_right (by simp)]
  simp

/-- The index still leads from every name to the entry that has it: an older one, or the new one. -/
theorem Consistent.owned_record (h : r.Consistent) (hnames : e.descriptor.names ≠ []) {i : Nat}
    {x : Registered φ} {n : String} (hx : (r.record e).entries[i]? = some x)
    (hn : n ∈ x.descriptor.names) : Assoc.get? (r.record e).index n = some i := by
  rw [h.get?_index_record hnames]
  rcases Nat.lt_trichotomy i r.entries.length with hi | rfl | hi
  · rw [h.getElem?_record_of_lt hnames hi, Option.map_eq_some_iff] at hx
    obtain ⟨x₀, hx₀, rfl⟩ := hx
    obtain ⟨hn₀, hnot⟩ := mem_names_withoutNames.1 hn
    rw [if_neg hnot]
    exact h.owned i x₀ n hx₀ hn₀
  · obtain rfl : e = x := Option.some.inj ((h.getElem?_record_length hnames).symm.trans hx)
    rw [if_pos hn]
  · have hlength : (r.record e).entries.length ≤ i := by
      rw [h.entries_record hnames]
      simp
      omega
    rw [List.getElem?_eq_none hlength] at hx
    cases hx

/-- Where the index leads there is an entry with the name: the new one for its own names, and an older one
    for the others. -/
theorem Consistent.placed_record (h : r.Consistent) (hnames : e.descriptor.names ≠ []) {n : String}
    {i : Nat} (hi : Assoc.get? (r.record e).index n = some i) :
    ∃ x, (r.record e).entries[i]? = some x ∧ n ∈ x.descriptor.names := by
  rw [h.get?_index_record hnames] at hi
  by_cases hn : n ∈ e.descriptor.names
  · rw [if_pos hn] at hi
    obtain rfl := Option.some.inj hi
    exact ⟨e, h.getElem?_record_length hnames, hn⟩
  · rw [if_neg hn] at hi
    obtain ⟨x, hx, hnx⟩ := h.placed hi
    have hlt : i < r.entries.length := (List.getElem?_eq_some_iff.1 hx).1
    refine ⟨withoutNames e.descriptor.names x, ?_, mem_names_withoutNames.2 ⟨hnx, hn⟩⟩
    rw [h.getElem?_record_of_lt hnames hlt, hx]
    rfl

/-- **A registration keeps the agreement.** -/
theorem Consistent.record (h : r.Consistent) (e : Registered φ) : (r.record e).Consistent := by
  by_cases hnames : e.descriptor.names = []
  · rwa [record_of_nameless r hnames]
  · exact ⟨fun _ _ _ hx hn => h.owned_record hnames hx hn, fun hi => h.placed_record hnames hi⟩

/-! ## A history of registrations -/

/-- **What a history makes of a registry.**  The functions that were there lose all names that are listed,
    and those that are accepted follow with what is left of them. -/
theorem foldl_record (h : r.Consistent) (fs : List (Registered φ)) :
    (fs.foldl record r).Consistent ∧
      (fs.foldl record r).entries = r.entries.map (withoutNames (listed fs)) ++ remaining fs := by
  induction fs generalizing r with
  | nil =>
    refine ⟨h, ?_⟩
    show r.entries = r.entries.map (withoutNames []) ++ []
    rw [funext withoutNames_nil, List.map_id', List.append_nil]
  | cons e fs ih =>
    obtain ⟨hconsistent, hentries⟩ := ih (h.record e)
    refine ⟨hconsistent, ?_⟩
    -- what was there loses the names of the first function, and then those of the others
    rw [List.foldl_cons, hentries, remaining, listed_cons]
    by_cases hnames : e.descriptor.names = []
    · rw [record_of_nameless r hnames, hnames]
      rfl
    · have hempty : e.descriptor.names.isEmpty = false := by simpa using hnames
      rw [h.entries_record hnames, hempty, List.map_append, List.map_map, List.append_assoc]
      exact congrArg (· ++ withoutNames (listed fs) e :: remaining fs)
        (congrArg (r.entries.map ·) (funext (withoutNames_withoutNames _ _)))

/-- A registry is consistent whatever was registered. -/
theorem ofList_consistent (fs : List (Registered φ)) : (ofList fs).Consistent :=
  (foldl_record empty_consistent fs).1

/-- Its entries are what is left of the functions. -/
theorem entries_ofList (fs : List (Registered φ)) : (ofList fs).entries = remaining fs :=
  (foldl_record empty_consistent fs).2

/-- The functions of a history that are accepted. -/
def accepted (fs : List (Registered φ)) : List (Registered φ) :=
  fs.filter fun e => e.descriptor.names ≠ []

/-- Functions that are refused list nothing. -/
theorem listed_accepted (fs : List (Registered φ)) : listed (accepted fs) = listed fs := by
  induction fs with
  | nil => rfl
  | cons e fs ih =>
    by_cases hnames : e.descriptor.names = []
    · rw [accepted, List.filter_cons, if_neg (by simp [hnames]), listed_cons, hnames]
      exact ih
    · rw [accepted, List.filter_cons, if_pos (decide_eq_true hnames), listed_cons, listed_cons]
      exact congrArg (e.descriptor.names ++ ·) ih

/-- What is left of the functions is what is left of those that were accepted. -/
theorem remaining_accepted (fs : List (Registered φ)) : remaining (accepted fs) = remaining fs := by
  induction fs with
  | nil => rfl
  | cons e fs ih =>
    by_cases hnames : e.descriptor.names = []
    · rw [accepted, List.filter_cons, if_neg (by simp [hnames]), remaining, hnames]
      exact ih
    · have hempty : e.descriptor.names.isEmpty = false := by simpa using hnames
      rw [accepted, List.filter_cons, if_pos (decide_eq_true hnames), remaining, remaining, hempty]
      show withoutNames (listed (accepted fs)) e :: remaining (accepted fs) = _
      rw [ih, listed_accepted]
      rfl

/-- Every function is still there, if only by number. -/
theorem length_remaining {fs : List (Registered φ)} (h : ∀ e ∈ fs, e.descriptor.names ≠ []) :
    (remaining fs).length = fs.length := by
  induction fs with
  | nil => rfl
  | cons e fs ih =>
    have he : e.descriptor.names.isEmpty = false := by simpa using h e List.mem_cons_self
    have hfs := ih fun x hx => h x (List.mem_cons_of_mem _ hx)
    rw [remaining, he]
    exact congrArg (· + 1) hfs

/-- The place of a function is its place among those that were registered, and its names are those that
    no later function lists. -/
theorem getElem?_remaining {before after : List (Registered φ)}
    (h : ∀ x ∈ before ++ e :: after, x.descriptor.names ≠ []) :
    (remaining (before ++ e :: after))[before.length]? = some (withoutNames (listed after) e) := by
  induction before with
  | nil =>
    -- no function is left out, so no place is
    have he : e.descriptor.names.isEmpty = false := by simpa using h e List.mem_cons_self
    rw [List.nil_append, remaining, he]
    rfl
  | cons x before ih =>
    have hx : x.descriptor.names.isEmpty = false := by simpa using h x List.mem_cons_self
    have hrest := ih fun y hy => h y (List.mem_cons_of_mem _ hy)
    rw [List.cons_append, remaining, hx]
    exact hrest

/-- A function that was accepted has a name. -/
theorem names_ne_nil_of_mem_accepted {fs : List (Registered φ)} (h : e ∈ accepted fs) :
    e.descriptor.names ≠ [] := of_decide_eq_true (List.mem_filter.1 h).2

/-- An accepted function stands in its order, with the names that no later one lists. -/
theorem getElem?_entries_ofList {fs before after : List (Registered φ)}
    (h : accepted fs = before ++ e :: after) :
    (ofList fs).entries[before.length]? = some (withoutNames (listed after) e) := by
  rw [entries_ofList, ← remaining_accepted, h]
  exact getElem?_remaining fun x hx => names_ne_nil_of_mem_accepted (h ▸ hx)

/-- Whatever is left of a function was registered. -/
theorem exists_of_mem_remaining {fs : List (Registered φ)} (h : e ∈ remaining fs) :
    ∃ x ∈ fs, ∃ taken, e = withoutNames taken x := by
  induction fs with
  | nil => cases h
  | cons x fs ih =>
    rw [remaining] at h
    split at h
    · obtain ⟨y, hy, htaken⟩ := ih h
      exact ⟨y, List.mem_cons_of_mem _ hy, htaken⟩
    · rcases List.mem_cons.1 h with rfl | h
      · exact ⟨x, List.mem_cons_self, listed fs, rfl⟩
      · obtain ⟨y, hy, htaken⟩ := ih h
        exact ⟨y, List.mem_cons_of_mem _ hy, htaken⟩

/-- **The last function that listed a name is the one that the name leads to.** -/
theorem find?_ofList {fs before after : List (Registered φ)} (h : accepted fs = before ++ e :: after)
    (hname : name ∈ e.descriptor.names) (hlast : name ∉ listed after) :
    (ofList fs).find? name = some (withoutNames (listed after) e) :=
  (ofList_consistent fs).find?_eq_some_iff.2
    ⟨List.mem_of_getElem? (getElem?_entries_ofList h), mem_names_withoutNames.2 ⟨hname, hlast⟩⟩

/-- A name is registered if some function listed it. -/
theorem contains_ofList_iff {fs : List (Registered φ)} :
    (ofList fs).contains name = true ↔ name ∈ listed fs := by
  rw [← (ofList_consistent fs).find?_isSome, Option.isSome_iff_exists]
  constructor
  · -- the entry that is found is left of a function that listed the name
    rintro ⟨x, hx⟩
    obtain ⟨hmem, hname⟩ := (ofList_consistent fs).find?_eq_some_iff.1 hx
    rw [entries_ofList] at hmem
    obtain ⟨y, hy, taken, rfl⟩ := exists_of_mem_remaining hmem
    exact mem_listed.2 ⟨y, hy, (mem_names_withoutNames.1 hname).1⟩
  · -- of the functions that list the name, the last one is found
    intro h
    rw [← listed_accepted] at h
    obtain ⟨before, x, after, hsplit, hname, hlast⟩ := exists_last_listing h
    exact ⟨_, find?_ofList hsplit hname hlast⟩

/-- No name belongs to two functions, or twice to one. -/
theorem nodup_names_ofList {fs : List (Registered φ)}
    (distinct : ∀ e ∈ fs, e.descriptor.names.Nodup) : (listed (ofList fs).entries).Nodup := by
  have hconsistent := ofList_consistent fs
  refine List.nodup_flatMap.2 ⟨fun x hx => ?_, List.pairwise_iff_getElem.2 fun i j hi hj hij => ?_⟩
  · rw [entries_ofList] at hx
    obtain ⟨y, hy, taken, rfl⟩ := exists_of_mem_remaining hx
    exact (distinct y hy).filter _
  · intro name hni hnj
    have hfirst := hconsistent.owned i _ name (List.getElem?_eq_getElem hi) hni
    have hsecond := hconsistent.owned j _ name (List.getElem?_eq_getElem hj) hnj
    have hsame : i = j := Option.some.inj (hfirst.symm.trans hsecond)
    omega

/-- The sorted list has the names that are registered. -/
theorem mem_names_iff : name ∈ r.names ↔ r.contains name = true := by
  rw [names, List.mem_mergeSort]
  exact (Assoc.contains_iff_mem_keys r.index name).symm

/-! ## Calls -/

/-- There is nothing to be called. -/
theorem call_of_find?_eq_none {r : Registry Behaviour} (h : r.find? name = none) (calls : Calls)
    (args : List Value) : r.call calls name args = Action.fail (.unknownFunction name) := by
  rw [call, h]

/-- **What a call does.**  The number of the arguments has to be accepted, the macro has to be trusted if
    the function asks for it, and then the function runs and its value is coerced.  Which other names the
    function has, or had, makes no difference. -/
theorem call_of_find?_withoutNames {r : Registry Behaviour} {b : Builtin} {taken : List String}
    (h : r.find? name = some (withoutNames taken b)) (calls : Calls) (args : List Value) :
    r.call calls name args =
      if b.descriptor.arity.accepts args.length then do
        if b.descriptor.trusted then Action.requireTrust name
        let v ← b.function.run calls name args
        pure v.coerced
      else Action.fail (.arity name b.descriptor.arity args.length) := by
  rw [call, h]
  rfl

/-- A function that is registered alone is found under its names. -/
theorem find?_singleton {b : Registered φ} (hname : name ∈ b.descriptor.names) :
    (ofList [b]).find? name = some (withoutNames [] b) := by
  have hnames : b.descriptor.names ≠ [] := List.ne_nil_of_mem hname
  have halone : accepted [b] = [] ++ b :: [] := by
    rw [accepted, List.filter_cons, if_pos (decide_eq_true hnames)]
    rfl
  exact find?_ofList halone hname List.not_mem_nil

/-- **Names and functions after any registrations.**  Every accepted function keeps its place and, in
    order, those of its names that no later one listed; a name leads to the last function that listed it,
    and no name is left to two functions. -/
structure LastOwns (fs : List Builtin) (r : Registry Behaviour) : Prop where
  /-- A name is registered exactly if an accepted function listed it. -/
  contains_iff : ∀ name, r.contains name = true ↔ ∃ e ∈ accepted fs, name ∈ e.descriptor.names
  mem_names_iff : ∀ name, name ∈ r.names ↔ r.contains name = true
  /-- Any other name is not described, and to call it is an error. -/
  unknown : ∀ name, r.contains name = false → r.descriptor? name = none ∧
    ∀ calls args, r.call calls name args = Action.fail (.unknownFunction name)
  length_entries : r.entries.length = (accepted fs).length
  entry : ∀ before e after, accepted fs = before ++ e :: after →
    r.entries[before.length]? = some (withoutNames (listed after) e)
  /-- The last function that listed a name is described under it, by the names that are left to it. -/
  described : ∀ before e after, accepted fs = before ++ e :: after →
    ∀ name ∈ e.descriptor.names, name ∉ listed after →
      r.descriptor? name = some (withoutNames (listed after) e).descriptor
  /-- A call of the name checks what this function asks for, and then runs this function. -/
  called : ∀ before e after, accepted fs = before ++ e :: after →
    ∀ name ∈ e.descriptor.names, name ∉ listed after → ∀ calls args,
      r.call calls name args =
        if e.descriptor.arity.accepts args.length then do
          if e.descriptor.trusted then Action.requireTrust name
          let v ← e.function.run calls name args
          pure v.coerced
        else Action.fail (.arity name e.descriptor.arity args.length)
  /-- So the call is what it would be if the function were the only one. -/
  calledAlone : ∀ before e after, accepted fs = before ++ e :: after →
    ∀ name ∈ e.descriptor.names, name ∉ listed after → ∀ calls args,
      r.call calls name args = (ofList [e]).call calls name args
  nodup_names : (listed r.entries).Nodup
  hasName : ∀ name d, r.descriptor? name = some d → d.hasName name = true
  /-- The index leads from a name to a function exactly if the function still has the name. -/
  index_iff : ∀ name i, Assoc.get? r.index name = some i ↔
    ∃ e, r.entries[i]? = some e ∧ e.descriptor.hasName name = true
  /-- One more function goes on with the history if it has a name. -/
  accepts : ∀ e : Builtin, e.descriptor.names ≠ [] →
    r.register e.descriptor e.function = .ok (ofList (fs ++ [e]))
  /-- A function without a name is refused, and nothing changes. -/
  refuses : ∀ e : Builtin, e.descriptor.names = [] →
    r.register e.descriptor e.function = .error .noNames ∧ ofList (fs ++ [e]) = r

/-- The registry accepts one more function. -/
theorem register_ofList (fs : List (Registered φ)) (h : e.descriptor.names ≠ []) :
    (ofList fs).register e.descriptor e.function = .ok (ofList (fs ++ [e])) := by
  have hstep : ofList (fs ++ [e]) = (ofList fs).record e := List.foldl_append
  have hempty : e.descriptor.names.isEmpty = false := by simpa using h
  rw [hstep, record, register, hempty]
  rfl

/-- **The last registration of a name owns it**, whatever was registered before under whatever names. -/
theorem last_registration_owns (fs : List Builtin)
    (distinct : ∀ e ∈ fs, e.descriptor.names.Nodup) : LastOwns fs (ofList fs) := by
  have hconsistent : (ofList fs).Consistent := ofList_consistent fs
  refine {
    contains_iff := fun name => ?_
    mem_names_iff := fun name => mem_names_iff
    unknown := fun name hname => ?_
    length_entries := ?_
    entry := fun before e after hsplit => getElem?_entries_ofList hsplit
    described := fun before e after hsplit name hname hlast =>
      descriptor?_eq (find?_ofList hsplit hname hlast)
    called := fun before e after hsplit name hname hlast =>
      call_of_find?_withoutNames (find?_ofList hsplit hname hlast)
    calledAlone := fun before e after hsplit name hname hlast calls args => ?_
    nodup_names := nodup_names_ofList distinct
    hasName := fun _ _ hd => hconsistent.hasName_of_descriptor? hd
    index_iff := fun _ _ => hconsistent.get?_index_iff
    accepts := fun e he => register_ofList fs he
    refuses := fun e he => ⟨register_of_nameless _ he, ?_⟩ }
  · rw [contains_ofList_iff, ← listed_accepted]
    exact mem_listed
  · have hnone : (ofList fs).find? name = none := hconsistent.find?_eq_none hname
    refine ⟨?_, call_of_find?_eq_none hnone⟩
    rw [descriptor?, hnone]
    rfl
  · rw [entries_ofList, ← remaining_accepted]
    exact length_remaining fun e he => names_ne_nil_of_mem_accepted he
  · rw [call_of_find?_withoutNames (find?_ofList hsplit hname hlast),
      call_of_find?_withoutNames (find?_singleton hname)]
  · exact List.foldl_append.trans (record_of_nameless _ he)

/-- A function that takes no arguments, with these names and this value. -/
def numbered (names : List String) (n : Int) : Builtin :=
  ⟨⟨names, .exactly 0, false, true, ""⟩, .computes fun _ _ => .ok (.ofInt n)⟩

/-- Three functions that share names, and one that has none. -/
def overlapping : List Builtin :=
  [numbered ["sum", "add"] 1, numbered [] 2, numbered ["plus", "add"] 3, numbered ["plus"] 4]

/-- The third function takes over a name of the first one, and loses one to the fourth. -/
theorem last_registration_owns_overlapping :
    (∀ e ∈ overlapping, e.descriptor.names.Nodup) ∧
      let r : Registry Behaviour := ofList overlapping
      r.contains "add" = true ∧ (listed r.entries).Nodup ∧
      r.entries[0]?.map (fun e => e.descriptor.names) = some ["sum"] ∧
      (r.descriptor? "add").map Descriptor.names = some ["add"] ∧
      (r.descriptor? "plus").map Descriptor.names = some ["plus"] ∧
      ∀ calls f s, r.call calls "add" [] f s = (.ok (.ofInt 3), s) ∧
        r.call calls "plus" [] f s = (.ok (.ofInt 4), s) := by
  have distinct : ∀ e ∈ overlapping, e.descriptor.names.Nodup := by decide
  have howns := last_registration_owns overlapping distinct
  have hadd := howns.described [overlapping[0]] overlapping[2] [overlapping[3]] rfl "add"
    (by decide) (by decide)
  have hplus := howns.described [overlapping[0], overlapping[2]] overlapping[3] [] rfl "plus"
    (by decide) (by decide)
  refine ⟨distinct, (howns.contains_iff "add").2 ⟨overlapping[0], ?_, by decide⟩, howns.nodup_names, ?_,
    ?_, ?_, fun calls f s => ⟨?_, ?_⟩⟩
  · exact List.mem_filter.2 ⟨List.getElem_mem _, by decide⟩
  · have hsum := howns.entry [] overlapping[0] [overlapping[2], overlapping[3]] rfl
    exact (congrArg (Option.map fun e : Builtin => e.descriptor.names) hsum).trans (by decide)
  · rw [hadd]
    decide
  · rw [hplus]
    decide
  · rw [howns.called [overlapping[0]] overlapping[2] [overlapping[3]] rfl "add" (by decide) (by decide)]
    rfl
  · rw [howns.called [overlapping[0], overlapping[2]] overlapping[3] [] rfl "plus" (by decide) (by decide)]
    rfl

end Tabletop.Registry
