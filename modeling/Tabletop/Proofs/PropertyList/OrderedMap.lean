import Tabletop.Proofs.PropertyList.Layout

/-
  Property lists are ordered maps whose keys do not care about case.

  1. **Keys are different** — `Distinct`: no two entries of a list have keys with the same upper-case
     form.  Nothing in the type says so; it is an invariant of reading, of taking over an object, and of
     both edits (`Reached.distinct`).

  2. **Positions** — as keys are different, the one entry that `set` overwrites and the one entry that
     `delete` takes out are all entries with the key.  So the entries afterwards are those of before,
     mapped or filtered (`entries_set`, `entries_delete`).

  3. **Look-ups** — an edit changes what is found under its own key and under no other one
     (`get?_set`, `get?_delete`).
-/
namespace Tabletop.PropertyList

/-- The keys of a list are different, also in upper case. -/
def Distinct (l : PropertyList) : Prop := (l.entries.map fun e => keyForm e.key).Nodup

instance (l : PropertyList) : Decidable l.Distinct := inferInstanceAs (Decidable (List.Nodup _))

/-- The lists that there can be: those that are read or taken over from an object, and their edits. -/
inductive Reached : PropertyList → Prop
  | parse (s delimiter : String) : Reached (parse s delimiter)
  | ofJson {j : Json} {delimiter : String} {l : PropertyList} (h : ofJson? j delimiter = some l) :
      Reached l
  | set {l : PropertyList} (h : Reached l) (key value : String) : Reached (l.set key value)
  | delete {l : PropertyList} (h : Reached l) (key : String) : Reached (l.delete key)

/-! ## Keys are different -/

/-- A key that is there is set in its place; any other is new. -/
theorem distinct_set {l : PropertyList} (h : l.Distinct) (key value : String) :
    (l.set key value).Distinct := by
  have hput := nodup_put h ⟨Text.trim key, Text.trim value, none⟩
  rw [keyForm_trim] at hput
  unfold Distinct set
  cases ho : overwrite (soughtForm key) (Text.trim value) l.entries with
  | some es =>
    rw [ho] at hput
    exact hput
  | none =>
    rw [ho] at hput
    exact hput

/-- Without an entry the others are as distinct as before. -/
theorem distinct_delete {l : PropertyList} (h : l.Distinct) (key : String) : (l.delete key).Distinct := by
  rw [delete_eq]
  exact h.sublist (List.eraseP_sublist.map _)

/-- A segment brings in no key a second time, whatever the layout is. -/
theorem nodup_readSegment (st : ReadState) (h : (st.entries.map fun e => keyForm e.key).Nodup)
    (segment : List Char) :
    ((readSegment st segment).entries.map fun e => keyForm e.key).Nodup := by
  unfold readSegment
  cases findPair? false segment with
  | none => exact h
  | some r =>
    obtain ⟨before, key, raw⟩ := r
    have hput := nodup_put h ⟨String.ofList key, String.ofList (Text.trimChars raw),
      if st.entries.isEmpty then none else some (String.ofList (st.pending ++ before))⟩
    -- the key is compared in the form in which it stands there
    have hform : keyForm (String.ofList key) = Text.upperChars key := by
      rw [keyForm, String.toList_ofList]
    rw [hform] at hput
    dsimp only
    cases ho : overwrite (Text.upperChars key) (String.ofList (Text.trimChars raw)) st.entries with
    | some es =>
      rw [ho] at hput
      exact hput
    | none =>
      rw [ho] at hput
      exact hput

/-- All segments, one after the other. -/
theorem nodup_readSegments (d : List Char) {st : ReadState}
    (h : (st.entries.map fun e => keyForm e.key).Nodup) (segments : List (List Char)) :
    ((readSegments d st segments).entries.map fun e => keyForm e.key).Nodup := by
  induction segments generalizing st with
  | nil => exact h
  | cons s segments ih =>
    have hs := nodup_readSegment { st with pending := st.pending ++ d } h s
    exact ih hs

/-- A text is read into distinct keys. -/
theorem distinct_parse (s delimiter : String) : (parse s delimiter).Distinct := by
  rw [Distinct, parse]
  cases Text.splitChars (new delimiter).delimiter.toList s.toList with
  | nil => exact List.nodup_nil
  | cons first rest =>
    have hfirst := nodup_readSegment ReadState.start List.nodup_nil first
    exact nodup_readSegments _ hfirst rest

/-- An object is, too, as every field is set. -/
theorem distinct_ofJson {j : Json} {delimiter : String} {l : PropertyList}
    (h : ofJson? j delimiter = some l) : l.Distinct := by
  have hfold (fs : List (String × Json)) (l : PropertyList) (hl : l.Distinct) :
      (fs.foldl (fun l f => l.set f.1 (Value.ofJson f.2).display) l).Distinct := by
    induction fs generalizing l with
    | nil => exact hl
    | cons f fs ih => exact ih _ (distinct_set hl f.1 _)
  unfold ofJson? at h
  split at h
  · next fs =>
    obtain rfl := Option.some.inj h
    exact hfold fs (new delimiter) List.nodup_nil
  · cases h

/-- **The keys of every list are different.** -/
theorem Reached.distinct {l : PropertyList} (h : Reached l) : l.Distinct := by
  induction h with
  | parse s delimiter => exact distinct_parse s delimiter
  | ofJson h => exact distinct_ofJson h
  | set h key value ih => exact distinct_set ih key value
  | delete h key ih => exact distinct_delete ih key

/-! ## Positions -/

/-- A key is there if an entry has its form. -/
theorem contains_iff {l : PropertyList} {key : String} :
    l.contains key = true ↔ soughtForm key ∈ l.entries.map fun e => keyForm e.key := by
  rw [contains, get?, Option.isSome_map, List.find?_isSome, List.mem_map]
  constructor
  · rintro ⟨e, he, hform⟩
    exact ⟨e, he, eq_of_beq hform⟩
  · rintro ⟨e, he, hform⟩
    exact ⟨e, he, beq_iff_eq.2 hform⟩

/-- Where keys are different, overwriting the first entry of a key overwrites all of them. -/
theorem overwrite_eq_map {form : List Char} (value : String) {es : List Property}
    (h : (es.map fun e => keyForm e.key).Nodup) (hform : form ∈ es.map fun e => keyForm e.key) :
    overwrite form value es =
      some (es.map fun e => if keyForm e.key = form then { e with value } else e) := by
  induction es with
  | nil => cases hform
  | cons e es ih =>
    obtain ⟨hhead, htail⟩ := List.nodup_cons.1 h
    rw [overwrite, List.map_cons]
    by_cases he : keyForm e.key = form
    · -- no other entry has this key, so none of them is changed
      have hother : ∀ x ∈ es, keyForm x.key ≠ form := fun x hx hxe =>
        hhead (List.mem_map.2 ⟨x, hx, hxe.trans he.symm⟩)
      have hrest : es.map (fun e => if keyForm e.key = form then { e with value } else e) = es :=
        (List.map_congr_left fun x hx => if_neg (hother x hx)).trans (List.map_id' es)
      rw [if_pos he, if_pos he, hrest]
    · have hmem : form ∈ es.map fun e => keyForm e.key :=
        (List.mem_cons.1 hform).resolve_left (Ne.symm he)
      rw [if_neg he, if_neg he, ih htail hmem]
      rfl

/-- A key that is not there cannot be set in place. -/
theorem overwrite_of_not_mem {form : List Char} (value : String) {es : List Property}
    (h : form ∉ es.map fun e => keyForm e.key) : overwrite form value es = none := by
  induction es with
  | nil => rfl
  | cons e es ih =>
    rw [List.map_cons, List.mem_cons, not_or] at h
    rw [overwrite, if_neg (Ne.symm h.1), ih h.2]
    rfl

/-- **Setting a key that is there** changes the value in its place; the spelling of the key stays. -/
theorem entries_set_of_contains {l : PropertyList} (h : l.Distinct) {key : String}
    (hkey : l.contains key = true) (value : String) :
    (l.set key value).entries = l.entries.map fun e =>
      if keyForm e.key = soughtForm key then { e with value := Text.trim value } else e := by
  rw [set, overwrite_eq_map (Text.trim value) h (contains_iff.1 hkey)]

/-- **Setting a new key** appends one entry. -/
theorem entries_set_of_not_contains {l : PropertyList} {key : String} (hkey : l.contains key = false)
    (value : String) :
    (l.set key value).entries = l.entries ++ [⟨Text.trim key, Text.trim value, none⟩] := by
  have hnot : soughtForm key ∉ l.entries.map fun e => keyForm e.key := by
    rw [← contains_iff, hkey]
    exact Bool.false_ne_true
  rw [set, overwrite_of_not_mem (Text.trim value) hnot]

/-- To take out the first entry of a key is to take out all. -/
theorem eraseP_eq_filter {form : List Char} {es : List Property}
    (h : (es.map fun e => keyForm e.key).Nodup) :
    es.eraseP (fun e => keyForm e.key == form) = es.filter fun e => keyForm e.key ≠ form := by
  induction es with
  | nil => rfl
  | cons e es ih =>
    obtain ⟨hhead, htail⟩ := List.nodup_cons.1 h
    by_cases he : keyForm e.key = form
    · -- no other entry has this key, so none of them is taken out
      have hother : ∀ x ∈ es, keyForm x.key ≠ form := fun x hx hxe =>
        hhead (List.mem_map.2 ⟨x, hx, hxe.trans he.symm⟩)
      have hrest : es.filter (fun e => keyForm e.key ≠ form) = es :=
        List.filter_eq_self.2 fun x hx => decide_eq_true (hother x hx)
      rw [List.eraseP_cons, List.filter_cons, he, hrest]
      simp
    · have he' : (keyForm e.key == form) = false := beq_eq_false_iff_ne.2 he
      rw [List.eraseP_cons, List.filter_cons, he', ih htail, if_pos (decide_eq_true he)]
      rfl

/-- **Deleting a key** leaves all other entries as they are. -/
theorem entries_delete {l : PropertyList} (h : l.Distinct) (key : String) :
    (l.delete key).entries = l.entries.filter fun e => keyForm e.key ≠ soughtForm key := by
  rw [delete_eq]
  exact eraseP_eq_filter h

/-- Removing says whether the key was there, and deletes it. -/
theorem remove_eq (l : PropertyList) (key : String) : l.remove key = (l.contains key, l.delete key) := by
  have hcontains : l.contains key = (position? l.entries key).isSome := by
    rw [Bool.eq_iff_iff, contains, get?, Option.isSome_map, List.find?_isSome, position?,
      List.findIdx?_isSome, List.any_eq_true]
  rw [hcontains, delete, remove]
  cases position? l.entries key <;> rfl

/-- There is nothing to be deleted. -/
theorem delete_of_not_contains {l : PropertyList} {key : String} (h : l.contains key = false) :
    l.delete key = l := by
  have hnot : ∀ e ∈ l.entries, ¬(keyForm e.key == soughtForm key) = true := by
    intro e he hform
    rw [contains_iff.2 (List.mem_map.2 ⟨e, he, eq_of_beq hform⟩)] at h
    cases h
  rw [delete_eq, List.eraseP_of_forall_not hnot]

/-! ## Look-ups -/

/-- The value that is found under a form of keys. -/
def found? (form : List Char) (es : List Property) : Option String :=
  (es.find? fun e => keyForm e.key == form).map Property.value

/-- The first entry of the form is found. -/
theorem found?_cons (form : List Char) (e : Property) (es : List Property) :
    found? form (e :: es) = if keyForm e.key = form then some e.value else found? form es := by
  rw [found?, List.find?_cons]
  by_cases he : keyForm e.key = form
  · rw [if_pos he, beq_iff_eq.2 he]
    rfl
  · rw [if_neg he, beq_eq_false_iff_ne.2 he]
    rfl

/-- What is found when a value was set in place. -/
theorem found?_overwrite {form : List Char} {value : String} {es es' : List Property}
    (h : overwrite form value es = some es') (other : List Char) :
    found? other es' = if other = form then some value else found? other es := by
  induction es generalizing es' with
  | nil => cases h
  | cons e es ih =>
    rw [overwrite] at h
    by_cases he : keyForm e.key = form
    · rw [if_pos he] at h
      obtain rfl := Option.some.inj h
      rw [found?_cons, found?_cons]
      -- the entry that was set is the one that is looked for, or it is passed
      by_cases hother : other = form
      · rw [if_pos (he.trans hother.symm), if_pos hother]
      · rw [if_neg fun h => hother (h.symm.trans he), if_neg hother,
          if_neg fun h => hother (h.symm.trans he)]
    · rw [if_neg he] at h
      obtain ⟨rest, hrest, rfl⟩ := Option.map_eq_some_iff.1 h
      rw [found?_cons, found?_cons, ih hrest]
      by_cases hkey : keyForm e.key = other
      · rw [if_pos hkey, if_pos hkey, if_neg fun h => he (hkey.trans h)]
      · rw [if_neg hkey, if_neg hkey]

/-- What is found when an entry was added. -/
theorem found?_append_singleton (form : List Char) (e : Property) {es : List Property}
    (h : keyForm e.key ∉ es.map fun e => keyForm e.key) :
    found? form (es ++ [e]) = if form = keyForm e.key then some e.value else found? form es := by
  induction es with
  | nil =>
    rw [List.nil_append, found?_cons]
    by_cases hform : keyForm e.key = form
    · rw [if_pos hform, if_pos hform.symm]
    · rw [if_neg hform, if_neg (Ne.symm hform)]
  | cons x es ih =>
    rw [List.map_cons, List.mem_cons, not_or] at h
    rw [List.cons_append, found?_cons, found?_cons, ih h.2]
    by_cases hx : keyForm x.key = form
    · rw [if_pos hx, if_pos hx, if_neg fun he => h.1 (he.symm.trans hx.symm)]
    · rw [if_neg hx, if_neg hx]

/-- What is found when a key was taken out. -/
theorem found?_filter (form other : List Char) (es : List Property) :
    found? other (es.filter fun e => keyForm e.key ≠ form) =
      if other = form then none else found? other es := by
  induction es with
  | nil =>
    by_cases hother : other = form
    · rw [if_pos hother]
      rfl
    · rw [if_neg hother]
      rfl
  | cons e es ih =>
    by_cases he : keyForm e.key = form
    · rw [List.filter_cons, if_neg (by simp [he]), ih, found?_cons]
      -- the entry is gone: under its own key nothing is left in front, any other key passes it anyway
      by_cases hother : other = form
      · rw [if_pos hother, if_pos hother]
      · rw [if_neg hother, if_neg hother, if_neg fun h => hother (h.symm.trans he)]
    · rw [List.filter_cons, if_pos (decide_eq_true he), found?_cons, found?_cons, ih]
      by_cases hkey : keyForm e.key = other
      · rw [if_pos hkey, if_pos hkey, if_neg fun h => he (hkey.trans h)]
      · rw [if_neg hkey, if_neg hkey]

/-- **A key that is set** is found with its new value, however it is spelled; all other keys are found as
    before. -/
theorem get?_set (l : PropertyList) (key value other : String) :
    (l.set key value).get? other =
      if soughtForm other = soughtForm key then some (Text.trim value) else l.get? other := by
  show found? (soughtForm other) (l.set key value).entries = _
  cases ho : overwrite (soughtForm key) (Text.trim value) l.entries with
  | some es =>
    rw [set, ho]
    exact found?_overwrite ho (soughtForm other)
  | none =>
    -- no entry has the form of the key, so the new one is the first
    have hnot : keyForm (Text.trim key) ∉ l.entries.map fun e => keyForm e.key := by
      rw [keyForm_trim]
      exact overwrite_eq_none ho
    rw [set, ho]
    show found? (soughtForm other) (l.entries ++ [⟨Text.trim key, Text.trim value, none⟩]) = _
    rw [found?_append_singleton (soughtForm other) ⟨Text.trim key, Text.trim value, none⟩ hnot,
      keyForm_trim]
    rfl

/-- **A key that is deleted** is not found any more; all other keys are found as before. -/
theorem get?_delete {l : PropertyList} (h : l.Distinct) (key other : String) :
    (l.delete key).get? other =
      if soughtForm other = soughtForm key then none else l.get? other := by
  show found? (soughtForm other) (l.delete key).entries = _
  rw [entries_delete h]
  exact found?_filter (soughtForm key) (soughtForm other) l.entries

/-- **A property list is an ordered map** whose keys do not care about case or about blanks around them.
    Its keys are different in upper case.  A key that is set is found with the trimmed value, a key that
    is deleted is not found, and all other keys are found as before.  Setting a key that is there leaves
    all positions, spellings and layouts, setting a new key appends one entry; deleting a key leaves the
    other entries as they are, in their order, and says whether the key was there.  If it was not, the
    list stays what it was. -/
theorem Reached.ordered_map {l : PropertyList} (h : Reached l) :
    (l.entries.map fun e => keyForm e.key).Nodup ∧
    (∀ key value other, (l.set key value).get? other =
      if soughtForm other = soughtForm key then some (Text.trim value) else l.get? other) ∧
    (∀ key value, (l.set key value).entries =
      if l.contains key then
        l.entries.map fun e =>
          if keyForm e.key = soughtForm key then { e with value := Text.trim value } else e
      else l.entries ++ [⟨Text.trim key, Text.trim value, none⟩]) ∧
    (∀ key other, (l.delete key).get? other =
      if soughtForm other = soughtForm key then none else l.get? other) ∧
    (∀ key, (l.delete key).entries = l.entries.filter fun e => keyForm e.key ≠ soughtForm key) ∧
    ∀ key, l.remove key = (l.contains key, l.delete key) ∧
      (l.contains key = false → l.delete key = l) := by
  refine ⟨h.distinct, get?_set l, fun key value => ?_, get?_delete h.distinct, entries_delete h.distinct,
    fun key => ⟨remove_eq l key, delete_of_not_contains⟩⟩
  cases hkey : l.contains key with
  | true => exact entries_set_of_contains h.distinct hkey value
  | false => exact entries_set_of_not_contains hkey value

/-- A sharp s is two letters in upper case, so the second segment has no key of its own; then the key is
    set once more, and another one is deleted that is not there. -/
def street : PropertyList := ((parse "ß=1; SS = 2 ; a=3" ";").set " sS " " 4 ").delete "b"

/-- The street is a map from two keys. -/
theorem Reached.ordered_map_street :
    Reached street ∧ (street.entries.map fun e => keyForm e.key).Nodup ∧
      street.pairs = [("ß", "4"), ("a", "3")] ∧ (street.set "A" "5").get? "a " = some "5" ∧
      (street.delete "ss").get? "ß" = none ∧ street.remove "b" = (false, street) := by
  have hreached : Reached street :=
    Reached.delete (Reached.set (Reached.parse "ß=1; SS = 2 ; a=3" ";") " sS " " 4 ") "b"
  obtain ⟨hnodup, hset, -, hdelete, -, hremove⟩ := hreached.ordered_map
  refine ⟨hreached, hnodup, by decide +kernel, ?_, ?_, ?_⟩
  · have hform : soughtForm "a " = soughtForm "A" := by decide +kernel
    have htrim : Text.trim "5" = "5" := by decide +kernel
    rw [hset, if_pos hform, htrim]
  · have hform : soughtForm "ß" = soughtForm "ss" := by decide +kernel
    rw [hdelete, if_pos hform]
  · have hb : street.contains "b" = false := by decide +kernel
    rw [(hremove "b").1, (hremove "b").2 hb, hb]

end Tabletop.PropertyList
