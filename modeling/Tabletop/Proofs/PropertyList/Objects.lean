import Tabletop.Proofs.PropertyList.Coerced
import Tabletop.Proofs.Trees.Membership

/-
  A property list that was made an object can be made a property list again.

  1. **The middle** — as its keys are different, the object of a list has one field for each entry, in
     order, and each field is shown as the entry's coerced value (`Laid.toJson_eq`, `display_field`).
     Both ways back start from here.

  2. **As a text** — the fields are joined without any blanks, and no field has the separator in it, so
     cutting finds them again (`pairsIn_join`).

  3. **As a list** — the fields are set one after another (`Laid.ofJson?_toJson`); no separator has a part
     in this.
-/
namespace Tabletop.PropertyList

variable {d : Char}

/-! ## The object -/

/-- The field that an entry becomes. -/
def field (e : Property) : String × Json := (e.key, (Value.coerce e.value).toJson)

/-- **The object of a list** has the fields of its entries. -/
theorem Laid.toJson_eq {l : PropertyList} (h : Laid d l.entries) :
    l.toJson = .object (l.entries.map field) := by
  have hfields : l.pairs.map (fun p => (p.1, (Value.coerce p.2).toJson)) = l.entries.map field := by
    rw [pairs, List.map_map]
    rfl
  have hkeys : (Assoc.keys (l.entries.map field)).Nodup := by
    rw [Assoc.keys, List.map_map]
    exact h.nodup_keys
  rw [toJson, hfields, Assoc.ofList_eq hkeys]

/-- The numbers of a list are integers of 64 bits. -/
def Storable (es : List Property) : Prop := ∀ e ∈ es, (Value.coerce e.value).Storable

/-- **A field is shown** as what the entry was coerced to. -/
theorem display_field {e : Property} (h : (Value.coerce e.value).Storable) :
    (Value.ofJson (field e).2).display = e.coerced.value := by
  rw [field, Value.display_ofJson_toJson h, Value.coerced_coerce]
  rfl

/-! ## As a text -/

/-- **Entries that are joined with the separator are read back.** -/
theorem pairsIn_join (hd : d ≠ '=') {es : List Property} (h : ∀ e ∈ es, LaidEntry d e) :
    pairsIn d (Text.joinChars [d] (es.map entryChars)) = es.map pairChars := by
  cases es with
  | nil => rfl
  | cons e es =>
    have hfree : ∀ p ∈ (e :: es).map entryChars, d ∉ p := by
      intro p hp
      obtain ⟨x, hx, rfl⟩ := List.mem_map.1 hp
      exact not_mem_entryChars (h x hx) hd
    rw [pairsIn, Text.splitChars_joinChars (by simp) hfree, List.filterMap_map, ← List.filterMap_eq_map]
    exact List.filterMap_congr fun x hx => Leads.nil.pairOf?_entryChars (h x hx)

/-- An object's fields as text are the coerced entries with the separator between them. -/
theorem Laid.textOfJson?_toJson {l : PropertyList} (h : Laid d l.entries) (storable : Storable l.entries)
    (delimiter : String) :
    textOfJson? l.toJson delimiter = some (String.ofList
      (Text.joinChars delimiter.toList ((l.entries.map Property.coerced).map entryChars))) := by
  rw [h.toJson_eq, textOfJson?, Text.join, List.map_map, List.map_map, List.map_map]
  congr 3
  refine List.map_congr_left fun e he => ?_
  show (e.key ++ "=" ++ (Value.ofJson (field e).2).display).toList = entryChars e.coerced
  rw [display_field (storable e he), String.toList_append, String.toList_append, List.append_assoc]
  rfl

/-- The text of an object writes no number. -/
theorem coerce_join (delimiter : List Char) (es : List Property) :
    Value.coerce (String.ofList (Text.joinChars delimiter (es.map entryChars))) =
      .text (String.ofList (Text.joinChars delimiter (es.map entryChars))) := by
  refine coerce_of_sign ?_
  cases es with
  | nil => exact .inl rfl
  | cons e es =>
    have hsign : '=' ∈ entryChars e := List.mem_append_right _ List.mem_cons_self
    rw [String.toList_ofList]
    cases es with
    | nil => exact .inr hsign
    | cons x es =>
      rw [List.map_cons, List.map_cons, Text.joinChars_cons_cons]
      exact .inr (List.mem_append_left _ (List.mem_append_left _ hsign))

/-! ## As a list -/

/-- **An object is taken over entry by entry**, whatever the separator of the list is. -/
theorem Laid.ofJson?_toJson (hd : d.isDigit = false) {l : PropertyList} (h : Laid d l.entries)
    (storable : Storable l.entries) (delimiter : String) :
    ofJson? l.toJson delimiter =
      some ⟨l.entries.map Property.coerced, (new delimiter).delimiter⟩ := by
  rw [h.toJson_eq, ← h.setAll_coerced hd, ofJson?, setAll, List.foldl_map, List.foldl_map]
  refine congrArg some (List.foldl_ext _ _ _ fun l e he => ?_)
  rw [display_field (storable e he)]
  rfl

/-! ## The two calls -/

section Dispatch

variable (calls : Calls) (d : Char) (f : Frame) (st : RunState)

theorem call_jsonFromStrProp (s : String) :
    Registry.builtins.call calls "json.fromStrProp" [.text s, .text (String.singleton d)] f st =
      (.ok (.tree (parse s (String.singleton d)).toJson), st) := by
  refine Registry.call_of_computes (b := Builtin.jsonFromStrProp)
    (v := .tree (parse s (String.singleton d)).toJson) (Registry.find?_builtins _) rfl rfl rfl ?_ calls f st
  show Except.ok (Value.tree (parse s (Arguments.delimiterAt
    [.text s, .text (String.singleton d)] 1 defaultDelimiter)).toJson) = _
  rw [delimiterAt_singleton (i := 1) rfl]

theorem call_jsonToStrProp {j : Json} {text : String}
    (h : textOfJson? j (String.singleton d) = some text) (writes_none : Value.coerce text = .text text) :
    Registry.builtins.call calls "json.toStrProp" [.tree j, .text (String.singleton d)] f st =
      (.ok (.text text), st) := by
  rw [← writes_none]
  refine Registry.call_of_computes (b := Builtin.jsonToStrProp) (v := .text text)
    (Registry.find?_builtins _) rfl rfl rfl ?_ calls f st
  show (Except.ok j >>= _) = _
  rw [delimiterAt_singleton (i := 1) rfl]
  dsimp only [bind, Except.bind]
  rw [h]
  rfl

end Dispatch

/-- **A property list survives a trip through a tree**, if the numbers in it are integers of 64 bits.  The
    object of a list, written as a property list with the same separator, is read as the same keys in the
    same order and case; each value is what the value in the first text is shown as once it is coerced.
    Taking the object over as a list gives the same keys and values. -/
theorem read_of_object (calls : Calls) (s : String) (d : Char) (hsign : d ≠ '=')
    (hdigit : d.isDigit = false)
    (storable : ∀ p ∈ (parse s (String.singleton d)).pairs, (Value.coerce p.2).Storable) (f : Frame)
    (st : RunState) :
    let call (name : String) (args : List Value) := Registry.builtins.call calls name args f st
    let l := parse s (String.singleton d)
    ∃ j text,
      call "json.fromStrProp" [.text s, .text (String.singleton d)] = (.ok (.tree j), st) ∧
      call "json.toStrProp" [.tree j, .text (String.singleton d)] = (.ok (.text text), st) ∧
      (parse text (String.singleton d)).pairs = l.coercedPairs ∧
      ∀ delimiter, ∃ l', ofJson? j delimiter = some l' ∧ l'.pairs = l.coercedPairs := by
  intro call l
  have hlaid : Laid d l.entries := laid_parse s d
  -- the values of the object are the coerced values of the list
  have hcoerced : Laid d (l.entries.map Property.coerced) := hlaid.coerced hdigit
  have hstorable : Storable l.entries := fun e he => storable (e.key, e.value) (List.mem_map_of_mem he)
  have htext := hlaid.textOfJson?_toJson hstorable (String.singleton d)
  refine ⟨l.toJson, _, call_jsonFromStrProp calls d f st s,
    call_jsonToStrProp calls d f st htext (coerce_join _ _), ?_, fun delimiter => ?_⟩
  · rw [pairs_parse_of_pairsIn _ hcoerced.distinct]
    · exact pairs_coerced l
    · rw [String.toList_ofList, String.toList_singleton]
      exact pairsIn_join hsign hcoerced.entries
  · exact ⟨_, hlaid.ofJson?_toJson hdigit hstorable delimiter, pairs_coerced l⟩

/-- A key that comes a second time, with an integer in place of a fraction; a value that starts like an
    array; a number with a sign and zeros; and no value at all. -/
def chest : String := "Gold = 2.5| x.y=[1, 007]; note|gems= +003 |GOLD=-4.0|lock="

/-- The chest survives the trip. -/
theorem read_of_object_chest :
    let f := (RunRequest.ofText (.unattached false) "Pat" none).frame false
    let st : RunState := ⟨.ofCampaign (Campaign.new "Keep") ⟨0⟩, [], ""⟩
    let call (name : String) (args : List Value) :=
      Registry.builtins.call (Calls.ofDepth .builtins 2) name args f st
    '|' ≠ '=' ∧ '|'.isDigit = false ∧
      (∀ p ∈ (parse chest (String.singleton '|')).pairs, (Value.coerce p.2).Storable) ∧
      ∃ j text,
        call "json.fromStrProp" [.text chest, .text (String.singleton '|')] = (.ok (.tree j), st) ∧
        call "json.toStrProp" [.tree j, .text (String.singleton '|')] = (.ok (.text text), st) ∧
        (parse text (String.singleton '|')).pairs =
          [("Gold", "-4"), ("x.y", "[1, 007]; note"), ("gems", "3"), ("lock", "")] ∧
        ∃ l', ofJson? j "" = some l' ∧ l'.pairs = (parse text (String.singleton '|')).pairs := by
  intro f st call
  have hsign : '|' ≠ '=' := by decide
  have hdigit : '|'.isDigit = false := by decide
  have hpairs : (parse chest (String.singleton '|')).pairs =
      [("Gold", "-4.0"), ("x.y", "[1, 007]; note"), ("gems", "+003"), ("lock", "")] := by decide +kernel
  have hshown : (parse chest (String.singleton '|')).coercedPairs =
      [("Gold", "-4"), ("x.y", "[1, 007]; note"), ("gems", "3"), ("lock", "")] := by decide +kernel
  have hgold : Value.coerce "-4.0" = .number ⟨-40, 1⟩ := Value.coerce_of_ofText? (by decide +kernel)
  have hgems : Value.coerce "+003" = .number ⟨3, 0⟩ := Value.coerce_of_ofText? (by decide +kernel)
  have hstorable : ∀ p ∈ (parse chest (String.singleton '|')).pairs, (Value.coerce p.2).Storable := by
    rw [hpairs, List.forall_mem_cons, List.forall_mem_cons, List.forall_mem_cons, List.forall_mem_singleton,
      hgold, hgems]
    exact ⟨⟨-4, by decide, by decide⟩, trivial, ⟨3, by decide, by decide⟩, trivial⟩
  obtain ⟨j, text, hmake, hwrite, htext, hlist⟩ := read_of_object (Calls.ofDepth .builtins 2) chest '|' hsign
    hdigit hstorable f st
  obtain ⟨l', hl', hpairs'⟩ := hlist ""
  exact ⟨hsign, hdigit, hstorable, j, text, hmake, hwrite, htext.trans hshown, l', hl',
    hpairs'.trans htext.symm⟩

end Tabletop.PropertyList
