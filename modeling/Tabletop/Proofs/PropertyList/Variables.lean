import Tabletop.Proofs.PropertyList.Coerced
import Tabletop.Proofs.StringList.Editing

/-
  A property list that is spread over variables can be collected from them again.

  1. **Variables** — different keys have different variables, with a suffix as well as without one
     (`variableOf_inj`).  So the variable of every entry keeps the value that the entry gave it, although
     the entries after it are bound later and all of them share one mapping (`get?_bindEntries`).

  2. **The names** — a key has no comma and no blank in it and is not empty.  So the keys are the items of
     the text in which commas stand between them (`items_join_keys`).

  3. **The crux (`collectEntries_eq`)** — collecting the names of laid entries sets the coerced entries in
     order.  These are laid again, so the text of the collected list is read back.
-/
namespace Tabletop

namespace Builtin

/-! ## Variables -/

/-- **Different keys have different variables.** -/
theorem VariableStyle.variableOf_inj (style : VariableStyle) {key key' : String}
    (h : style.variableOf key = style.variableOf key') : key = key' := by
  unfold variableOf at h
  split at h
  · exact (String.append_left_inj "_").1 h
  · exact h

/-- Binding entries leaves all variables but theirs. -/
theorem get?_bindEntries_of_ne {style : VariableStyle} {es : List Property} {x : String}
    (h : ∀ e ∈ es, style.variableOf e.key ≠ x) (vars : Variables) :
    Assoc.get? (bindEntries style es vars) x = Assoc.get? vars x := by
  induction es generalizing vars with
  | nil => rfl
  | cons e es ih =>
    have hrest := ih (fun y hy => h y (List.mem_cons_of_mem _ hy))
      (Assoc.insert vars (style.variableOf e.key) (.coerce e.value))
    exact hrest.trans (Assoc.get?_insert_of_ne vars _ (h e List.mem_cons_self))

/-- **Every entry is bound**, as no entry after it has the same variable. -/
theorem get?_bindEntries {style : VariableStyle} {es : List Property} (distinct : (es.map Property.key).Nodup)
    {e : Property} (he : e ∈ es) (vars : Variables) :
    Assoc.get? (bindEntries style es vars) (style.variableOf e.key) = some (.coerce e.value) := by
  induction es generalizing vars with
  | nil => cases he
  | cons x es ih =>
    obtain ⟨hhead, htail⟩ := List.nodup_cons.1 distinct
    rcases List.mem_cons.1 he with rfl | he
    · have hother : ∀ y ∈ es, style.variableOf y.key ≠ style.variableOf e.key := fun y hy hsame =>
        hhead (List.mem_map.2 ⟨y, hy, style.variableOf_inj hsame⟩)
      exact (get?_bindEntries_of_ne hother _).trans (Assoc.get?_insert_self vars _ _)
    · exact ih htail he (Assoc.insert vars (style.variableOf x.key) (.coerce x.value))

end Builtin

namespace PropertyList

open Builtin

variable {d : Char} {es : List Property}

/-! ## The names -/

theorem LaidEntry.key_ne_empty {e : Property} (h : LaidEntry d e) : e.key ≠ "" := fun hempty =>
  h.key.1 (String.toList_eq_nil_iff.2 hempty)

theorem LaidEntry.isItem_key {e : Property} (h : LaidEntry d e) : StringList.IsItem e.key := by
  refine ⟨(trimmed_of_isKey h.key).trim_eq, ?_⟩
  intro hcomma
  exact absurd (h.key.2.1 ',' hcomma) (by decide)

/-- **Keys with commas between them** are read back. -/
theorem Laid.items_join_keys (h : Laid d es) :
    StringList.items (Text.join StringList.defaultDelimiter (es.map Property.key))
      StringList.defaultDelimiter = es.map Property.key := by
  have hcomma : StringList.defaultDelimiter.toList = ',' :: [] := rfl
  rw [StringList.items_join hcomma (fun _ hb => absurd hb List.not_mem_nil) List.not_mem_nil, if_neg]
  · intro hsingle
    obtain ⟨e, he, hempty⟩ := List.mem_map.1 (hsingle ▸ List.mem_cons_self : "" ∈ es.map Property.key)
    exact (h.entries e he).key_ne_empty hempty
  · intro key hkey
    obtain ⟨e, he, rfl⟩ := List.mem_map.1 hkey
    exact (h.entries e he).isItem_key

/-! ## Collecting -/

/-- **Collecting the keys of a list sets its coerced entries**, where the variables were bound by them. -/
theorem collectEntries_eq {style : VariableStyle} {vars : Variables} (h : Laid d es)
    (bound : ∀ e ∈ es, Assoc.get? vars (style.variableOf e.key) = some (.coerce e.value))
    (delimiter : String) :
    collectEntries vars style delimiter (es.map Property.key) =
      setAll (new delimiter) (es.map Property.coerced) := by
  rw [collectEntries, setAll, List.foldl_map, List.foldl_map]
  refine List.foldl_ext _ _ _ fun l e he => ?_
  rw [if_neg (h.entries e he).key_ne_empty, bound e he]
  rfl

/-! ## The two calls -/

section Dispatch

variable (calls : Calls) {style : VariableStyle} {word : String}
  (hword : VariableStyle.parse word = some style) (hstyle : style ≠ .none) (s : String) (d : Char)
  (f : Frame) (st : RunState)
include hword hstyle

/-- The entries are bound and counted. -/
theorem call_varsFromStrProp :
    Registry.builtins.call calls "varsFromStrProp" [.text s, .text word, .text (String.singleton d)] f st =
      (.ok (.ofInt (parse s (String.singleton d)).entries.length),
        { st with bindings := bindEntries style (parse s (String.singleton d)).entries st.bindings }) := by
  -- the style is the second argument, and the delimiter the third
  have hstyleOf : styleOf "varsFromStrProp" [.text s, .text word, .text (String.singleton d)] =
      .ok (style, String.singleton d) := by
    have hparse : VariableStyle.parse (Arguments.textAt [.text s, .text word,
        .text (String.singleton d)] 1) = some style := hword
    have hlong : ¬[Value.text s, .text word, .text (String.singleton d)].length ≤ 1 := by
      rw [List.length_cons, List.length_cons]
      omega
    rw [styleOf, if_neg hlong, hparse]
    dsimp only
    rw [delimiterAt_singleton (i := 2) rfl]
  -- what the function does once both are read
  have hrun : varsFromStrProp.function.run calls "varsFromStrProp"
      [.text s, .text word, .text (String.singleton d)] f st =
        (.ok (.ofInt (parse s (String.singleton d)).entries.length),
          { st with bindings := bindEntries style (parse s (String.singleton d)).entries st.bindings }) := by
    show (Action.ofExcept (styleOf "varsFromStrProp" [.text s, .text word,
      .text (String.singleton d)]) >>= _) f st = _
    rw [hstyleOf]
    show (if style = .none then pure (.ofInt 0) else _ : Action Value) f st = _
    rw [if_neg hstyle]
    rfl
  exact Registry.call_of_run (b := varsFromStrProp) (Registry.find?_builtins _) rfl rfl hrun

/-- The variables of the names are collected; nothing changes. -/
theorem call_strPropFromVars :
    Registry.builtins.call calls "strPropFromVars" [.text s, .text word, .text (String.singleton d)] f st =
      (.ok (.text (collectEntries st.bindings style (String.singleton d)
        (StringList.items s StringList.defaultDelimiter)).render), st) := by
  -- a style that names no variables is an error here
  have hstyleOf : suffixStyleOf "strPropFromVars" [.text s, .text word, .text (String.singleton d)] =
      .ok style := by
    have hparse : VariableStyle.parse (Arguments.textAt [.text s, .text word,
        .text (String.singleton d)] 1) = some style := hword
    rw [suffixStyleOf, hparse]
    cases style with
    | none => exact absurd rfl hstyle
    | suffixed => rfl
    | unsuffixed => rfl
  have hrun : strPropFromVars.function.run calls "strPropFromVars"
      [.text s, .text word, .text (String.singleton d)] f st =
        (.ok (.text (collectEntries st.bindings style (String.singleton d)
          (StringList.items s StringList.defaultDelimiter)).render), st) := by
    show (Action.ofExcept (suffixStyleOf "strPropFromVars" [.text s, .text word,
      .text (String.singleton d)]) >>= _) f st = _
    rw [hstyleOf, delimiterAt_singleton (i := 2) rfl]
    rfl
  rw [← coerce_render]
  exact Registry.call_of_run (b := strPropFromVars) (Registry.find?_builtins _) rfl rfl hrun

end Dispatch

/-- **A property list survives a trip through variables.**  Binding the entries of a text as variables
    answers with their number.  Collecting the keys of the list, with commas between them, makes a text
    with the same keys in the same order and case; each value is what the value in the first text is
    shown as once it is coerced. -/
theorem collect_of_bind (calls : Calls) (s : String) (d : Char) (hsign : d ≠ '=')
    (hdigit : d.isDigit = false) {style : VariableStyle} {word : String}
    (hword : VariableStyle.parse word = some style) (hstyle : style ≠ .none) (f : Frame) (st : RunState) :
    let call (name : String) (args : List Value) := Registry.builtins.call calls name args f
    let l := parse s (String.singleton d)
    let bound : RunState := { st with bindings := bindEntries style l.entries st.bindings }
    call "varsFromStrProp" [.text s, .text word, .text (String.singleton d)] st =
        (.ok (.ofInt l.entries.length), bound) ∧
      ∃ text, call "strPropFromVars"
          [.text (Text.join "," l.keys), .text word, .text (String.singleton d)] bound =
        (.ok (.text text), bound) ∧
        (parse text (String.singleton d)).pairs = l.coercedPairs := by
  intro call l bound
  have hlaid : Laid d l.entries := laid_parse s d
  refine ⟨call_varsFromStrProp calls hword hstyle s d f st, _,
    call_strPropFromVars calls hword hstyle (Text.join "," l.keys) d f bound, ?_⟩
  -- the keys find the variables that were bound for them, each with its own value
  have hcollected : collectEntries bound.bindings style (String.singleton d)
      (StringList.items (Text.join "," l.keys) StringList.defaultDelimiter) =
        ⟨l.entries.map Property.coerced, String.singleton d⟩ := by
    have hitems : StringList.items (Text.join "," l.keys) StringList.defaultDelimiter = l.keys :=
      hlaid.items_join_keys
    have hvalues : ∀ e ∈ l.entries,
        Assoc.get? bound.bindings (style.variableOf e.key) = some (.coerce e.value) := fun e he =>
      get?_bindEntries hlaid.nodup_keys he st.bindings
    rw [hitems, keys, collectEntries_eq hlaid hvalues, hlaid.setAll_coerced hdigit, delimiter_new]
  rw [hcollected, pairs_parse_render hsign rfl (hlaid.coerced hdigit)]
  exact pairs_coerced l

/-- Two keys that become variables with a common beginning, one of them given twice, a number with blanks,
    a sign and zeros, and an empty value. -/
def inventory : String := "hp= +07.50 , note; HP_ =a=b;gold=;hp=-007.0"

/-- The inventory survives the trip, in a scope that has one of the variables already. -/
theorem collect_of_bind_inventory :
    let f := (RunRequest.ofText (.unattached false) "Pat" none).frame false
    let st : RunState := ⟨.ofCampaign (Campaign.new "Keep") ⟨0⟩, [("HP_", .text "old")], "so far"⟩
    let call (name : String) (args : List Value) :=
      Registry.builtins.call (Calls.ofDepth .builtins 2) name args f
    ';' ≠ '=' ∧ ';'.isDigit = false ∧ VariableStyle.parse "Suffixed" = some .suffixed ∧
      VariableStyle.suffixed ≠ .none ∧
      ∃ bound text,
        call "varsFromStrProp" [.text inventory, .text "Suffixed", .text ";"] st =
          (.ok (.ofInt 3), bound) ∧
        call "strPropFromVars" [.text "hp,HP_,gold", .text "Suffixed", .text ";"] bound =
          (.ok (.text text), bound) ∧
        (parse text ";").pairs = [("hp", "-7"), ("HP_", "a=b"), ("gold", "")] := by
  intro f st call
  have hsign : ';' ≠ '=' := by decide
  have hdigit : ';'.isDigit = false := by decide
  have hword : VariableStyle.parse "Suffixed" = some .suffixed := by decide +kernel
  have hstyle : VariableStyle.suffixed ≠ .none := by decide
  have hcount : (parse inventory (String.singleton ';')).entries.length = 3 := by decide +kernel
  have hkeys : Text.join "," (parse inventory (String.singleton ';')).keys = "hp,HP_,gold" := by
    decide +kernel
  have hpairs : (parse inventory (String.singleton ';')).coercedPairs =
      [("hp", "-7"), ("HP_", "a=b"), ("gold", "")] := by decide +kernel
  obtain ⟨hbind, text, hcollect, htext⟩ := collect_of_bind (Calls.ofDepth .builtins 2) inventory ';' hsign
    hdigit hword hstyle f st
  rw [hkeys] at hcollect
  rw [hcount] at hbind
  exact ⟨hsign, hdigit, hword, hstyle, _, text, hbind, hcollect, htext.trans hpairs⟩

end PropertyList

end Tabletop
