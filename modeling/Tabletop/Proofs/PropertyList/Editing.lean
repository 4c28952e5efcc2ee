import Tabletop.Proofs.PropertyList.Layout
import Tabletop.Proofs.Calls.Outcome
import Tabletop.Proofs.Decimal.Literal
import Tabletop.Macro.Engine

/-
  Editing the text of a property list is editing the list.

  1. **Edits** — a key is set or deleted.  `Edit.onList` edits a list, and `Edit.call` is the call of
     the built-in function that reads a text, edits the list in it and writes it again.

  2. **One edit** — which pairs an edit leaves depends on the pairs alone (`pairs_onList`), and an
     edited list is laid if the list was (`laid_onList`).  So the text that a call leaves holds the
     pairs of the edited list (`pairs_parse_render_onList`), whatever happened to the layout.

  3. **Dispatch** — the result of a built-in function becomes a number if it writes one.  The text of a
     list is empty or has an equals sign in it, so it stays as it is (`coerce_render`).

  4. **All edits** — the calls and the list go on side by side: `editText` hands each text to the next
     call, and the pairs of the text are those of the list at every point.
-/
namespace Tabletop.PropertyList

/-- A text that has an equals sign, or nothing at all, writes no number. -/
theorem coerce_of_sign {s : String} (h : s = "" ∨ '=' ∈ s.toList) : Value.coerce s = .text s := by
  rcases h with rfl | h
  · rfl
  · have hnone : Decimal.ofText? s = none := Decimal.ofText?_eq_none (c := '=') (by decide) h
    rw [Value.coerce, hnone]

/-- **The text of a list writes no number.** -/
theorem coerce_render (l : PropertyList) : Value.coerce l.render = .text l.render := by
  refine coerce_of_sign ?_
  unfold render renderChars
  cases l.entries with
  | nil => exact .inl rfl
  | cons e es => exact .inr (by simp [entryChars])

/-! ## Edits -/

/-- A change of a property list. -/
inductive Edit where
  | set (key value : String)
  | delete (key : String)
deriving DecidableEq, Repr

namespace Edit

/-- Edits a list. -/
def onList (l : PropertyList) : Edit → PropertyList
  | set key value => l.set key value
  | delete key => l.delete key

/-- Calls the built-in function that makes the edit on a text. -/
def call (calls : Calls) (d : Char) (text : Value) : Edit → Action Value
  | set key value => Registry.builtins.call calls "setStrProp"
      [text, .text key, .text value, .text (String.singleton d)]
  | delete key => Registry.builtins.call calls "deleteStrProp"
      [text, .text key, .text (String.singleton d)]

/-- What an edit has to keep to in a list with the separator `d`: a key that is set is one, and its
    value has no separator.  Every key can be deleted. -/
def Fits (d : Char) : Edit → Prop
  | set key value => IsKey d key.toList ∧ d ∉ value.toList
  | delete _ => True

instance (d : Char) : DecidablePred (Fits d)
  | set _ _ => inferInstanceAs (Decidable (_ ∧ _))
  | delete _ => inferInstanceAs (Decidable True)

/-- Edits pairs. -/
def onPairs (ps : List (String × String)) : Edit → List (String × String)
  | set key value => put ps (Text.trimChars key.toList, Text.trimChars value.toList)
  | delete key => ps.eraseP fun p => keyForm p.1 == soughtForm key

end Edit

/-- Makes edits on a text by calls of built-in functions, each on the text that the one before left. -/
def editText (calls : Calls) (d : Char) (text : Value) : List Edit → Action Value
  | [] => pure text
  | e :: es => do editText calls d (← e.call calls d text) es

/-! ## One edit -/

/-- **What an edit makes of the pairs** does not depend on the layout. -/
theorem pairs_onList (l : PropertyList) (e : Edit) : (e.onList l).pairs = e.onPairs l.pairs := by
  cases e with
  | set key value =>
    have hpairs : overwritePair (Text.upperChars (Text.trimChars key.toList))
        (String.ofList (Text.trimChars value.toList)) l.pairs =
        (overwrite (soughtForm key) (Text.trim value) l.entries).map
          (List.map fun e => (e.key, e.value)) := (overwrite_pairs _ _ l.entries).symm
    show (l.set key value).pairs = put l.pairs (Text.trimChars key.toList, Text.trimChars value.toList)
    rw [put, hpairs, set]
    cases overwrite (soughtForm key) (Text.trim value) l.entries with
    | some es => rfl
    | none => exact List.map_append
  | delete key =>
    show (l.delete key).pairs = (l.entries.map _).eraseP _
    rw [delete_eq, List.eraseP_map]
    rfl

theorem delimiter_onList (l : PropertyList) (e : Edit) : (e.onList l).delimiter = l.delimiter := by
  cases e with
  | set key value =>
    show (l.set key value).delimiter = l.delimiter
    unfold set
    split <;> rfl
  | delete key =>
    show (l.delete key).delimiter = l.delimiter
    rw [delete_eq]

theorem trimmed_of_isKey {d : Char} {key : List Char} (h : IsKey d key) : Text.Trimmed key :=
  ⟨fun c hc => isBlank_of_isKeyChar (h.2.1 c (List.mem_of_mem_head? hc)),
    fun c hc => isBlank_of_isKeyChar (h.2.1 c (List.mem_of_getLast? hc))⟩

/-- **An edited list is laid** if the list was. -/
theorem laid_onList {d : Char} {l : PropertyList} (h : Laid d l.entries) {e : Edit} (he : e.Fits d) :
    Laid d (e.onList l).entries := by
  cases e with
  | set key value =>
    obtain ⟨hkey, hvalue⟩ := he
    have htrim (s : String) : (Text.trim s).toList = Text.trimChars s.toList := String.toList_ofList
    -- the new entry has no separator of its own in front, and no delimiter in it
    have hentry : LaidEntry d ⟨Text.trim key, Text.trim value, none⟩ := {
      key := by rwa [htrim, (trimmed_of_isKey hkey).trimChars_eq]
      free := by
        rw [htrim]
        exact fun hm => hvalue (Text.mem_of_mem_trimChars hm)
      trimmed := by
        rw [htrim]
        exact Text.trimmed_trimChars _
      layout := fun s hs => nomatch hs }
    have hput := h.put hentry
    rw [keyForm_trim] at hput
    show Laid d (l.set key value).entries
    unfold set
    cases ho : overwrite (soughtForm key) (Text.trim value) l.entries with
    | some es => rw [ho] at hput; exact hput
    | none => rw [ho] at hput; exact hput
  | delete key =>
    -- without one of its entries a list is laid as before
    have hsub := List.eraseP_sublist (l := l.entries) (p := fun e => keyForm e.key == soughtForm key)
    show Laid d (l.delete key).entries
    rw [delete_eq]
    exact ⟨fun x hx => h.entries x (hsub.subset hx), h.distinct.sublist (hsub.map _)⟩

/-- **The text of an edited list holds the pairs of the edited list.** -/
theorem pairs_parse_render_onList {d : Char} (hd : d ≠ '=') (s : String) {e : Edit} (he : e.Fits d) :
    (parse (e.onList (parse s (String.singleton d))).render (String.singleton d)).pairs =
      e.onPairs (parse s (String.singleton d)).pairs := by
  have hdelimiter := (delimiter_onList (parse s (String.singleton d)) e).trans (delimiter_parse s d)
  rw [pairs_parse_render hd hdelimiter (laid_onList (laid_parse s d) he), pairs_onList]

/-- A separator that is given as an argument. -/
theorem delimiterAt_singleton {args : List Value} {i : Nat} {d : Char}
    (h : args[i]? = some (.text (String.singleton d))) (default : String) :
    Arguments.delimiterAt args i default = String.singleton d := by
  have htext : Arguments.textAt args i = String.singleton d := by
    rw [Arguments.textAt, Arguments.valueAt, h]
    rfl
  rw [Arguments.delimiterAt, htext, if_neg String.singleton_ne_empty]

/-- A call edits the list in its text. -/
theorem Edit.call_text (calls : Calls) (d : Char) (s : String) (e : Edit) (f : Frame) (st : RunState) :
    e.call calls d (.text s) f st =
      (.ok (.text (e.onList (parse s (String.singleton d))).render), st) := by
  have hset : Registry.builtins.find? "setStrProp" = some Builtin.setStrProp :=
    (Registry.find?_builtins _).trans rfl
  have hdelete : Registry.builtins.find? "deleteStrProp" = some Builtin.deleteStrProp :=
    (Registry.find?_builtins _).trans rfl
  -- a rendered list is text, even if it could be read as a number
  rw [← coerce_render]
  cases e with
  | set key value =>
    have hvalue : Builtin.setStrProp.function = .computes fun _ args =>
        .ok (.text ((Builtin.propertiesOf args 3).set (Arguments.textAt args 1)
          (Arguments.textAt args 2)).render) := rfl
    rw [call]
    refine (Registry.call_of_computes hset ?_ rfl hvalue rfl calls f st).trans ?_
    · rfl
    · rw [Builtin.propertiesOf, delimiterAt_singleton (i := 3) rfl]
      rfl
  | delete key =>
    have hvalue : Builtin.deleteStrProp.function = .computes fun _ args =>
        .ok (.text ((Builtin.propertiesOf args 2).delete (Arguments.textAt args 1)).render) := rfl
    rw [call]
    refine (Registry.call_of_computes hdelete ?_ rfl hvalue rfl calls f st).trans ?_
    · rfl
    · rw [Builtin.propertiesOf, delimiterAt_singleton (i := 2) rfl]
      rfl

/-! ## All edits -/

/-- Calls on a text and edits of a list with the same pairs lead to the same pairs. -/
theorem exists_editText {calls : Calls} {d : Char} (hd : d ≠ '=') {edits : List Edit}
    (fits : ∀ e ∈ edits, e.Fits d) (f : Frame) (st : RunState) {s : String} {l : PropertyList}
    (hpairs : (parse s (String.singleton d)).pairs = l.pairs) :
    ∃ text, editText calls d (.text s) edits f st = (.ok (.text text), st) ∧
      (parse text (String.singleton d)).pairs = (edits.foldl Edit.onList l).pairs := by
  -- the edits are made one after the other
  induction edits generalizing s l with
  | nil => exact ⟨s, rfl, hpairs⟩
  | cons e edits ih =>
    have he : e.Fits d := fits e List.mem_cons_self
    have hstep : (parse (e.onList (parse s (String.singleton d))).render (String.singleton d)).pairs =
        (e.onList l).pairs := by
      rw [pairs_parse_render_onList hd s he, pairs_onList, hpairs]
    obtain ⟨text, hrun, htext⟩ := ih (fun x hx => fits x (List.mem_cons_of_mem _ hx)) hstep
    refine ⟨text, ?_, htext⟩
    rw [editText, Action.bind_apply, Edit.call_text]
    exact hrun

/-- **Editing the text of a list is editing the list.**  Calls of `setStrProp` and `deleteStrProp`, each
    on the text that the one before has left, lead to a text with exactly the keys and values that the
    same edits make of the list in memory.  Reading and writing a list without an edit keeps them. -/
theorem editText_simulates (calls : Calls) (d : Char) (hd : d ≠ '=') (s : String) (edits : List Edit)
    (fits : ∀ e ∈ edits, e.Fits d) (f : Frame) (st : RunState) :
    (∃ text, editText calls d (.text s) edits f st = (.ok (.text text), st) ∧
      (parse text (String.singleton d)).pairs =
        (edits.foldl Edit.onList (parse s (String.singleton d))).pairs) ∧
    (parse (parse s (String.singleton d)).render (String.singleton d)).pairs =
      (parse s (String.singleton d)).pairs :=
  ⟨exists_editText hd fits f st rfl, pairs_parse_render hd (delimiter_parse s d) (laid_parse s d)⟩

/-- A segment without a key, a key given twice, and a value without text. -/
def sheet : String := "note; hp = 10 ;;AC= ;HP=7"

/-- A value that changes, a key that goes, and a key that comes. -/
def sheetEdits : List Edit := [.set "ac" " 3 ", .delete "hp", .set "x.y" "a=b"]

/-- The calls change the sheet as the edits change its list. -/
theorem editText_simulates_sheet :
    ';' ≠ '=' ∧ (∀ e ∈ sheetEdits, e.Fits ';') ∧
      (sheetEdits.foldl Edit.onList (parse sheet (String.singleton ';'))).pairs =
        [("AC", "3"), ("x.y", "a=b")] ∧
      let f := (RunRequest.ofText (.unattached false) "Pat" none).frame false
      let st : RunState := ⟨.ofCampaign (Campaign.new "Keep") ⟨0⟩, [], ""⟩
      (∃ text, editText (Calls.ofDepth .builtins 3) ';' (.text sheet) sheetEdits f st =
          (.ok (.text text), st) ∧
        (parse text (String.singleton ';')).pairs =
          (sheetEdits.foldl Edit.onList (parse sheet (String.singleton ';'))).pairs) ∧
      (parse (parse sheet (String.singleton ';')).render (String.singleton ';')).pairs =
        (parse sheet (String.singleton ';')).pairs :=
  ⟨by decide, by decide +kernel, by decide +kernel,
    editText_simulates (Calls.ofDepth .builtins 3) ';' (by decide) sheet sheetEdits
      (by decide +kernel) _ _⟩

end Tabletop.PropertyList
