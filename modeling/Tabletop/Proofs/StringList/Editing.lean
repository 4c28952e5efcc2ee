import Tabletop.Proofs.Calls.Arguments
import Tabletop.Proofs.Text.Pieces

/-
  Editing the text of a string list is editing the list.

  1. **Items** — what is read out of a list has no blanks at its ends and no comma in it
     (`isItem_of_mem_items`), and items are read back from the text in which they are written, although a
     blank is written behind each comma (`items_join`).  There is one exception: a single empty item
     is written as a blank text, and a blank text has no items.

  2. **Edits** — `Edit.onItems` edits a list, and `Edit.run` is the built-in function that reads a text,
     edits the items in it, and writes them again (`Edit.run_of_inRange`).  What an edit leaves are items
     (`isItem_onItems`), so the text that is written holds the edited list.

  3. **Positions** — a position is an integer of 64 bits.  Outside of the list it is good for appending
     or for nothing; outside of the 64 bits it is refused (`Edit.run_of_not_inRange`).

  4. **Reading** — the functions that read a list see its items and nothing else (`readAs_items`).
-/
namespace Tabletop.StringList

/-! ## Items -/

/-- What an item of a list is: no blanks at its ends, and no comma in it. -/
def IsItem (x : String) : Prop := Text.trim x = x ∧ ',' ∉ x.toList

instance (x : String) : Decidable (IsItem x) := inferInstanceAs (Decidable (_ ∧ _))

/-- Text without a comma is an item once it is trimmed. -/
theorem isItem_trim {x : String} (free : ',' ∉ x.toList) : IsItem (Text.trim x) := by
  have hchars : (Text.trim x).toList = Text.trimChars x.toList := String.toList_ofList
  refine ⟨?_, fun h => free ?_⟩
  · rw [Text.trim, hchars, (Text.trimmed_trimChars _).trimChars_eq]
    rfl
  · rw [hchars] at h
    exact Text.mem_of_mem_trimChars h

theorem isItem_of_mem_items {s x : String} (h : x ∈ items s defaultDelimiter) : IsItem x := by
  unfold items at h
  split at h
  · exact absurd h List.not_mem_nil
  · obtain ⟨piece, hpiece, rfl⟩ := List.mem_map.1 h
    obtain ⟨cs, hcs, rfl⟩ := List.mem_map.1 hpiece
    have hfree : ',' ∉ cs := Text.not_mem_of_mem_splitChars hcs
    exact isItem_trim (by rwa [String.toList_ofList])

theorem items_of_not_blank {s : String} (h : Text.isBlankText s = false) :
    items s defaultDelimiter = (Text.split defaultDelimiter s).map Text.trim := by
  rw [items, h]
  rfl

/-- An item that is not empty is no blank text. -/
theorem IsItem.not_blank {x : String} (h : IsItem x) (hne : x ≠ "") : Text.isBlankText x = false := by
  have htrimmed := Text.trimmed_toList h.1
  cases hx : x.toList with
  | nil => exact absurd (String.toList_eq_nil_iff.1 hx) hne
  | cons c cs =>
    rw [hx] at htrimmed
    exact Text.isBlankText_eq_false (hx ▸ List.mem_cons_self) (htrimmed.1 c rfl)

section Joining

variable {d : String} {bs : List Char} (hd : d.toList = ',' :: bs)
  (blank : ∀ b ∈ bs, Text.isBlank b = true) (free : ',' ∉ bs)
include hd blank free

/-- Blanks that are written behind a comma are no part of an item. -/
theorem map_trim_split_join {xs : List String} (some_item : xs ≠ []) (h : ∀ x ∈ xs, IsItem x) :
    (Text.split defaultDelimiter (Text.join d xs)).map Text.trim = xs := by
  have hsome : xs.map String.toList ≠ [] := by simpa using some_item
  -- the text is cut at the commas, and every piece is an item with blanks
  have hcut := Text.map_trimChars_splitChars_joinChars blank free hsome
    fun p hp => by
      obtain ⟨x, hx, rfl⟩ := List.mem_map.1 hp
      exact (h x hx).2
  -- an item has no blanks of its own
  have hkept : (xs.map String.toList).map Text.trimChars = xs.map String.toList := by
    rw [List.map_map]
    refine List.map_congr_left fun x hx => ?_
    exact (Text.trimmed_toList (h x hx).1).trimChars_eq
  rw [hkept] at hcut
  have htrim : Text.trim ∘ String.ofList = String.ofList ∘ Text.trimChars := by
    funext cs
    simp [Text.trim]
  have hchars : (Text.join d xs).toList = Text.joinChars (',' :: bs) (xs.map String.toList) := by
    rw [Text.join, String.toList_ofList, hd]
  rw [Text.split, List.map_map, hchars, htrim, ← List.map_map]
  show ((Text.splitChars [','] _).map Text.trimChars).map String.ofList = xs
  rw [hcut, List.map_map]
  simp

/-- **Items are read back** where commas stand between them, with or without blanks; a single empty one
    is not. -/
theorem items_join {xs : List String} (h : ∀ x ∈ xs, IsItem x) :
    items (Text.join d xs) defaultDelimiter = if xs = [""] then [] else xs := by
  match xs with
  | [] => rfl
  | [x] =>
    have hx : IsItem x := h x List.mem_cons_self
    by_cases hempty : x = ""
    · rw [hempty]
      rfl
    · have hblank : Text.isBlankText (Text.join d [x]) = false := by
        rw [Text.join_singleton]
        exact hx.not_blank hempty
      rw [items_of_not_blank hblank, map_trim_split_join hd blank free (by simp) h,
        if_neg (by simpa using hempty)]
  | x :: y :: zs =>
    -- there is a comma between the first two items
    have hcomma : ',' ∈ (Text.join d (x :: y :: zs)).toList := by
      have hchars : (Text.join d (x :: y :: zs)).toList =
          x.toList ++ d.toList ++ Text.joinChars d.toList ((y :: zs).map String.toList) :=
        String.toList_ofList
      rw [hchars, hd]
      simp
    rw [items_of_not_blank (Text.isBlankText_eq_false hcomma rfl),
      map_trim_split_join hd blank free (by simp) h, if_neg (by simp)]

end Joining

/-- **Items are read back** from the text in which they are written, unless it is a single empty one. -/
theorem items_render {xs : List String} (h : ∀ x ∈ xs, IsItem x) :
    items (render xs) defaultDelimiter = if xs = [""] then [] else xs := by
  have hjoiner : joiner.toList = ',' :: [' '] := rfl
  exact items_join hjoiner (List.all_eq_true.1 (by decide)) (by decide) h

/-! ## Edits -/

/-- A change of a list. -/
inductive Edit where
  | append (x : String)
  /-- In front of the item at a position. -/
  | insert (n : Int) (x : String)
  | replace (n : Int) (x : String)
  | delete (n : Int)
deriving DecidableEq, Repr

namespace Edit

/-- Edits a list.  An item that is inserted behind the end is appended; at any other position without an
    item, nothing changes. -/
def onItems (xs : List String) : Edit → List String
  | append x => xs ++ [Text.trim x]
  | insert n x =>
    if n.toNat ≤ xs.length then xs.insertIdx n.toNat (Text.trim x) else xs ++ [Text.trim x]
  | replace n x => if 0 ≤ n then xs.set n.toNat (Text.trim x) else xs
  | delete n => if 0 ≤ n then xs.eraseIdx n.toNat else xs

/-- The built-in function that makes the edit. -/
def builtin : Edit → Builtin
  | append _ => Builtin.listAppend
  | insert _ _ => Builtin.listInsert
  | replace _ _ => Builtin.listReplace
  | delete _ => Builtin.listDelete

/-- Its name. -/
def name : Edit → String
  | append _ => "listAppend"
  | insert _ _ => "listInsert"
  | replace _ _ => "listReplace"
  | delete _ => "listDelete"

/-- Lets the function make the edit on a list.  The dispatch of calls would turn a result that writes a
    number into the number; here it is still a text. -/
def run (calls : Calls) (e : Edit) (args : List Value) : Action Value :=
  e.builtin.function.run calls e.name args

/-- What the function is given for the edit: the list, then a position and the text of an item as far as
    the edit has them. -/
inductive GivenBy (l : Value) : Edit → List Value → Prop
  | append (x : Value) : GivenBy l (append x.display) [l, x]
  | insert {n : Int} {p : Value} (h : p.position? = some n) (x : Value) :
    GivenBy l (insert n x.display) [l, p, x]
  | replace {n : Int} {p : Value} (h : p.position? = some n) (x : Value) :
    GivenBy l (replace n x.display) [l, p, x]
  | delete {n : Int} {p : Value} (h : p.position? = some n) : GivenBy l (delete n) [l, p]

/-- An item to be put in has no comma. -/
def Fits : Edit → Prop
  | append x => ',' ∉ x.toList
  | insert _ x => ',' ∉ x.toList
  | replace _ x => ',' ∉ x.toList
  | delete _ => True

instance : DecidablePred Fits
  | append _ => inferInstanceAs (Decidable (_ ∉ _))
  | insert _ _ => inferInstanceAs (Decidable (_ ∉ _))
  | replace _ _ => inferInstanceAs (Decidable (_ ∉ _))
  | delete _ => inferInstanceAs (Decidable True)

/-- Nothing is inserted at a negative position. -/
def InsertsForward : Edit → Prop
  | insert n _ => 0 ≤ n
  | _ => True

instance : DecidablePred InsertsForward
  | insert _ _ => inferInstanceAs (Decidable (0 ≤ _))
  | append _ | replace _ _ | delete _ => inferInstanceAs (Decidable True)

/-- A word of 64 bits holds the position. -/
def InWord : Edit → Prop
  | append _ => True
  | insert n _ => Decimal.InWord n
  | replace n _ => Decimal.InWord n
  | delete n => Decimal.InWord n

instance : DecidablePred InWord
  | append _ => inferInstanceAs (Decidable True)
  | insert n _ | replace n _ | delete n => inferInstanceAs (Decidable (Decimal.InWord n))

end Edit

/-- Putting an element between what stands in front of a place and the rest. -/
theorem take_append_cons_drop {α : Type} (xs : List α) (i : Nat) (x : α) :
    xs.take i ++ x :: xs.drop i = if i ≤ xs.length then xs.insertIdx i x else xs ++ [x] := by
  induction xs generalizing i with
  | nil => cases i <;> rfl
  | cons y xs ih =>
    cases i with
    | zero => rfl
    | succ i =>
      have hle : i + 1 ≤ (y :: xs).length ↔ i ≤ xs.length := Nat.succ_le_succ_iff
      rw [List.take_succ_cons, List.drop_succ_cons, List.cons_append, ih]
      by_cases h : i ≤ xs.length
      · rw [if_pos h, if_pos (hle.2 h), List.insertIdx_succ_cons]
      · rw [if_neg h, if_neg fun hi => h (hle.1 hi)]
        rfl

/-- **What an edit leaves are items.** -/
theorem isItem_onItems {xs : List String} (h : ∀ x ∈ xs, IsItem x) {e : Edit} (he : e.Fits) :
    ∀ x ∈ e.onItems xs, IsItem x := by
  -- an item that is added without its blanks is an item
  have happend {y : String} (hy : ',' ∉ y.toList) : ∀ x ∈ xs ++ [Text.trim y], IsItem x := by
    intro x hx
    rcases List.mem_append.1 hx with hx | hx
    · exact h x hx
    · rw [List.mem_singleton.1 hx]
      exact isItem_trim hy
  intro x hx
  cases e with
  | append y => exact happend he x hx
  | insert n y =>
    simp only [Edit.onItems] at hx
    split at hx
    · next hn =>
      rcases (List.mem_insertIdx hn).1 hx with rfl | hx
      · exact isItem_trim he
      · exact h x hx
    · exact happend he x hx
  | replace n y =>
    simp only [Edit.onItems] at hx
    split at hx
    · rcases List.mem_or_eq_of_mem_set hx with hx | rfl
      · exact h x hx
      · exact isItem_trim he
    · exact h x hx
  | delete n =>
    simp only [Edit.onItems] at hx
    split at hx
    · exact h x (List.mem_of_mem_eraseIdx hx)
    · exact h x hx

/-! ## Calls -/

section Calls

variable {l : Value} {e : Edit} {args : List Value} (given : e.GivenBy l args)
include given

/-- **An edit whose position a word holds** writes the edited items of the list. -/
theorem Edit.run_of_inWord (forward : e.InsertsForward) (h : e.InWord) (calls : Calls) (f : Frame)
    (st : RunState) :
    e.run calls args f st =
      (.ok (.text (render (e.onItems (items l.display defaultDelimiter)))), st) := by
  cases given with
  | append x => rfl
  | @insert n p hp x =>
    -- the position is read as the number that stands there
    have hposition : Arguments.positionAt [l, p, x] "listInsert" 1 = .ok _ :=
      Arguments.positionAt_of_position hp h
    show Action.ofExcept (Arguments.positionAt [l, p, x] "listInsert" 1 >>= _) f st = _
    rw [hposition, if_pos (show 0 ≤ n from forward), Edit.onItems, ← take_append_cons_drop]
    rfl
  | @replace n p hp x =>
    have hposition : Arguments.positionAt [l, p, x] "listReplace" 1 = .ok _ :=
      Arguments.positionAt_of_position hp h
    show Action.ofExcept (Arguments.positionAt [l, p, x] "listReplace" 1 >>= _) f st = _
    rw [hposition, Edit.onItems]
    -- a position from the front, or one from the end
    by_cases hn : 0 ≤ n
    · rw [if_pos hn, if_pos hn]
      rfl
    · rw [if_neg hn, if_neg hn]
      rfl
  | @delete n p hp =>
    have hposition : Arguments.positionAt [l, p] "listDelete" 1 = .ok _ :=
      Arguments.positionAt_of_position hp h
    show Action.ofExcept (Arguments.positionAt [l, p] "listDelete" 1 >>= _) f st = _
    rw [hposition, Edit.onItems]
    by_cases hn : 0 ≤ n
    · rw [if_pos hn, if_pos hn]
      rfl
    · rw [if_neg hn, if_neg hn]
      rfl

/-- **A position that no word holds is refused.** -/
theorem Edit.run_of_not_inWord (h : ¬e.InWord) (calls : Calls) (f : Frame) (st : RunState) :
    ∃ why, e.run calls args f st = (.error (.error (.malformedArgument e.name 2 why)), st) := by
  have hrefused {name : String} {args : List Value} {n : Int}
      (hp : (Arguments.valueAt args 1).position? = some n) (hn : ¬Decimal.InWord n)
      (k : Option Nat → Except MacroError Value) :
      ∃ why, Action.ofExcept (Arguments.positionAt args name 1 >>= k) f st =
        (.error (.error (.malformedArgument name 2 why)), st) := by
    obtain ⟨why, hwhy⟩ := Arguments.positionAt_of_not_inWord hp hn
    rw [hwhy]
    exact ⟨why, rfl⟩
  cases given with
  | append x => exact absurd trivial h
  | @insert n p hp x => exact hrefused (show (Arguments.valueAt [l, p, x] 1).position? = _ from hp) h _
  | @replace n p hp x => exact hrefused (show (Arguments.valueAt [l, p, x] 1).position? = _ from hp) h _
  | @delete n p hp => exact hrefused (show (Arguments.valueAt [l, p] 1).position? = _ from hp) h _

/-- An edit is made in the dispatch of calls, too, but a text that writes a number becomes the number. -/
theorem Edit.call_of_run {calls : Calls} {r : String} {f : Frame} {st : RunState}
    (h : e.run calls args f st = (.ok (.text r), st)) :
    Registry.builtins.call calls e.name args f st = (.ok (.coerce r), st) := by
  have hfind : Registry.builtins.find? e.name = some e.builtin := by
    rw [Registry.find?_builtins]
    cases e <;> rfl
  have harity : e.builtin.descriptor.arity.accepts args.length = true := by cases given <;> rfl
  have hfree : e.builtin.descriptor.trusted = false := by cases e <;> rfl
  exact Registry.call_of_run hfind harity hfree h

end Calls

/-! ## Reading -/

/-- The item at a position. -/
def item? (xs : List String) (n : Int) : Option String := if 0 ≤ n then xs[n.toNat]? else none

/-- Its value, or empty text. -/
def itemValue (xs : List String) (n : Int) : Value := ((item? xs n).map Value.coerce).getD .empty

theorem coerced_itemValue (xs : List String) (n : Int) : (itemValue xs n).coerced = itemValue xs n := by
  rw [itemValue]
  cases item? xs n with
  | none => rfl
  | some x => exact Value.coerced_coerce x

/-- The position of the first item that is the same up to the case of its letters, or -1. -/
def place (xs : List String) (x : String) : Int :=
  match xs.findIdx? (Text.sameName · (Text.trim x)) with
  | some i => i
  | none => -1

/-- The functions that read a list find `xs` in the text `r`. -/
structure ReadAs (calls : Calls) (f : Frame) (st : RunState) (r : String) (xs : List String) : Prop where
  items : items r defaultDelimiter = xs
  count : Registry.builtins.call calls "listCount" [.text r] f st = (.ok (.ofInt xs.length), st)
  get : ∀ (p : Value) (n : Int), p.position? = some n → Decimal.InWord n →
    Registry.builtins.call calls "listGet" [.text r, p] f st = (.ok (itemValue xs n), st)
  find : ∀ x : Value, Registry.builtins.call calls "listFind" [.text r, x] f st =
    (.ok (.ofInt (place xs x.display)), st)

/-- **The functions that read a list see its items.** -/
theorem readAs_items (calls : Calls) (f : Frame) (st : RunState) (r : String) :
    ReadAs calls f st r (items r defaultDelimiter) where
  items := rfl
  count := Registry.call_of_computes (b := Builtin.listCount) (Registry.find?_builtins _) rfl rfl rfl rfl
    calls f st
  get p n hp hn := by
    have hposition : Arguments.positionAt [.text r, p] "listGet" 1 = .ok _ :=
      Arguments.positionAt_of_position hp hn
    rw [← coerced_itemValue]
    refine Registry.call_of_computes (b := Builtin.listGet) (Registry.find?_builtins _) rfl rfl rfl ?_
      calls f st
    show (Arguments.positionAt [.text r, p] "listGet" 1 >>= _) = _
    rw [hposition, itemValue, item?]
    -- a position from the front, or one from the end
    by_cases hneg : 0 ≤ n
    · rw [if_pos hneg, if_pos hneg]
      rfl
    · rw [if_neg hneg, if_neg hneg]
      rfl
  find x := by
    -- the first item of the name, or `-1`
    have hplace : Builtin.listFind.function = .computes fun _ args =>
        match (Builtin.itemsOf args 2).findIdx? (Text.sameName · (Builtin.itemAt args 1)) with
        | some i => .ok (.ofInt i)
        | none => .ok (.ofInt (-1)) := rfl
    refine Registry.call_of_computes (b := Builtin.listFind) (v := .ofInt (place _ x.display))
      (Registry.find?_builtins _) rfl rfl hplace ?_ calls f st
    show (match (StringList.items r defaultDelimiter).findIdx? (Text.sameName · (Text.trim x.display)) with
      | some i => Except.ok (Value.ofInt i)
      | none => .ok (.ofInt (-1))) = _
    rw [place]
    cases (StringList.items r defaultDelimiter).findIdx? (Text.sameName · (Text.trim x.display)) <;> rfl

/-- **Editing the text of a list is editing the list.**  For every text of a list, every item without a
    comma and every position that a word of 64 bits holds, the text that the edit produces reads as the
    edited list; if that is a single empty item, the text is blank and reads as no items.  A position
    that no word holds is refused. -/
theorem edit_reads_back {l : Value} {e : Edit} {args : List Value} (given : e.GivenBy l args)
    (fits : e.Fits) (forward : e.InsertsForward) (calls : Calls) (f : Frame) (st : RunState) :
    let edited := e.onItems (items l.display defaultDelimiter)
    (e.InWord → ∃ r, e.run calls args f st = (.ok (.text r), st) ∧
      Registry.builtins.call calls e.name args f st = (.ok (.coerce r), st) ∧
      ReadAs calls f st r (if edited = [""] then [] else edited)) ∧
    (¬e.InWord → ∃ why,
      e.run calls args f st = (.error (.error (.malformedArgument e.name 2 why)), st)) := by
  intro edited
  refine ⟨fun hword => ?_, fun hword => Edit.run_of_not_inWord given hword calls f st⟩
  have hrun := Edit.run_of_inWord given forward hword calls f st
  have hitems : ∀ x ∈ edited, IsItem x := isItem_onItems (fun x hx => isItem_of_mem_items hx) fits
  refine ⟨render edited, hrun, Edit.call_of_run given hrun, ?_⟩
  rw [← items_render hitems]
  exact readAs_items calls f st (render edited)

/-- A frame of a player, for whom nothing is trusted. -/
def editingFrame : Frame := (RunRequest.ofText (.unattached false) "Pat" none).frame false

/-- An empty table. -/
def editingState : RunState := ⟨.ofCampaign (Campaign.new "Keep") ⟨0⟩, [], ""⟩

/-- An item with blanks around it goes behind the end of a list with an empty item. -/
theorem edit_reads_back_rucksack :
    let l : Value := .text "rope,, oil "
    let e := Edit.insert 9 " 007 "
    e.GivenBy l [l, .text " 9.5", .text " 007 "] ∧ e.Fits ∧ e.InsertsForward ∧ e.InWord ∧
    ∃ r, e.run (Calls.ofDepth .builtins 1) [l, .text " 9.5", .text " 007 "] editingFrame editingState =
        (.ok (.text r), editingState) ∧
      ReadAs (Calls.ofDepth .builtins 1) editingFrame editingState r ["rope", "", "oil", "007"] := by
  intro l e
  have given : e.GivenBy l [l, .text " 9.5", .text " 007 "] := .insert (by decide +kernel) (.text " 007 ")
  have fits : e.Fits := by decide
  have forward : e.InsertsForward := by decide
  have hword : e.InWord := by decide
  have hedited : (if e.onItems (items l.display defaultDelimiter) = [""] then []
      else e.onItems (items l.display defaultDelimiter)) = ["rope", "", "oil", "007"] := by
    decide +kernel
  obtain ⟨r, hrun, -, hread⟩ := (edit_reads_back given fits forward (Calls.ofDepth .builtins 1)
    editingFrame editingState).1 hword
  rw [hedited] at hread
  exact ⟨given, fits, forward, hword, r, hrun, hread⟩

/-- **Not every position behind the end appends**: 2 ^ 63 is refused. -/
theorem position_refused :
    ¬∀ (l : Value) (e : Edit) (args : List Value) (calls : Calls) (f : Frame) (st : RunState),
      e.GivenBy l args → e.Fits → e.InsertsForward →
        let edited := e.onItems (items l.display defaultDelimiter)
        ∃ r, e.run calls args f st = (.ok (.text r), st) ∧
          (edited ≠ [""] → ReadAs calls f st r edited) := by
  intro h
  have given : (Edit.insert (2 ^ 63) "x").GivenBy (.text "a,b") [.text "a,b", .ofInt (2 ^ 63), .text "x"] :=
    .insert (by decide) (.text "x")
  obtain ⟨r, hrun, -⟩ := h _ _ _ (Calls.ofDepth .builtins 1) editingFrame editingState given (by decide)
    (by decide)
  obtain ⟨why, hwhy⟩ := Edit.run_of_not_inWord given (by decide) (Calls.ofDepth .builtins 1)
    editingFrame editingState
  rw [hwhy] at hrun
  cases hrun

end Tabletop.StringList
