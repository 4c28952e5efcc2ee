import Tabletop.Proofs.Json.Tokens

/-
  JSON documents in any layout: the reader gives back what a printer wrote.

  1. **Which documents** — `Plain` documents have integers of 64 bits for their numbers and no key
     twice in an object.  Floats are left out, since their shortest text is another matter; repeated
     keys are left out, since the reader keeps one of them.

  2. **How deep** — `nesting` counts the containers around the deepest scalar.  It is what the
     reader's `depth` has to pay for, and nothing else is.

  3. **Layouts** — a `Layout` says which blanks start a line and which stand behind a colon.  The two
     printers differ in that only (`compact_chars`, `indented_chars`), and readers skip blanks
     (`readValue_blanks` and its companions).

  4. **The crux (`Layout.readValue_chars`)** — one induction on the document, with one statement for
     values and one each for the items and the fields that are still to come.  All of them carry the
     text behind (`r`) and the steps that are left: two for each character are enough, because every
     reader writes off a character before the next one is called.
-/
namespace Tabletop.Json

/-! ## Documents that come back -/

mutual

/-- How many containers stand around the deepest scalar. -/
def nesting : Json → Nat
  | .array xs => nestingItems xs + 1
  | .object fs => nestingFields fs + 1
  | _ => 0

/-- The deepest of the items. -/
def nestingItems : List Json → Nat
  | [] => 0
  | x :: xs => max x.nesting (nestingItems xs)

/-- The deepest of the fields. -/
def nestingFields : List (String × Json) → Nat
  | [] => 0
  | (_, x) :: fs => max x.nesting (nestingFields fs)

end

mutual

/-- All numbers are integers of 64 bits, and no object has a key twice. -/
def Plain : Json → Prop
  | .number (.integer n) => InWords n
  | .number (.float _) => False
  | .array xs => PlainItems xs
  | .object fs => (Assoc.keys fs).Nodup ∧ PlainFields fs
  | _ => True

/-- Every item is plain. -/
def PlainItems : List Json → Prop
  | [] => True
  | x :: xs => x.Plain ∧ PlainItems xs

/-- Every field's value is plain. -/
def PlainFields : List (String × Json) → Prop
  | [] => True
  | (_, x) :: fs => x.Plain ∧ PlainFields fs

end

/-! ## Layouts -/

/-- The blanks between the parts of a document. -/
structure Layout where
  /-- What starts a line so many levels deep. -/
  line : Nat → List Char
  /-- What stands behind a colon. -/
  gap : List Char
  line_blank : ∀ n, ∀ c ∈ line n, isSpace c = true
  gap_blank : ∀ c ∈ gap, isSpace c = true

namespace Layout

/-- No blank at all. -/
def compact : Layout := ⟨fun _ => [], [], fun _ => nofun, nofun⟩

/-- Every item and field on a line of its own. -/
def indented {indent : List Char} (h : ∀ c ∈ indent, isSpace c = true) : Layout where
  line := newLine indent
  gap := [' ']
  line_blank n c hc := by
    rcases List.mem_cons.1 hc with rfl | hc
    · rfl
    · obtain ⟨cs, hcs, hc⟩ := List.mem_flatten.1 hc
      exact h c ((List.eq_of_mem_replicate hcs) ▸ hc)
  gap_blank c hc := by
    rw [List.mem_singleton.1 hc]
    rfl

variable (l : Layout)

mutual

/-- The text of a document that starts `n` levels deep. -/
def chars (n : Nat) : Json → List Char
  | .array [] => ['[', ']']
  | .array (x :: xs) => '[' :: (l.line (n + 1) ++ (chars (n + 1) x ++ moreItems n xs))
  | .object [] => ['\x7b', '\x7d']
  | .object ((k, x) :: fs) =>
    '\x7b' :: (l.line (n + 1) ++ (quote k ++ ':' :: (l.gap ++ (chars (n + 1) x ++ moreFields n fs))))
  | .null => renderChars .null
  | .bool b => renderChars (.bool b)
  | .number m => renderNumber m
  | .string s => quote s

/-- The items behind the first one, and the end of the array. -/
def moreItems (n : Nat) : List Json → List Char
  | [] => l.line n ++ [']']
  | x :: xs => ',' :: (l.line (n + 1) ++ (chars (n + 1) x ++ moreItems n xs))

/-- The fields behind the first one, and the end of the object. -/
def moreFields (n : Nat) : List (String × Json) → List Char
  | [] => l.line n ++ ['\x7d']
  | (k, x) :: fs =>
    ',' :: (l.line (n + 1) ++ (quote k ++ ':' :: (l.gap ++ (chars (n + 1) x ++ moreFields n fs))))

end

end Layout

/-! ## The two printers -/

mutual

/-- The compact printer has a layout. -/
theorem compact_chars (n : Nat) : ∀ j : Json, Layout.compact.chars n j = renderChars j
  | .array [] => by rw [Layout.chars, renderChars]
  | .array (x :: xs) => by
    rw [Layout.chars, renderChars, compact_chars (n + 1) x, compact_moreItems n xs]
    rfl
  | .object [] => by rw [Layout.chars, renderChars]
  | .object ((k, x) :: fs) => by
    rw [Layout.chars, renderChars, compact_chars (n + 1) x, compact_moreFields n fs]
    simp [Layout.compact]
  | .null => by rw [Layout.chars]
  | .bool b => by rw [Layout.chars]
  | .number m => by rw [Layout.chars, renderChars]
  | .string s => by rw [Layout.chars, renderChars]

theorem compact_moreItems (n : Nat) : ∀ xs : List Json, Layout.compact.moreItems n xs = renderItems xs
  | [] => by
    rw [Layout.moreItems, renderItems]
    rfl
  | x :: xs => by
    rw [Layout.moreItems, renderItems, compact_chars (n + 1) x, compact_moreItems n xs]
    rfl

theorem compact_moreFields (n : Nat) :
    ∀ fs : List (String × Json), Layout.compact.moreFields n fs = renderFields fs
  | [] => by
    rw [Layout.moreFields, renderFields]
    rfl
  | (k, x) :: fs => by
    rw [Layout.moreFields, renderFields, compact_chars (n + 1) x, compact_moreFields n fs]
    simp [Layout.compact]

end

section Indented

variable {indent : List Char} (h : ∀ c ∈ indent, isSpace c = true)
include h

mutual

/-- The indented printer has a layout. -/
theorem indented_chars (n : Nat) :
    ∀ j : Json, (Layout.indented h).chars n j = indentedChars indent n j
  | .array [] => by rw [Layout.chars, indentedChars]
  | .array (x :: xs) => by
    rw [Layout.chars, indentedChars, indented_chars (n + 1) x, indented_moreItems n xs]
    simp [Layout.indented]
  | .object [] => by rw [Layout.chars, indentedChars]
  | .object ((k, x) :: fs) => by
    rw [Layout.chars, indentedChars, indented_chars (n + 1) x, indented_moreFields n fs]
    simp [Layout.indented]
  | .null => by rw [Layout.chars, indentedChars]
  | .bool b => by rw [Layout.chars, indentedChars]
  | .number m => by rw [Layout.chars, indentedChars]
  | .string s => by rw [Layout.chars, indentedChars]

theorem indented_moreItems (n : Nat) :
    ∀ xs : List Json, (Layout.indented h).moreItems n xs = indentedItems indent n xs
  | [] => by
    rw [Layout.moreItems, indentedItems]
    rfl
  | x :: xs => by
    rw [Layout.moreItems, indentedItems, indented_chars (n + 1) x, indented_moreItems n xs]
    simp [Layout.indented]

theorem indented_moreFields (n : Nat) :
    ∀ fs : List (String × Json), (Layout.indented h).moreFields n fs = indentedFields indent n fs
  | [] => by
    rw [Layout.moreFields, indentedFields]
    rfl
  | (k, x) :: fs => by
    rw [Layout.moreFields, indentedFields, indented_chars (n + 1) x, indented_moreFields n fs]
    simp [Layout.indented]

end

end Indented

/-! ## The reader on a first character -/

/-- A number does not begin with space. -/
theorem isSpace_of_number {c : Char} (h : c = '-' ∨ c.isDigit = true) : isSpace c = false := by
  simp only [isSpace, Bool.or_eq_false_iff, beq_eq_false_iff_ne]
  refine ⟨⟨⟨?_, ?_⟩, ?_⟩, ?_⟩ <;> rintro rfl <;> exact absurd h (by decide)

/-- Nothing is skipped. -/
theorem skipSpace_cons {c : Char} (h : isSpace c = false) (cs : List Char) :
    skipSpace (c :: cs) = c :: cs := by
  simp [skipSpace, h]

/-- Space in front is skipped. -/
theorem skipSpace_append {b : List Char} (h : ∀ c ∈ b, isSpace c = true) (cs : List Char) :
    skipSpace (b ++ cs) = skipSpace cs :=
  List.dropWhile_append_of_pos h

/-- A blank behind a value does not go on with a number. -/
theorem Closes.append {r : List Char} (hr : Closes r) {b : List Char}
    (h : ∀ c ∈ b, isSpace c = true) : Closes (b ++ r) := by
  cases b with
  | nil => exact hr
  | cons c b =>
    intro x hx
    obtain rfl : c = x := Option.some.inj hx
    have hspace := h c List.mem_cons_self
    simp only [isSpace, Bool.or_eq_true, beq_iff_eq] at hspace
    rcases hspace with ((rfl | rfl) | rfl) | rfl <;> decide

section Dispatch

variable (s d : Nat) {b : List Char} (blank : ∀ c ∈ b, isSpace c = true) (cs : List Char)

include blank in
/-- Blanks in front of a value are skipped. -/
theorem readValue_blanks : readValue s d (b ++ cs) = readValue s d cs := by
  cases s with
  | zero => rw [readValue, readValue]
  | succ s => rw [readValue, readValue, skipSpace_append blank]

include blank in
/-- Space in front of elements does not matter. -/
theorem readItems_blanks : readItems s d (b ++ cs) = readItems s d cs := by
  cases s with
  | zero => rw [readItems, readItems]
  | succ s => rw [readItems, readItems, readValue_blanks s d blank]

include blank in
/-- Space in front of fields does not matter. -/
theorem readFields_blanks : readFields s d (b ++ cs) = readFields s d cs := by
  cases s with
  | zero => rw [readFields, readFields]
  | succ s => rw [readFields, readFields, skipSpace_append blank]

/-- At a quote a string is read. -/
theorem readValue_quote :
    readValue (s + 1) d ('"' :: cs) =
      (readString cs).map fun r => (.string (String.ofList r.1), r.2) := by
  rw [readValue]
  rfl

/-- At a minus sign or a digit a number is read. -/
theorem readValue_number {c : Char} (h : c = '-' ∨ c.isDigit = true) :
    readValue (s + 1) d (c :: cs) = (readNumber (c :: cs)).map fun r => (.number r.1, r.2) := by
  rw [readValue, skipSpace_cons (isSpace_of_number h)]
  split
  -- six kinds of value have a first character of their own, and it is neither a sign nor a digit
  iterate 6
    · next he =>
      obtain ⟨rfl, -⟩ := List.cons.inj he
      exact absurd h (by decide)
  · rfl

include blank in
/-- The first character that is no blank tells that there are items. -/
theorem readValue_array {c : Char} (hs : isSpace c = false) (hc : c ≠ ']') :
    readValue (s + 1) (d + 1) ('[' :: (b ++ c :: cs)) =
      (readItems s d (c :: cs)).map fun r => (.array r.1, r.2) := by
  have hopen : skipSpace ('[' :: (b ++ c :: cs)) = '[' :: (b ++ c :: cs) := skipSpace_cons rfl _
  have hfirst : skipSpace (b ++ c :: cs) = c :: cs :=
    (skipSpace_append blank _).trans (skipSpace_cons hs cs)
  rw [readValue, hopen]
  split
  -- the bracket is the first character of no other value
  iterate 4
    · next he => exact absurd (List.cons.inj he).1 (by decide)
  · next he =>
    obtain ⟨-, rfl⟩ := List.cons.inj he
    dsimp only
    rw [hfirst]
    split
    · next he' => exact absurd (List.cons.inj he').1 hc
    · rfl
  · next he => exact absurd (List.cons.inj he).1 (by decide)
  · next h _ => exact absurd rfl (h _)

include blank in
/-- Behind an opening brace and some space fields are read, if there is a quote. -/
theorem readValue_object :
    readValue (s + 1) (d + 1) ('\x7b' :: (b ++ '"' :: cs)) =
      (readFields s d ('"' :: cs)).map fun r => (.object r.1, r.2) := by
  have hopen : skipSpace ('\x7b' :: (b ++ '"' :: cs)) = '\x7b' :: (b ++ '"' :: cs) := skipSpace_cons rfl _
  have hfirst : skipSpace (b ++ '"' :: cs) = '"' :: cs :=
    (skipSpace_append blank _).trans (skipSpace_cons rfl cs)
  rw [readValue, hopen]
  split
  -- the text does not begin as null, true, false, a string or an array do
  iterate 5
    · next he => exact absurd (List.cons.inj he).1 (by decide)
  · next he =>
    obtain ⟨-, rfl⟩ := List.cons.inj he
    dsimp only
    rw [hfirst]
    rfl
  · next h => exact absurd rfl (h _)

/-- A key, a colon and a value behind it are one field; what stands behind tells how to go on. -/
theorem readFields_cons {key after : List Char} {x : Json} {rest : List Char}
    (hkey : readString cs = some (key, ':' :: after)) (hx : readValue s d after = some (x, rest)) :
    readFields (s + 1) d ('"' :: cs) =
      match skipSpace rest with
      | '\x7d' :: cs => some ([(String.ofList key, x)], cs)
      | ',' :: cs => (readFields s d cs).map fun r => ((String.ofList key, x) :: r.1, r.2)
      | _ => none := by
  rw [readFields]
  split
  · -- the key has been read, and there is a colon behind it
    next he =>
    obtain ⟨-, rfl⟩ := List.cons.inj (show '"' :: cs = '"' :: _ from he)
    rw [hkey]
    dsimp only
    split
    · next he' =>
      obtain ⟨-, rfl⟩ := List.cons.inj (show ':' :: after = ':' :: _ from he')
      rewrite [hx]
      rfl
    · next h => exact absurd rfl (h after)
  · next h => exact absurd rfl (h cs)

end Dispatch

/-! ## Reading back -/

namespace Layout

variable (l : Layout) (n : Nat)

/-- The items and the end of an array, without what opens it. -/
def itemsChars : List Json → List Char
  | [] => [']']
  | x :: xs => l.chars (n + 1) x ++ l.moreItems n xs

/-- The fields and the end of an object, without what opens it. -/
def fieldsChars : List (String × Json) → List Char
  | [] => ['\x7d']
  | (k, x) :: fs => quote k ++ ':' :: (l.gap ++ (l.chars (n + 1) x ++ l.moreFields n fs))

/-- Behind an element there is a comma, a new line and the next element. -/
theorem moreItems_cons (x : Json) (xs : List Json) :
    l.moreItems n (x :: xs) = ',' :: (l.line (n + 1) ++ l.itemsChars n (x :: xs)) := by
  rw [moreItems]
  rfl

/-- Behind a field there is a comma, a new line and the next field. -/
theorem moreFields_cons (f : String × Json) (fs : List (String × Json)) :
    l.moreFields n (f :: fs) = ',' :: (l.line (n + 1) ++ l.fieldsChars n (f :: fs)) := by
  rw [moreFields]
  rfl

/-- An array opens with a line. -/
theorem chars_array (x : Json) (xs : List Json) :
    l.chars n (.array (x :: xs)) = '[' :: (l.line (n + 1) ++ l.itemsChars n (x :: xs)) := by
  rw [chars]
  rfl

/-- An object opens with a line. -/
theorem chars_object (f : String × Json) (fs : List (String × Json)) :
    l.chars n (.object (f :: fs)) = '\x7b' :: (l.line (n + 1) ++ l.fieldsChars n (f :: fs)) := by
  rw [chars]
  rfl

/-- The first field, in pieces. -/
theorem fieldsChars_append (k : String) (x : Json) (fs : List (String × Json)) (r : List Char) :
    l.fieldsChars n ((k, x) :: fs) ++ r =
      '"' :: (escape k.toList ++
        '"' :: ':' :: (l.gap ++ (l.chars (n + 1) x ++ (l.moreFields n fs ++ r)))) := by
  simp [fieldsChars, quote]

/-- A document starts with a character that is skipped by no reader and closes no array. -/
theorem exists_chars {j : Json} (h : j.Plain) :
    ∃ c cs, l.chars n j = c :: cs ∧ isSpace c = false ∧ c ≠ ']' := by
  cases j with
  | null => exact ⟨_, _, by rw [chars, renderChars], rfl, by decide⟩
  | bool b => cases b <;> exact ⟨_, _, by rw [chars, renderChars], rfl, by decide⟩
  | number m =>
    cases m with
    | integer m =>
      -- a number begins with a minus sign or a digit
      obtain ⟨c, cs, hcs, hc⟩ := exists_renderNumber m
      refine ⟨c, cs, by rw [chars, hcs], isSpace_of_number hc, ?_⟩
      rintro rfl
      exact absurd hc (by decide)
    | float x => exact absurd h (by simp [Plain])
  | string s => exact ⟨_, _, by rw [chars]; rfl, rfl, by decide⟩
  | array xs =>
    cases xs with
    | nil => exact ⟨_, _, by rw [chars], rfl, by decide⟩
    | cons x xs => exact ⟨_, _, l.chars_array n x xs, rfl, by decide⟩
  | object fs =>
    cases fs with
    | nil => exact ⟨_, _, by rw [chars], rfl, by decide⟩
    | cons f fs => exact ⟨_, _, l.chars_object n f fs, rfl, by decide⟩

/-- There is a bracket at least. -/
theorem length_moreItems_pos (xs : List Json) : 0 < (l.moreItems n xs).length := by
  cases xs with
  | nil =>
    rw [moreItems, List.length_append]
    exact Nat.lt_add_left _ Nat.zero_lt_one
  | cons x xs => exact moreItems_cons l n x xs ▸ Nat.zero_lt_succ _

/-- What follows an element closes a number. -/
theorem closes_moreItems (xs : List Json) (r : List Char) : Closes (l.moreItems n xs ++ r) := by
  cases xs with
  | nil =>
    rw [moreItems, List.append_assoc]
    exact Closes.append (fun c hc => by cases hc; decide) (l.line_blank n)
  | cons x xs =>
    rw [moreItems_cons]
    exact fun c hc => by cases hc; decide

/-- What follows the value of a field closes a number. -/
theorem closes_moreFields (fs : List (String × Json)) (r : List Char) :
    Closes (l.moreFields n fs ++ r) := by
  cases fs with
  | nil =>
    rw [moreFields, List.append_assoc]
    exact Closes.append (fun c hc => by cases hc; decide) (l.line_blank n)
  | cons f fs =>
    rw [moreFields_cons]
    exact fun c hc => by cases hc; decide

end Layout

/-- There is one level more. -/
theorem exists_level {n d : Nat} (h : n + 1 ≤ d) : ∃ d', d = d' + 1 := ⟨d - 1, by omega⟩

namespace Layout

variable (l : Layout)

mutual

/-- **A plain document is read back**, up to what closes it. -/
theorem readValue_chars : ∀ (j : Json) {n s d : Nat} {r : List Char}, j.Plain → j.nesting ≤ d →
    2 * (l.chars n j).length ≤ s → Closes r → readValue s d (l.chars n j ++ r) = some (j, r)
  | j, n, 0, d, r, hp, _, hs, _ => by
    -- no document is written as nothing, so there is a step to spend
    obtain ⟨c, cs, hcs, -, -⟩ := l.exists_chars n hp
    rw [hcs, List.length_cons] at hs
    omega
  | .null, n, s + 1, d, r, _, _, _, _ => by
    rw [chars, renderChars, readValue]
    rfl
  | .bool true, n, s + 1, d, r, _, _, _, _ => by
    rw [chars, renderChars, readValue]
    rfl
  | .bool false, n, s + 1, d, r, _, _, _, _ => by
    rw [chars, renderChars, readValue]
    rfl
  | .number (.integer m), n, s + 1, d, r, hp, _, _, hr => by
    have hread := readNumber_renderNumber (show InWords m by simpa [Plain] using hp) hr
    obtain ⟨c, cs, hcs, hc⟩ := exists_renderNumber m
    -- the first character chooses the reader, so it has to be seen in both texts
    rw [chars]
    rw [hcs, List.cons_append] at hread ⊢
    rw [readValue_number s d _ hc, hread]
    rfl
  | .number (.float x), n, s + 1, d, r, hp, _, _, _ => by
    exact absurd hp (by simp [Plain])
  | .string t, n, s + 1, d, r, _, _, _, _ => by
    rw [chars, quote, List.cons_append, List.cons_append, List.append_assoc, readValue_quote]
    show (readString (escape t.toList ++ '"' :: r)).map _ = _
    rw [readString_escape]
    show some (Json.string (String.ofList t.toList), r) = _
    rw [String.ofList_toList]
  | .array [], n, s + 1, d, r, _, hd, _, _ => by
    obtain ⟨d, rfl⟩ := exists_level (show 0 + 1 ≤ d by simpa [nesting, nestingItems] using hd)
    rw [chars, readValue]
    rfl
  | .array (x :: xs), n, s + 1, d, r, hp, hd, hs, _ => by
    rw [Plain] at hp
    rw [nesting] at hd
    rw [chars_array, List.length_cons, List.length_append] at hs
    obtain ⟨d, rfl⟩ := exists_level hd
    have hread := readItems_itemsChars (x :: xs) (n := n) (s := s) (d := d) (r := r)
      (List.cons_ne_nil _ _) hp (by omega) (by omega)
    -- the first item tells the reader that the array is not empty
    obtain ⟨c, cs, hcs, hspace, hclose⟩ := l.exists_chars (n + 1) hp.1
    rw [chars_array, List.cons_append, List.append_assoc]
    rw [itemsChars, hcs, List.cons_append, List.cons_append] at hread ⊢
    rw [readValue_array s d (l.line_blank _) _ hspace hclose, hread]
    rfl
  | .object [], n, s + 1, d, r, _, hd, _, _ => by
    obtain ⟨d, rfl⟩ := exists_level (show 0 + 1 ≤ d by simpa [nesting, nestingFields] using hd)
    rw [chars, readValue]
    rfl
  | .object ((k, x) :: fs), n, s + 1, d, r, hp, hd, hs, _ => by
    rw [Plain] at hp
    rw [nesting] at hd
    rw [chars_object, List.length_cons, List.length_append] at hs
    obtain ⟨d, rfl⟩ := exists_level hd
    have hread := readFields_fieldsChars ((k, x) :: fs) (n := n) (s := s) (d := d) (r := r)
      (List.cons_ne_nil _ _) hp.2 (by omega) (by omega)
    rw [chars_object, List.cons_append, List.append_assoc]
    rw [fieldsChars_append] at hread ⊢
    rw [readValue_object s d (l.line_blank _), hread]
    rfl

/-- **Items are read back**, with the end of their array. -/
theorem readItems_itemsChars : ∀ (xs : List Json) {n s d : Nat} {r : List Char}, xs ≠ [] →
    PlainItems xs → nestingItems xs ≤ d → 2 * (l.itemsChars n xs).length ≤ s →
    readItems s d (l.itemsChars n xs ++ r) = some (xs, r)
  | [], _, _, _, _, hne, _, _, _ => absurd rfl hne
  | x :: xs, n, 0, d, r, _, hp, _, hs => by
    obtain ⟨c, cs, hcs, -, -⟩ := l.exists_chars (n + 1) hp.1
    rw [itemsChars, hcs, List.length_append, List.length_cons] at hs
    omega
  | x :: xs, n, s + 1, d, r, _, hp, hd, hs => by
    rw [PlainItems] at hp
    rw [nestingItems] at hd
    rw [itemsChars, List.length_append] at hs
    -- the end of the array is a character, which pays for the step of this call
    have hend := l.length_moreItems_pos n xs
    have hx := readValue_chars x (n := n + 1) (s := s) (d := d) hp.1 (by omega) (by omega)
      (l.closes_moreItems n xs r)
    rw [itemsChars, List.append_assoc, readItems, hx]
    dsimp only
    cases xs with
    | nil =>
      rw [moreItems, List.append_assoc, skipSpace_append (l.line_blank n)]
      rfl
    | cons y ys =>
      rw [moreItems_cons, List.length_cons, List.length_append] at hs
      have hys := readItems_itemsChars (y :: ys) (n := n) (s := s) (d := d) (r := r)
        (List.cons_ne_nil _ _) hp.2 (by omega) (by omega)
      rw [moreItems_cons, List.cons_append, List.append_assoc]
      show (readItems s d (l.line (n + 1) ++ (l.itemsChars n (y :: ys) ++ r))).map _ = _
      rw [readItems_blanks s d (l.line_blank _), hys]
      rfl

/-- **Fields are read back**, with the end of their object. -/
theorem readFields_fieldsChars : ∀ (fs : List (String × Json)) {n s d : Nat} {r : List Char},
    fs ≠ [] → PlainFields fs → nestingFields fs ≤ d → 2 * (l.fieldsChars n fs).length ≤ s →
    readFields s d (l.fieldsChars n fs ++ r) = some (fs, r)
  | [], _, _, _, _, hne, _, _, _ => absurd rfl hne
  | (k, x) :: fs, n, 0, d, r, _, hp, _, hs => by
    rw [fieldsChars, quote, List.length_append, List.length_append, List.length_cons] at hs
    omega
  | (k, x) :: fs, n, s + 1, d, r, _, hp, hd, hs => by
    rw [PlainFields] at hp
    rw [nestingFields] at hd
    rw [fieldsChars, List.length_append, List.length_cons, List.length_append,
      List.length_append] at hs
    -- the value, by the lemma about values, with the rest of the fields behind it
    have hx := readValue_chars x (n := n + 1) (s := s) (d := d) hp.1 (by omega) (by omega)
      (l.closes_moreFields n fs r)
    have hvalue := (readValue_blanks s d l.gap_blank _).trans hx
    rw [fieldsChars_append, readFields_cons s d _ (readString_escape _ _) hvalue, String.ofList_toList]
    cases fs with
    -- the last field: the brace follows on a line of its own
    | nil =>
      rw [moreFields, List.append_assoc, skipSpace_append (l.line_blank n)]
      rfl
    | cons g gs =>
      rw [moreFields_cons, List.length_cons, List.length_append] at hs
      -- the other fields, by induction: the fuel is enough for them as they are shorter
      have hgs := readFields_fieldsChars (g :: gs) (n := n) (s := s) (d := d) (r := r)
        (List.cons_ne_nil _ _) hp.2 (by omega) (by omega)
      rw [moreFields_cons, List.cons_append, List.append_assoc]
      show (readFields s d (l.line (n + 1) ++ (l.fieldsChars n (g :: gs) ++ r))).map _ = _
      rw [readFields_blanks s d (l.line_blank _), hgs]
      rfl

end

/-- **A document comes back from its text in any layout**, unless it is nested too deep. -/
theorem readDocument?_chars {j : Json} (plain : j.Plain) (depth : j.nesting ≤ depthLimit) :
    readDocument? (String.ofList (l.chars 0 j)) = some j := by
  have hread : readValue (stepsFor (l.chars 0 j)) depthLimit (l.chars 0 j ++ []) = some (j, []) :=
    l.readValue_chars j plain depth (by simp only [stepsFor]; omega) closes_nil
  rw [List.append_nil] at hread
  rw [readDocument?, String.toList_ofList, hread]
  rfl

end Layout

/-- The compact text of a document. -/
theorem readDocument?_render {j : Json} (plain : j.Plain) (depth : j.nesting ≤ depthLimit) :
    readDocument? j.render = some j := by
  rw [render, ← compact_chars 0]
  exact Layout.compact.readDocument?_chars plain depth

/-- The indented text of a document. -/
theorem readDocument?_renderIndented (width : Nat) {j : Json} (plain : j.Plain)
    (depth : j.nesting ≤ depthLimit) : readDocument? (j.renderIndented width) = some j := by
  have hblank : ∀ c ∈ List.replicate width ' ', isSpace c = true := by
    intro c hc
    rw [List.eq_of_mem_replicate hc]
    rfl
  rw [renderIndented, ← indented_chars hblank 0]
  exact (Layout.indented hblank).readDocument?_chars plain depth

end Tabletop.Json
