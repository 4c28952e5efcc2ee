import Tabletop.PropertyList.Text
import Tabletop.Proofs.Text.Pieces

/-
  Property lists: which keys and values a text holds, whatever its layout.

  1. **One segment** — `pairFrom?` keeps of a segment only its key and its trimmed value, and has the
     equations of a scan from left to right.  `pairOf?` is that scan from the start of a segment.

  2. **All segments** — the reader also collects the layout between the entries, but no key and no
     value depends on it.  So reading is a fold of `put` over the pairs of the segments
     (`pairs_parse`), in which segments without a key do not occur at all.

  3. **Blanks at the ends** — a blank is no key character (`isKeyChar_of_isBlank`).  In front of a
     segment it is passed over, behind it belongs to the value and is trimmed away, and between a key
     and the end it makes no equals sign.  So trimming a segment changes nothing
     (`pairOf?_trimChars`).
-/
namespace Tabletop.PropertyList

/-! ## One segment -/

/-- The key and the trimmed value that the scan finds. -/
def pairFrom? (inRun : Bool) (cs : List Char) : Option (List Char × List Char) :=
  (findPair? inRun cs).map fun r => (r.2.1, Text.trimChars r.2.2)

/-- The key and the trimmed value of a segment. -/
def pairOf? (segment : List Char) : Option (List Char × List Char) := pairFrom? false segment

/-- Passing over a character keeps what is found behind it. -/
theorem pairFrom?_later (c : Char) (inRun : Bool) (cs : List Char) :
    ((findPair? inRun cs).map fun r => (c :: r.1, r.2)).map (fun r => (r.2.1, Text.trimChars r.2.2)) =
      pairFrom? inRun cs := by
  rw [Option.map_map]
  rfl

/-- A character that keys do not have ends a run of those that they have. -/
theorem pairFrom?_of_not_isKeyChar {c : Char} (h : isKeyChar c = false) (inRun : Bool) (cs : List Char) :
    pairFrom? inRun (c :: cs) = pairFrom? false cs := by
  rw [pairFrom?, findPair?]
  simp only [h, Bool.false_eq_true, if_false]
  exact pairFrom?_later c false cs

/-- A key does not begin in the middle of a run. -/
theorem pairFrom?_inRun {c : Char} (h : isKeyChar c = true) (cs : List Char) :
    pairFrom? true (c :: cs) = pairFrom? true cs := by
  rw [pairFrom?, findPair?]
  simp only [h, if_true]
  exact pairFrom?_later c true cs

/-- At the first character of a run a pair may be read, or one is looked for behind it. -/
theorem pairFrom?_start {c : Char} (h : isKeyChar c = true) (cs : List Char) :
    pairFrom? false (c :: cs) =
      ((readPair? (c :: cs)).map fun r => (r.1, Text.trimChars r.2)).or (pairFrom? true cs) := by
  rw [pairFrom?, findPair?]
  simp only [h, if_true, Bool.false_eq_true, if_false]
  cases readPair? (c :: cs) with
  | none => exact pairFrom?_later c true cs
  | some r => rfl

/-! ## All segments -/

/-- Overwrites the value of the first pair that has the key, if there is one. -/
def overwritePair (form : List Char) (value : String) :
    List (String × String) → Option (List (String × String))
  | [] => none
  | p :: ps =>
    if keyForm p.1 = form then some ((p.1, value) :: ps)
    else (overwritePair form value ps).map (p :: ·)

/-- Puts a pair that was read among the pairs before it. -/
def put (pairs : List (String × String)) (pair : List Char × List Char) : List (String × String) :=
  match overwritePair (Text.upperChars pair.1) (String.ofList pair.2) pairs with
  | some ps => ps
  | none => pairs ++ [(String.ofList pair.1, String.ofList pair.2)]

/-- The pairs that were read so far. -/
def ReadState.pairs (st : ReadState) : List (String × String) :=
  st.entries.map fun e => (e.key, e.value)

/-- A value is set in an entry as in its pair. -/
theorem overwrite_pairs (form : List Char) (value : String) (es : List Property) :
    (overwrite form value es).map (List.map fun e => (e.key, e.value)) =
      overwritePair form value (es.map fun e => (e.key, e.value)) := by
  induction es with
  | nil => rfl
  | cons e es ih =>
    rw [overwrite, List.map_cons, overwritePair]
    split
    · rfl
    · rw [← ih, Option.map_map, Option.map_map]
      rfl

/-- **A segment adds its pair**, if it has one; the layout so far has no part in it. -/
theorem pairs_readSegment (st : ReadState) (segment : List Char) :
    (readSegment st segment).pairs = ((pairOf? segment).toList).foldl put st.pairs := by
  rw [readSegment, pairOf?, pairFrom?]
  cases findPair? false segment with
  | none => rfl
  | some r =>
    obtain ⟨before, key, raw⟩ := r
    have hpairs := overwrite_pairs (Text.upperChars key) (String.ofList (Text.trimChars raw)) st.entries
    show List.map (fun e : Property => (e.key, e.value)) _ = put st.pairs (key, Text.trimChars raw)
    rw [put, ReadState.pairs, ← hpairs]
    dsimp only
    cases overwrite (Text.upperChars key) (String.ofList (Text.trimChars raw)) st.entries with
    | some es => rfl
    | none => exact List.map_append

/-- The pairs of all segments are put one after the other. -/
theorem pairs_readSegments (d : List Char) (segments : List (List Char)) (st : ReadState) :
    (readSegments d st segments).pairs = (segments.filterMap pairOf?).foldl put st.pairs := by
  induction segments generalizing st with
  | nil => rfl
  | cons s segments ih =>
    have hs := pairs_readSegment { st with pending := st.pending ++ d } s
    show (readSegments d (readSegment { st with pending := st.pending ++ d } s) segments).pairs = _
    rw [ih, hs, List.filterMap_cons]
    cases pairOf? s with
    | none => rfl
    | some p => rfl

/-- **Reading puts the pairs of the segments in order.** -/
theorem pairs_parse (s d : String) :
    (parse s d).pairs =
      ((Text.splitChars (new d).delimiter.toList s.toList).filterMap pairOf?).foldl put [] := by
  rw [parse]
  cases Text.splitChars (new d).delimiter.toList s.toList with
  | nil => rfl
  | cons first rest =>
    show (readSegments _ (readSegment ReadState.start first) rest).pairs = _
    rw [pairs_readSegments, pairs_readSegment, List.filterMap_cons]
    cases pairOf? first with
    | none => rfl
    | some p => rfl

/-! ## Blanks at the ends -/

/-- The codes of the blanks. -/
def blankCodes : List Nat :=
  [9, 10, 11, 12, 13, 0x20, 0x85, 0xA0, 0x1680, 0x2000, 0x2001, 0x2002, 0x2003, 0x2004, 0x2005,
    0x2006, 0x2007, 0x2008, 0x2009, 0x200A, 0x2028, 0x2029, 0x202F, 0x205F, 0x3000]

/-- Blanks are few. -/
theorem toNat_mem_blankCodes {c : Char} (h : Text.isBlank c = true) : c.toNat ∈ blankCodes := by
  simp only [Text.isBlank, Bool.or_eq_true, Bool.and_eq_true, decide_eq_true_eq, beq_iff_eq] at h
  simp only [blankCodes, List.mem_cons, List.not_mem_nil, or_false]
  omega

/-- None of them is in a key. -/
theorem isKeyChar_blankCodes : ∀ n ∈ blankCodes, isKeyChar (Char.ofNat n) = false := by
  decide +kernel

/-- **No blank stands in a key.** -/
theorem isKeyChar_of_isBlank {c : Char} (h : Text.isBlank c = true) : isKeyChar c = false := by
  have hc := isKeyChar_blankCodes c.toNat (toNat_mem_blankCodes h)
  rwa [Char.ofNat_toNat] at hc

section Blanks

variable {bs : List Char} (blank : ∀ b ∈ bs, Text.isBlank b = true)

include blank

/-- Blanks behind a text are not in the key that it begins with. -/
theorem takeWhile_append_blanks (cs : List Char) :
    (cs ++ bs).takeWhile isKeyChar = cs.takeWhile isKeyChar ∧
      (cs ++ bs).dropWhile isKeyChar = cs.dropWhile isKeyChar ++ bs := by
  induction cs with
  | nil =>
    cases bs with
    | nil => exact ⟨rfl, rfl⟩
    | cons b bs =>
      have hb : isKeyChar b = false := isKeyChar_of_isBlank (blank b List.mem_cons_self)
      simp [hb]
  | cons c cs ih =>
    by_cases hc : isKeyChar c = true
    · simp [hc, ih]
    · simp [hc]

/-- A key, an equals sign and a value are found with and without the blanks; the value may end in
    them, and is trimmed. -/
theorem readPair?_append_blanks (cs : List Char) :
    (readPair? (cs ++ bs)).map (fun r => (r.1, Text.trimChars r.2)) =
      (readPair? cs).map fun r => (r.1, Text.trimChars r.2) := by
  obtain ⟨htake, hdrop⟩ := takeWhile_append_blanks blank cs
  rw [readPair?, readPair?, htake, hdrop]
  -- either nothing but blanks stands behind the key, or the blanks stay behind what is there
  rcases Text.trimStart_append_blanks blank (cs.dropWhile isKeyChar) with ⟨h, h'⟩ | ⟨h, h'⟩
  · rw [h, h']
  · rw [h]
    obtain ⟨c, v, hv⟩ := List.exists_cons_of_ne_nil h'
    rw [hv, List.cons_append]
    by_cases hc : c = '='
    · subst hc
      show some (_, Text.trimChars (Text.trimStart (v ++ bs))) = some (_, Text.trimChars (Text.trimStart v))
      rw [Text.trimChars_trimStart, Text.trimChars_trimStart, Text.trimChars_append_blanks blank]
    · split
      · next he => exact absurd (List.cons.inj he).1 hc
      · split
        · next he => exact absurd (List.cons.inj he).1 hc
        · rfl

/-- Blanks behind a segment make no pair and spoil none. -/
theorem pairFrom?_append_blanks (cs : List Char) (inRun : Bool) :
    pairFrom? inRun (cs ++ bs) = pairFrom? inRun cs := by
  induction cs generalizing inRun with
  | nil =>
    -- blanks alone are passed over one by one
    induction bs generalizing inRun with
    | nil => rfl
    | cons b bs ih =>
      have hb : isKeyChar b = false := isKeyChar_of_isBlank (blank b List.mem_cons_self)
      rw [List.nil_append, pairFrom?_of_not_isKeyChar hb]
      exact ih (fun x hx => blank x (List.mem_cons_of_mem _ hx)) false
  | cons c cs ih =>
    rw [List.cons_append]
    -- a character of keys goes on with a run or begins one, any other ends it
    by_cases hc : isKeyChar c = true
    · cases inRun with
      | true => rw [pairFrom?_inRun hc, pairFrom?_inRun hc, ih]
      | false =>
        have hread := readPair?_append_blanks blank (c :: cs)
        rw [pairFrom?_start hc, pairFrom?_start hc, ih, ← hread, List.cons_append]
    · have hc' : isKeyChar c = false := eq_false_of_ne_true hc
      rw [pairFrom?_of_not_isKeyChar hc', pairFrom?_of_not_isKeyChar hc', ih]

/-- The same for a whole segment. -/
theorem pairOf?_append_blanks (cs : List Char) : pairOf? (cs ++ bs) = pairOf? cs :=
  pairFrom?_append_blanks blank cs false

/-- Nor do blanks in front of it. -/
theorem pairOf?_blanks_append (cs : List Char) : pairOf? (bs ++ cs) = pairOf? cs := by
  induction bs with
  | nil => rfl
  | cons b bs ih =>
    have hb : isKeyChar b = false := isKeyChar_of_isBlank (blank b List.mem_cons_self)
    rw [List.cons_append, pairOf?, pairFrom?_of_not_isKeyChar hb]
    exact ih fun x hx => blank x (List.mem_cons_of_mem _ hx)

end Blanks

/-- **Trimming a segment keeps its pair.** -/
theorem pairOf?_trimChars (cs : List Char) : pairOf? (Text.trimChars cs) = pairOf? cs := by
  obtain ⟨a, b, ha, hb, hcs⟩ := Text.exists_trimChars cs
  calc pairOf? (Text.trimChars cs)
      = pairOf? (Text.trimChars cs ++ b) := (pairOf?_append_blanks hb _).symm
    _ = pairOf? (a ++ (Text.trimChars cs ++ b)) := (pairOf?_blanks_append ha _).symm
    _ = pairOf? cs := by rw [← hcs]

/-! ## Other layouts -/

/-- The space is a blank. -/
theorem isBlank_of_mem_space : ∀ b ∈ [' '], Text.isBlank b = true := by
  intro b hb
  rw [List.mem_singleton.1 hb]
  rfl

/-- So the space in front of the first segment does not matter. -/
theorem filterMap_modifyHead {segments : List (List Char)} (h : segments ≠ []) :
    (segments.modifyHead (' ' :: ·)).filterMap pairOf? = segments.filterMap pairOf? := by
  obtain ⟨s, segments, rfl⟩ := List.exists_cons_of_ne_nil h
  have hs : pairOf? ([' '] ++ s) = pairOf? s := pairOf?_blanks_append isBlank_of_mem_space s
  rw [List.modifyHead_cons, List.filterMap_cons, List.filterMap_cons, ← hs]
  rfl

/-- **Segments that are set off with blanks hold the same pairs.** -/
theorem filterMap_splitChars_join {c : Char} (hc : c ≠ ' ') {xs : List (List Char)}
    (free : ∀ x ∈ xs, c ∉ x) :
    (Text.splitChars [c] (Text.joinChars [' ', c, ' '] xs)).filterMap pairOf? =
      xs.filterMap pairOf? := by
  induction xs with
  | nil => rfl
  | cons x xs ih =>
    have hx : c ∉ x := free x List.mem_cons_self
    cases xs with
    | nil =>
      show (Text.splitChars [c] x).filterMap pairOf? = _
      rw [Text.splitChars_of_not_mem hx]
    | cons y ys =>
      have hrest := ih fun z hz => free z (List.mem_cons_of_mem _ hz)
      -- the first segment ends with the space in front of the separator
      have hfront : c ∉ x ++ [' '] := by simp [hx, hc]
      -- and the next one begins with the space behind it
      have hjoin : Text.joinChars [' ', c, ' '] (x :: y :: ys) =
          (x ++ [' ']) ++ c :: ' ' :: Text.joinChars [' ', c, ' '] (y :: ys) := by
        simp [Text.joinChars_cons_cons]
      have hpair : pairOf? (x ++ [' ']) = pairOf? x := pairOf?_append_blanks isBlank_of_mem_space x
      rw [hjoin, Text.splitChars_append_cons hfront, Text.splitChars_cons_of_ne hc.symm,
        List.filterMap_cons, List.filterMap_cons, hpair,
        filterMap_modifyHead (Text.splitChars_ne_nil _ _), hrest]

/-- **Trimmed segments hold the same pairs**, also if empty ones are left out. -/
theorem filterMap_trim (segments : List (List Char)) :
    ((((segments.map String.ofList).map Text.trim).filter (· ≠ "")).map String.toList).filterMap
      pairOf? = segments.filterMap pairOf? := by
  induction segments with
  | nil => rfl
  | cons s segments ih =>
    have hs : Text.trim (String.ofList s) = String.ofList (Text.trimChars s) := by
      rw [Text.trim, String.toList_ofList]
    rw [List.map_cons, List.map_cons, List.filterMap_cons, ← pairOf?_trimChars s, hs]
    by_cases hempty : Text.trimChars s = []
    · -- an empty segment is left out, and has no pair
      rw [hempty, List.filter_cons, if_neg (by decide)]
      exact ih
    · have hfull : String.ofList (Text.trimChars s) ≠ "" := by simpa using hempty
      rw [List.filter_cons, if_pos (decide_eq_true hfull), List.map_cons, List.filterMap_cons,
        String.toList_ofList, ih]

end Tabletop.PropertyList
