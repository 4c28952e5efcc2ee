import Tabletop.Proofs.PropertyList.Pairs

/-
  Property lists: a list that is written is read back with the same keys and values.

  1. **In front of a key** — `Leads`: text that the scan for a key passes over and behind which it is
     outside of a run.  What was found in front of one key is such a text (`leads_of_findPair?`), and it
     is passed over in front of every other key, too (`Leads.pairFrom?_append`).

  2. **Between two entries** — `IsLayout`: blanks behind a value, segments without a key, and text that
     leads to the next key, with separators between them.  The layout that the reader keeps is of this
     kind, and so is the separator between blanks that the writer puts in.

  3. **Laid lists** — the keys are different and can be written, no value has a separator or a blank at
     an end, and what stands in front of an entry is a layout.  Reading makes laid lists (`laid_parse`).

  4. **The crux (`pairsIn_later`)** — an induction over the entries that are still to come.  A layout
     belongs to two segments, to the end of one and to the start of another, so the statement carries
     along the segment that is still open.
-/
namespace Tabletop.PropertyList

/-! ## In front of a key -/

/-- Text that the scan passes over: no key starts in it, and behind it the scan is outside of a run. -/
inductive Leads : (inRun : Bool) → List Char → Prop
  | nil : Leads false []
  | other {inRun : Bool} {c : Char} {cs : List Char} (hc : isKeyChar c = false)
      (rest : Leads false cs) : Leads inRun (c :: cs)
  | run {c : Char} {cs : List Char} (hc : isKeyChar c = true) (rest : Leads true cs) :
      Leads true (c :: cs)
  | start {c : Char} {cs : List Char} (hc : isKeyChar c = true)
      (keyless : readPair? (c :: cs) = none) (rest : Leads true cs) : Leads false (c :: cs)

/-- No blank is in a key. -/
theorem isBlank_of_isKeyChar {c : Char} (h : isKeyChar c = true) : Text.isBlank c = false := by
  cases hb : Text.isBlank c with
  | false => rfl
  | true =>
    rw [isKeyChar_of_isBlank hb] at h
    cases h

/-- A run that a text leads out of ends in it. -/
theorem Leads.exists_dropWhile {cs : List Char} (h : Leads true cs) :
    ∃ x y, cs.dropWhile isKeyChar = x :: y := by
  generalize hr : true = inRun at h
  induction h with
  | nil => cases hr
  | other hc _ _ => exact ⟨_, _, by rw [List.dropWhile_cons, hc]; rfl⟩
  | run hc _ ih =>
    obtain ⟨x, y, hxy⟩ := ih hr
    exact ⟨x, y, by rw [List.dropWhile_cons, hc, if_pos rfl, hxy]⟩
  | start _ _ _ _ => cases hr

/-- Whether a run is a key is settled in front of the next key. -/
theorem Leads.readPair?_append {c : Char} {cs : List Char} (hc : isKeyChar c = true)
    (h : Leads true cs) {k : Char} (hk : isKeyChar k = true) (rest : List Char) :
    (readPair? (c :: cs ++ k :: rest)).isSome = (readPair? (c :: cs)).isSome := by
  obtain ⟨x, y, hxy⟩ := h.exists_dropWhile
  have hrun : (c :: cs).dropWhile isKeyChar = x :: y := by rw [List.dropWhile_cons, hc, if_pos rfl, hxy]
  have hrun' : (c :: cs ++ k :: rest).dropWhile isKeyChar = (x :: y) ++ k :: rest := by
    rw [List.dropWhile_append, hrun]
    rfl
  rw [readPair?, readPair?, hrun, hrun', Text.trimStart, Text.trimStart, List.dropWhile_append]
  cases (x :: y).dropWhile Text.isBlank with
  | nil =>
    -- only blanks stand between the run and the key, and a key starts with no equals sign
    have hstop : (k :: rest).dropWhile Text.isBlank = k :: rest := by
      rw [List.dropWhile_cons, isBlank_of_isKeyChar hk]
      rfl
    have hsign : k ≠ '=' := by
      rintro rfl
      exact absurd hk (by decide)
    rw [List.isEmpty_nil, if_pos rfl, hstop]
    split
    · next he => exact absurd (List.cons.inj he).1 hsign
    · rfl
  | cons z w =>
    rw [List.isEmpty_cons, if_neg Bool.false_ne_true, List.cons_append]
    by_cases hz : z = '='
    · subst hz
      rfl
    · split
      · next he => exact absurd (List.cons.inj he).1 hz
      · split
        · next he => exact absurd (List.cons.inj he).1 hz
        · rfl

/-- What follows a lead does not decide whether a pair is read at its start. -/
theorem Leads.readPair?_eq_none_iff {c : Char} {cs : List Char} (hc : isKeyChar c = true)
    (h : Leads true cs) {k : Char} (hk : isKeyChar k = true) (rest : List Char) :
    readPair? (c :: cs ++ k :: rest) = none ↔ readPair? (c :: cs) = none := by
  rw [← Option.not_isSome_iff_eq_none, ← Option.not_isSome_iff_eq_none, h.readPair?_append hc hk rest]

/-- **The scan passes over text that leads to a key.** -/
theorem Leads.pairFrom?_append {inRun : Bool} {before : List Char} (h : Leads inRun before) {k : Char}
    (hk : isKeyChar k = true) (rest : List Char) :
    pairFrom? inRun (before ++ k :: rest) = pairFrom? false (k :: rest) := by
  induction h with
  | nil => rfl
  | other hc _ ih => rw [List.cons_append, pairFrom?_of_not_isKeyChar hc, ih]
  | run hc _ ih => rw [List.cons_append, pairFrom?_inRun hc, ih]
  | start hc keyless rest' ih =>
    have hnone := (rest'.readPair?_eq_none_iff hc hk rest).2 keyless
    rw [List.cons_append] at hnone ⊢
    rw [pairFrom?_start hc, hnone, ih]
    rfl

/-- Text that leads to a key has none itself. -/
theorem Leads.keyless {inRun : Bool} {before : List Char} (h : Leads inRun before) :
    pairFrom? inRun before = none := by
  induction h with
  | nil => rfl
  | other hc _ ih => rw [pairFrom?_of_not_isKeyChar hc, ih]
  | run hc _ ih => rw [pairFrom?_inRun hc, ih]
  | start hc keyless _ ih =>
    rw [pairFrom?_start hc, keyless, ih]
    rfl

/-- **What stands in front of a key leads to it.** -/
theorem leads_of_findPair? {inRun : Bool} {cs before key raw : List Char}
    (h : findPair? inRun cs = some (before, key, raw)) :
    Leads inRun before ∧ ∃ k rest, cs = before ++ k :: rest ∧ isKeyChar k = true ∧
      readPair? (k :: rest) = some (key, raw) := by
  induction cs generalizing inRun before with
  | nil => cases h
  | cons c cs ih =>
    -- what is found behind `c` stands one character later here
    have hlater {r : Bool}
        (hr : (findPair? r cs).map (fun p => (c :: p.1, p.2)) = some (before, key, raw)) :
        ∃ before', before = c :: before' ∧ Leads r before' ∧ ∃ k rest, cs = before' ++ k :: rest ∧
          isKeyChar k = true ∧ readPair? (k :: rest) = some (key, raw) := by
      obtain ⟨⟨b, p⟩, hp, he⟩ := Option.map_eq_some_iff.1 hr
      obtain ⟨rfl, rfl⟩ := Prod.mk.inj he
      exact ⟨b, rfl, ih hp⟩
    rw [findPair?] at h
    by_cases hc : isKeyChar c = true
    · simp only [hc, if_true] at h
      cases inRun with
      | true =>
        simp only [if_true] at h
        obtain ⟨b, rfl, hb, k, rest, rfl, hfound⟩ := hlater h
        exact ⟨.run hc hb, k, rest, rfl, hfound⟩
      | false =>
        simp only [Bool.false_eq_true, if_false] at h
        cases hhere : readPair? (c :: cs) with
        | some p =>
          rw [hhere] at h
          cases h
          exact ⟨.nil, c, cs, rfl, hc, hhere⟩
        | none =>
          rw [hhere] at h
          obtain ⟨b, rfl, hb, k, rest, rfl, hfound⟩ := hlater h
          have hkeyless := (hb.readPair?_eq_none_iff hc hfound.1 rest).1 hhere
          exact ⟨.start hc hkeyless hb, k, rest, rfl, hfound⟩
    · have hc' : isKeyChar c = false := eq_false_of_ne_true hc
      simp only [hc', Bool.false_eq_true, if_false] at h
      obtain ⟨b, rfl, hb, k, rest, rfl, hfound⟩ := hlater h
      exact ⟨.other hc' hb, k, rest, rfl, hfound⟩

/-- Text without a key character leads to every key. -/
theorem leads_of_forall {cs : List Char} (h : ∀ c ∈ cs, isKeyChar c = false) : Leads false cs := by
  induction cs with
  | nil => exact .nil
  | cons c cs ih =>
    exact .other (h c List.mem_cons_self) (ih fun x hx => h x (List.mem_cons_of_mem _ hx))

/-! ## Entries -/

/-- A key in a list with the separator `d`. -/
def IsKey (d : Char) (key : List Char) : Prop :=
  key ≠ [] ∧ (∀ c ∈ key, isKeyChar c = true) ∧ d ∉ key

instance (d : Char) (key : List Char) : Decidable (IsKey d key) :=
  decidable_of_iff ((!key.isEmpty && key.all isKeyChar && !key.contains d) = true) (by
    simp [IsKey, and_assoc])

/-- **An entry is found behind all text that leads to it.** -/
theorem Leads.pairOf?_entry {before key : List Char} (h : Leads false before) {d : Char}
    (hkey : IsKey d key) (value : List Char) :
    pairOf? (before ++ (key ++ '=' :: value)) = some (key, Text.trimChars value) := by
  obtain ⟨hne, hchars, -⟩ := hkey
  obtain ⟨k, ks, rfl⟩ := List.exists_cons_of_ne_nil hne
  have hk : isKeyChar k = true := hchars k List.mem_cons_self
  have hsign : isKeyChar '=' = false := by decide
  -- the run at the start of the entry is its key, and the sign ends it
  have htake : (k :: ks ++ '=' :: value).takeWhile isKeyChar = k :: ks := by
    rw [List.takeWhile_append_of_pos hchars, List.takeWhile_cons, hsign]
    simp
  have hdrop : (k :: ks ++ '=' :: value).dropWhile isKeyChar = '=' :: value := by
    rw [List.dropWhile_append_of_pos hchars, List.dropWhile_cons, hsign]
    rfl
  have hread : readPair? (k :: ks ++ '=' :: value) = some (k :: ks, Text.trimStart value) := by
    rw [readPair?, htake, hdrop]
    rfl
  rw [pairOf?, List.cons_append, h.pairFrom?_append hk, pairFrom?_start hk, ← List.cons_append, hread]
  show some (k :: ks, Text.trimChars (Text.trimStart value)) = _
  rw [Text.trimChars_trimStart]

/-- What the reader takes for a key is one, and it takes nothing but characters of the segment. -/
theorem isKey_of_readPair? {d : Char} {k : Char} {rest key raw : List Char} (hk : isKeyChar k = true)
    (free : d ∉ k :: rest) (h : readPair? (k :: rest) = some (key, raw)) :
    IsKey d key ∧ d ∉ raw := by
  rw [readPair?] at h
  split at h
  · next value hvalue =>
    obtain ⟨rfl, rfl⟩ := Prod.mk.inj (Option.some.inj h)
    have hsuffix : ('=' :: value) <:+ k :: rest := by
      rw [← hvalue]
      exact (List.dropWhile_suffix _).trans (List.dropWhile_suffix _)
    refine ⟨⟨?_, List.all_eq_true.1 List.all_takeWhile, fun hd => free ?_⟩, fun hd => free ?_⟩
    · rw [List.takeWhile_cons, hk]
      exact List.cons_ne_nil _ _
    · exact (List.takeWhile_prefix _).subset hd
    · exact hsuffix.subset (List.mem_cons_of_mem _ ((List.dropWhile_suffix _).subset hd))
  · cases h

/-! ## Between two entries -/

/-- The pairs in a text, segment by segment. -/
def pairsIn (d : Char) (cs : List Char) : List (List Char × List Char) :=
  (Text.splitChars [d] cs).filterMap pairOf?

section Segments

variable {d : Char} {x : List Char}

/-- A text without a delimiter is one segment. -/
theorem pairsIn_of_not_mem (free : d ∉ x) : pairsIn d x = (pairOf? x).toList := by
  rw [pairsIn, Text.splitChars_of_not_mem free]
  cases hx : pairOf? x <;> simp [hx]

/-- The first segment, and what is behind its delimiter. -/
theorem pairsIn_append_cons (free : d ∉ x) (rest : List Char) :
    pairsIn d (x ++ d :: rest) = (pairOf? x).toList ++ pairsIn d rest := by
  rw [pairsIn, Text.splitChars_append_cons free, List.filterMap_cons]
  cases pairOf? x with
  | none => rfl
  | some p => rfl

end Segments

/-- What may stand behind a value, up to the last separator in front of the next key: blanks, and
    segments without a key. -/
inductive IsGap (d : Char) : List Char → Prop
  | blanks {bs : List Char} (blank : ∀ b ∈ bs, Text.isBlank b = true) (free : d ∉ bs) : IsGap d bs
  | segment {gap seg : List Char} (before : IsGap d gap) (keyless : pairOf? seg = none)
      (free : d ∉ seg) : IsGap d (gap ++ d :: seg)

/-- What may stand between two entries. -/
def IsLayout (d : Char) (s : List Char) : Prop :=
  ∃ gap before, s = gap ++ d :: before ∧ IsGap d gap ∧ Leads false before ∧ d ∉ before

/-- **A gap belongs to the segment in front of it** and adds no pair to it. -/
theorem IsGap.pairsIn_append {d : Char} {gap : List Char} (h : IsGap d gap) {x : List Char}
    (free : d ∉ x) (rest : List Char) :
    pairsIn d (x ++ (gap ++ d :: rest)) = (pairOf? x).toList ++ pairsIn d rest := by
  induction h generalizing rest with
  | blanks blank hfree =>
    have hx : d ∉ x ++ _ := fun hd => (List.mem_append.1 hd).elim free hfree
    rw [← List.append_assoc, pairsIn_append_cons hx, pairOf?_append_blanks blank]
  | segment _ keyless hfree ih =>
    rw [List.append_assoc, List.cons_append, ih, pairsIn_append_cons hfree, keyless]
    rfl

/-- The separator between blanks. -/
def separatorChars (d : Char) : List Char := ' ' :: [d] ++ [' ']

/-- **The separator between blanks is a layout**, also if it is a blank itself. -/
theorem isLayout_separatorChars (d : Char) : IsLayout d (separatorChars d) := by
  by_cases hd : d = ' '
  · -- three blanks are three separators
    have hgap : IsGap d ([] ++ d :: []) := .segment (.blanks (by simp) (by simp)) rfl (by simp)
    refine ⟨[] ++ d :: [] ++ d :: [], [], ?_, .segment hgap rfl (by simp), .nil, by simp⟩
    rw [hd]
    rfl
  · have hblank : ∀ b ∈ [' '], Text.isBlank b = true := isBlank_of_mem_space
    refine ⟨[' '], [' '], rfl, .blanks hblank (by simpa using hd), ?_, by simpa using hd⟩
    exact leads_of_forall fun c hc => isKeyChar_of_isBlank (hblank c hc)

/-! ## Laid lists -/

/-- An entry that can be read back in a list with the separator `d`. -/
structure LaidEntry (d : Char) (e : Property) : Prop where
  key : IsKey d e.key.toList
  free : d ∉ e.value.toList
  trimmed : Text.Trimmed e.value.toList
  layout : ∀ s ∈ e.leading, IsLayout d s.toList

/-- Entries that can be read back in a list with the separator `d`. -/
structure Laid (d : Char) (es : List Property) : Prop where
  entries : ∀ e ∈ es, LaidEntry d e
  distinct : (es.map fun e => keyForm e.key).Nodup

/-- The key and the value of an entry. -/
def pairChars (e : Property) : List Char × List Char := (e.key.toList, e.value.toList)

/-- An entry has no delimiter in it. -/
theorem not_mem_entryChars {d : Char} {e : Property} (h : LaidEntry d e) (hd : d ≠ '=') :
    d ∉ entryChars e := by
  rw [entryChars, List.mem_append, List.mem_cons]
  rintro (hk | hs | hv)
  · exact h.key.2.2 hk
  · exact hd hs
  · exact h.free hv

/-- An entry is read back behind anything that leads to its key. -/
theorem Leads.pairOf?_entryChars {d : Char} {e : Property} (h : LaidEntry d e) {before : List Char}
    (hbefore : Leads false before) : pairOf? (before ++ entryChars e) = some (pairChars e) := by
  rw [entryChars, hbefore.pairOf?_entry h.key, h.trimmed.trimChars_eq]
  rfl

/-- What stands in front of an entry that is not the first is a layout. -/
theorem exists_laterChars {d : Char} {e : Property} (h : LaidEntry d e) :
    ∃ s, laterChars (separatorChars d) e = s ++ entryChars e ∧ IsLayout d s := by
  unfold laterChars
  cases hl : e.leading with
  | none => exact ⟨_, rfl, isLayout_separatorChars d⟩
  | some s => exact ⟨_, rfl, h.layout s hl⟩

/-- **Entries behind an open segment are read back**: the segment `x` is closed by the layout of the
    first of them, or by the end of the list. -/
theorem pairsIn_later {d : Char} (hd : d ≠ '=') {es : List Property} (h : ∀ e ∈ es, LaidEntry d e)
    {x : List Char} (free : d ∉ x) :
    pairsIn d (x ++ (es.flatMap (laterChars (separatorChars d)) ++ separatorChars d)) =
      (pairOf? x).toList ++ es.map pairChars := by
  induction es generalizing x with
  | nil =>
    obtain ⟨gap, before, hs, hgap, hbefore, hfree⟩ := isLayout_separatorChars d
    rw [List.flatMap_nil, List.nil_append, hs, hgap.pairsIn_append free, pairsIn_of_not_mem hfree,
      show pairOf? before = none from hbefore.keyless]
    rfl
  | cons e es ih =>
    have he : LaidEntry d e := h e List.mem_cons_self
    obtain ⟨_, hlater, gap, before, rfl, hgap, hbefore, hfree⟩ := exists_laterChars he
    -- behind its delimiter an entry stands in a segment of its own
    have hopen : d ∉ before ++ entryChars e := fun hm =>
      (List.mem_append.1 hm).elim hfree (not_mem_entryChars he hd)
    have hrest := ih (fun x hx => h x (List.mem_cons_of_mem _ hx)) hopen
    rw [hbefore.pairOf?_entryChars he] at hrest
    rw [List.flatMap_cons, hlater]
    -- the same text, cut at the delimiter in front of the entry
    have hparts : x ++ (gap ++ d :: before ++ entryChars e ++
          es.flatMap (laterChars (separatorChars d)) ++ separatorChars d) =
        x ++ (gap ++ d :: (before ++ entryChars e ++
          (es.flatMap (laterChars (separatorChars d)) ++ separatorChars d))) := by
      simp only [List.append_assoc, List.cons_append]
    rw [hparts, hgap.pairsIn_append free, hrest]
    rfl

/-! ## Writing and reading -/

/-- A key that is not there cannot be set in place. -/
theorem overwritePair_eq_none {form : List Char} {value : String} {ps : List (String × String)}
    (h : form ∉ ps.map fun p => keyForm p.1) : overwritePair form value ps = none := by
  induction ps with
  | nil => rfl
  | cons p ps ih =>
    rw [List.map_cons, List.mem_cons, not_or] at h
    rw [overwritePair, if_neg (Ne.symm h.1), ih h.2]
    rfl

/-- Pairs with different keys stay as they are when they are put one after another. -/
theorem foldl_put {ps : List (List Char × List Char)} {acc : List (String × String)}
    (distinct : (acc.map (fun p => keyForm p.1) ++ ps.map fun p => Text.upperChars p.1).Nodup) :
    ps.foldl put acc = acc ++ ps.map fun p => (String.ofList p.1, String.ofList p.2) := by
  induction ps generalizing acc with
  | nil => exact (List.append_nil acc).symm
  | cons p ps ih =>
    -- the key is in none of the pairs so far, so the pair goes to the end
    have hnew : overwritePair (Text.upperChars p.1) (String.ofList p.2) acc = none := by
      have hp : Text.upperChars p.1 ∉ acc.map fun p => keyForm p.1 := fun hm =>
        (List.nodup_append.1 distinct).2.2 _ hm _ List.mem_cons_self rfl
      exact overwritePair_eq_none hp
    have hput : put acc p = acc ++ [(String.ofList p.1, String.ofList p.2)] := by
      rw [put, hnew]
    have hform : keyForm (String.ofList p.1) = Text.upperChars p.1 := by
      rw [keyForm, String.toList_ofList]
    rw [List.foldl_cons, hput, ih, List.append_assoc]
    · rfl
    · simpa [hform] using distinct

/-- A list has the delimiter that it is made with. -/
theorem delimiter_new (d : Char) : (new (String.singleton d)).delimiter = String.singleton d :=
  if_neg String.singleton_ne_empty

/-- It ends as its separators do. -/
theorem terminator_eq {d : Char} {l : PropertyList} (h : l.delimiter = String.singleton d) :
    l.terminator = separatorChars d := by
  rw [terminator, h, String.toList_singleton]
  rfl

/-- **Segments with the pairs of a list** are read as these pairs, if the keys are different. -/
theorem pairs_parse_of_pairsIn {d : Char} {s : String} {es : List Property}
    (h : pairsIn d s.toList = es.map pairChars) (distinct : (es.map fun e => keyForm e.key).Nodup) :
    (parse s (String.singleton d)).pairs = es.map fun e => (e.key, e.value) := by
  have hdistinct : (es.map fun e => Text.upperChars e.key.toList).Nodup := distinct
  rw [pairs_parse, delimiter_new, String.toList_singleton]
  show (pairsIn d s.toList).foldl put [] = _
  rw [h, foldl_put (by simpa [pairChars, Function.comp_def] using hdistinct)]
  simp [pairChars]

/-- **A laid list is read back** from its text, with its keys, their case, their order and the values. -/
theorem pairs_parse_render {d : Char} (hd : d ≠ '=') {l : PropertyList}
    (hdelimiter : l.delimiter = String.singleton d) (h : Laid d l.entries) :
    (parse l.render (String.singleton d)).pairs = l.pairs := by
  have hpairs : pairsIn d l.renderChars = l.entries.map pairChars := by
    unfold renderChars
    cases hes : l.entries with
    | nil => rfl
    | cons e es =>
      have hentries := h.entries
      rw [hes] at hentries
      have he : LaidEntry d e := hentries e List.mem_cons_self
      have hlater := pairsIn_later hd (fun x hx => hentries x (List.mem_cons_of_mem _ hx))
        (not_mem_entryChars he hd)
      have hfirst : pairOf? (entryChars e) = some (pairChars e) := Leads.nil.pairOf?_entryChars he
      dsimp only
      rw [terminator_eq hdelimiter, List.append_assoc, hlater, hfirst]
      rfl
  refine pairs_parse_of_pairsIn ?_ h.distinct
  rw [render, String.toList_ofList]
  exact hpairs

/-! ## What is read is laid -/

/-- Overwriting a value keeps the keys, and every other part of the entries. -/
theorem overwrite_eq_some {form : List Char} {value : String} {es es' : List Property}
    (h : overwrite form value es = some es') :
    es'.map (fun e => keyForm e.key) = es.map (fun e => keyForm e.key) ∧
      ∀ e' ∈ es', ∃ e ∈ es, e' = e ∨ e' = { e with value } := by
  induction es generalizing es' with
  | nil => cases h
  | cons e es ih =>
    rw [overwrite] at h
    split at h
    · obtain rfl := Option.some.inj h
      refine ⟨rfl, fun x hx => ?_⟩
      rcases List.mem_cons.1 hx with rfl | hx
      · exact ⟨e, List.mem_cons_self, .inr rfl⟩
      · exact ⟨x, List.mem_cons_of_mem _ hx, .inl rfl⟩
    · obtain ⟨es₁, hes₁, rfl⟩ := Option.map_eq_some_iff.1 h
      obtain ⟨hforms, hold⟩ := ih hes₁
      -- the entry is kept, and the value is set further behind
      refine ⟨by rw [List.map_cons, List.map_cons, hforms], fun x hx => ?_⟩
      rcases List.mem_cons.1 hx with rfl | hx
      · exact ⟨x, List.mem_cons_self, .inl rfl⟩
      · obtain ⟨e₀, he₀, hx'⟩ := hold x hx
        exact ⟨e₀, List.mem_cons_of_mem _ he₀, hx'⟩

/-- If it is not set in place, the key is not there. -/
theorem overwrite_eq_none {form : List Char} {value : String} {es : List Property}
    (h : overwrite form value es = none) : form ∉ es.map fun e => keyForm e.key := by
  induction es with
  | nil => exact List.not_mem_nil
  | cons e es ih =>
    rw [overwrite] at h
    split at h
    · cases h
    · next hne =>
      rw [List.map_cons, List.mem_cons, not_or]
      exact ⟨Ne.symm hne, ih (Option.map_eq_none_iff.1 h)⟩

/-- An entry that is put over the entry of its key, or at the end, brings no key in a second time. -/
theorem nodup_put {es : List Property} (h : (es.map fun e => keyForm e.key).Nodup) (e : Property) :
    (((overwrite (keyForm e.key) e.value es).getD (es ++ [e])).map fun e => keyForm e.key).Nodup := by
  cases ho : overwrite (keyForm e.key) e.value es with
  | some es' =>
    rw [Option.getD_some, (overwrite_eq_some ho).1]
    exact h
  | none =>
    rw [Option.getD_none, List.map_append, List.nodup_append]
    refine ⟨h, by simp, fun a ha b hb hab => ?_⟩
    rw [hab, List.mem_singleton.1 hb] at ha
    exact overwrite_eq_none ho ha

/-- There is nothing to be laid out. -/
theorem laid_nil (d : Char) : Laid d [] := ⟨fun _ he => absurd he List.not_mem_nil, List.nodup_nil⟩

/-- **An entry that is laid can be put into a laid list**, over the entry of its key or at the end. -/
theorem Laid.put {d : Char} {es : List Property} (h : Laid d es) {e : Property}
    (he : LaidEntry d e) : Laid d ((overwrite (keyForm e.key) e.value es).getD (es ++ [e])) := by
  refine ⟨fun x hx => ?_, nodup_put h.distinct e⟩
  cases ho : overwrite (keyForm e.key) e.value es with
  | some es' =>
    rw [ho] at hx
    obtain ⟨x₀, hx₀, rfl | rfl⟩ := (overwrite_eq_some ho).2 x hx
    · exact h.entries x hx₀
    · have hlaid := h.entries x₀ hx₀
      exact ⟨hlaid.key, he.free, he.trimmed, hlaid.layout⟩
  | none =>
    rw [ho] at hx
    rcases List.mem_append.1 hx with hx | hx
    · exact h.entries x hx
    · exact List.mem_singleton.1 hx ▸ he

/-- The state of the reader behind a segment: laid entries, and a gap behind the last value. -/
structure ReadState.Laid (d : Char) (st : ReadState) : Prop where
  entries : PropertyList.Laid d st.entries
  pending : st.entries ≠ [] → IsGap d st.pending

/-- The blanks at the end are blanks. -/
theorem isBlank_of_mem_blanksAtEnd {cs : List Char} : ∀ b ∈ Text.blanksAtEnd cs, Text.isBlank b = true :=
  fun _ hb => List.all_eq_true.1 List.all_takeWhile _ (List.mem_reverse.1 hb)

/-- They are part of the text. -/
theorem mem_of_mem_blanksAtEnd {cs : List Char} {c : Char} (h : c ∈ Text.blanksAtEnd cs) : c ∈ cs :=
  List.mem_reverse.1 ((List.takeWhile_prefix _).subset (List.mem_reverse.1 h))

/-- **Reading a segment keeps the entries laid.** -/
theorem laid_readSegment {d : Char} {st : ReadState} {segment : List Char}
    (hentries : PropertyList.Laid d st.entries)
    (hpending : st.entries ≠ [] → ∃ gap, IsGap d gap ∧ st.pending = gap ++ [d]) (free : d ∉ segment) :
    (readSegment st segment).Laid d := by
  unfold readSegment
  cases hfind : findPair? false segment with
  | none =>
    refine ⟨hentries, fun hne => ?_⟩
    obtain ⟨gap, hgap, hst⟩ := hpending hne
    have hkeyless : pairOf? segment = none := by rw [pairOf?, pairFrom?, hfind]; rfl
    show IsGap d (st.pending ++ segment)
    rw [hst, List.append_assoc]
    exact .segment hgap hkeyless free
  | some r =>
    obtain ⟨before, key, raw⟩ := r
    obtain ⟨hbefore, k, rest, rfl, hk, hread⟩ := leads_of_findPair? hfind
    have hfront : d ∉ before := fun h => free (List.mem_append_left _ h)
    obtain ⟨hkey, hraw⟩ := isKey_of_readPair? hk (fun h => free (List.mem_append_right _ h)) hread
    refine ⟨?_, fun _ => .blanks isBlank_of_mem_blanksAtEnd fun h => hraw (mem_of_mem_blanksAtEnd h)⟩
    -- the new entry, whether it is needed or not
    have hentry : LaidEntry d ⟨String.ofList key, String.ofList (Text.trimChars raw),
        if st.entries.isEmpty then none else some (String.ofList (st.pending ++ before))⟩ := by
      refine ⟨by simpa using hkey, ?_, by simpa using Text.trimmed_trimChars raw, fun s hs => ?_⟩
      · rw [String.toList_ofList]
        exact fun h => hraw (Text.mem_of_mem_trimChars h)
      · cases hes : st.entries with
        | nil =>
          rw [hes] at hs
          cases hs
        | cons e es =>
          rw [hes] at hs
          obtain ⟨gap, hgap, hst⟩ := hpending (by rw [hes]; exact List.cons_ne_nil e es)
          cases hs
          refine ⟨gap, before, ?_, hgap, hbefore, hfront⟩
          rw [String.toList_ofList, hst, List.append_assoc]
          rfl
    have hput := hentries.put hentry
    rw [keyForm, String.toList_ofList] at hput
    dsimp only
    cases ho : overwrite (Text.upperChars key) (String.ofList (Text.trimChars raw)) st.entries with
    | some es => rw [ho] at hput; exact hput
    | none => rw [ho] at hput; exact hput

/-- The segments of a text are laid out as they stand there. -/
theorem laid_readSegments {d : Char} {segments : List (List Char)} {st : ReadState} (h : st.Laid d)
    (free : ∀ s ∈ segments, d ∉ s) : (readSegments [d] st segments).Laid d := by
  induction segments generalizing st with
  | nil => exact h
  | cons s segments ih =>
    have hs : (readSegment { st with pending := st.pending ++ [d] } s).Laid d :=
      laid_readSegment h.entries (fun hne => ⟨st.pending, h.pending hne, rfl⟩)
        (free s List.mem_cons_self)
    exact ih hs fun x hx => free x (List.mem_cons_of_mem _ hx)

/-- A text is read with the delimiter that is given. -/
theorem delimiter_parse (s : String) (d : Char) :
    (parse s (String.singleton d)).delimiter = String.singleton d := delimiter_new d

/-- **What is read is laid.** -/
theorem laid_parse (s : String) (d : Char) : Laid d (parse s (String.singleton d)).entries := by
  have hpieces : ∀ p ∈ Text.splitChars [d] s.toList, d ∉ p := fun p hp =>
    Text.not_mem_of_mem_splitChars hp
  rw [parse, delimiter_new, String.toList_singleton]
  cases hp : Text.splitChars [d] s.toList with
  | nil => exact laid_nil d
  | cons first rest =>
    rw [hp] at hpieces
    have hfirst : (readSegment ReadState.start first).Laid d :=
      laid_readSegment (laid_nil d) (fun hne => absurd rfl hne)
        (hpieces first List.mem_cons_self)
    exact (laid_readSegments hfirst fun x hx => hpieces x (List.mem_cons_of_mem _ hx)).entries

end Tabletop.PropertyList
