import Tabletop.Text.Blank
import Tabletop.Text.Split

/-
  Pieces of a text: cutting is exact, and trimming finds the same middle twice.

  1. **Cutting at a character** — a separator of one character is found by looking at the first
     character alone, so `splitChars [c]` has the equations of a fold over the text.  They give the
     two directions that a format of joined fields needs: pieces without the separator come back
     from their join, and no piece of a cut has the separator in it.

  2. **Cutting once** — the text in front of the first separator comes back whatever stands behind; so
     does a run of characters of one class, up to the first that is not of it.

  3. **Trimming** — a text is trimmed already exactly if it has no blank at either end.  Every text
     is blanks, its trimmed middle, and blanks again, so blanks that are added at the ends change
     nothing.
-/
namespace Tabletop.Text

/-! ## Cutting at a character -/

section Cutting

variable {c : Char}

/-- A separator ends a piece that is empty so far. -/
@[simp] theorem splitChars_cons_self (cs : List Char) :
    splitChars [c] (c :: cs) = [] :: splitChars [c] cs := by
  simp [splitChars, splitFrom]

/-- Any other character joins the first piece. -/
theorem splitChars_cons_of_ne {x : Char} (h : x ≠ c) (cs : List Char) :
    splitChars [c] (x :: cs) = (splitChars [c] cs).modifyHead (x :: ·) := by
  simp [splitChars, splitFrom, h.symm]

/-- There is one piece at least. -/
@[simp] theorem splitChars_ne_nil (d cs : List Char) : splitChars d cs ≠ [] := splitFrom_ne_nil d 0 cs

/-- Without a separator the text is one piece. -/
theorem splitChars_of_not_mem {cs : List Char} (h : c ∉ cs) : splitChars [c] cs = [cs] := by
  induction cs with
  | nil => rfl
  | cons x cs ih =>
    rw [List.mem_cons, not_or] at h
    rw [splitChars_cons_of_ne (Ne.symm h.1), ih h.2]
    rfl

/-- A piece without the separator is cut off whole. -/
theorem splitChars_append_cons {p : List Char} (h : c ∉ p) (cs : List Char) :
    splitChars [c] (p ++ c :: cs) = p :: splitChars [c] cs := by
  induction p with
  | nil => exact splitChars_cons_self cs
  | cons x p ih =>
    rw [List.mem_cons, not_or] at h
    rw [List.cons_append, splitChars_cons_of_ne (Ne.symm h.1), ih h.2]
    rfl

/-- Characters without the separator join the first piece. -/
theorem splitChars_append_of_not_mem {p : List Char} (h : c ∉ p) (cs : List Char) :
    splitChars [c] (p ++ cs) = (splitChars [c] cs).modifyHead (p ++ ·) := by
  induction p with
  | nil =>
    rw [List.nil_append]
    cases splitChars [c] cs <;> rfl
  | cons x p ih =>
    rw [List.mem_cons, not_or] at h
    rw [List.cons_append, splitChars_cons_of_ne (Ne.symm h.1), ih h.2, List.modifyHead_modifyHead]
    rfl

/-- **Cutting undoes joining**, as long as there is a piece and no piece has the separator. -/
theorem splitChars_joinChars {ps : List (List Char)} (some_piece : ps ≠ [])
    (free : ∀ p ∈ ps, c ∉ p) : splitChars [c] (joinChars [c] ps) = ps := by
  induction ps with
  | nil => exact absurd rfl some_piece
  | cons p ps ih =>
    have hp : c ∉ p := free p List.mem_cons_self
    cases ps with
    | nil => exact splitChars_of_not_mem hp
    | cons q qs =>
      have hq := ih (by simp) fun x hx => free x (List.mem_cons_of_mem _ hx)
      rw [joinChars_cons_cons, List.append_assoc, List.singleton_append,
        splitChars_append_cons hp, hq]

example : splitChars ['&'] (joinChars ['&'] [['a'], [], ['b', 'c']]) = [['a'], [], ['b', 'c']] := by
  decide

/-- The same for texts. -/
theorem split_of_not_mem {d x : String} (hd : d.toList = [c]) (h : c ∉ x.toList) : split d x = [x] := by
  rw [split, hd, splitChars_of_not_mem h, List.map_singleton, String.ofList_toList]

/-- `splitChars_joinChars` on text. -/
theorem split_join {d : String} (hd : d.toList = [c]) {xs : List String} (some_piece : xs ≠ [])
    (free : ∀ x ∈ xs, c ∉ x.toList) : split d (join d xs) = xs := by
  have hcut : splitChars [c] (joinChars [c] (xs.map String.toList)) = xs.map String.toList := by
    refine splitChars_joinChars (by simpa using some_piece) fun p hp => ?_
    obtain ⟨x, hx, rfl⟩ := List.mem_map.1 hp
    exact free x hx
  rw [split, join, String.toList_ofList, hd, hcut, List.map_map]
  simp

/-- No piece contains the separator. -/
theorem not_mem_of_mem_splitChars {p cs : List Char} (h : p ∈ splitChars [c] cs) : c ∉ p := by
  induction cs generalizing p with
  | nil =>
    rw [List.mem_singleton.1 h]
    exact List.not_mem_nil
  | cons x cs ih =>
    by_cases hx : x = c
    · rw [hx, splitChars_cons_self, List.mem_cons] at h
      rcases h with rfl | h
      · exact List.not_mem_nil
      · exact ih h
    · -- the character joins the first piece, and is no separator itself
      rw [splitChars_cons_of_ne hx] at h
      cases hs : splitChars [c] cs with
      | nil => exact absurd hs (splitChars_ne_nil _ _)
      | cons q qs =>
        rw [hs, List.modifyHead_cons, List.mem_cons] at h
        rcases h with rfl | h
        · have hq : c ∉ q := ih (hs ▸ List.mem_cons_self)
          simp [Ne.symm hx, hq]
        · exact ih (hs ▸ List.mem_cons_of_mem _ h)

end Cutting

/-- There is nothing to be put between. -/
theorem join_singleton (d x : String) : join d [x] = x := String.ofList_toList

/-- What is joined comes from the separators or from the pieces. -/
theorem mem_of_mem_joinChars {d : List Char} {ps : List (List Char)} {x : Char}
    (h : x ∈ joinChars d ps) : x ∈ d ∨ ∃ p ∈ ps, x ∈ p := by
  induction ps with
  | nil => exact absurd h List.not_mem_nil
  | cons p ps ih =>
    cases ps with
    | nil => exact .inr ⟨p, List.mem_cons_self, h⟩
    | cons q qs =>
      rw [joinChars_cons_cons, List.mem_append, List.mem_append] at h
      -- hd) | hr | in the first piece, in the separator behind it, or later
      rcases h with (hp | hd) | hr
      · exact .inr ⟨p, List.mem_cons_self, hp⟩
      · exact .inl hd
      · rcases ih hr with hd | ⟨y, hy, hx⟩
        · exact .inl hd
        · exact .inr ⟨y, List.mem_cons_of_mem _ hy, hx⟩

/-! ## Cutting once -/

/-- The text is cut at the first character that the test accepts. -/
theorem cutAt_append_cons {p : Char → Bool} {a : List Char} {c : Char} (b : List Char)
    (front : ∀ x ∈ a, p x = false) (here : p c = true) : cutAt p (a ++ c :: b) = some (a, b) := by
  induction a with
  | nil => simp [cutAt, here]
  | cons x a ih =>
    have hx : p x = false := front x List.mem_cons_self
    rw [List.cons_append, cutAt, hx, ih fun y hy => front y (List.mem_cons_of_mem _ hy)]
    rfl

/-- A cut at the first `c`. -/
theorem cutAt_beq {a : List Char} {c : Char} (b : List Char) (free : c ∉ a) :
    cutAt (· == c) (a ++ c :: b) = some (a, b) := by
  refine cutAt_append_cons b (fun x hx => ?_) (beq_self_eq_true c)
  exact beq_eq_false_iff_ne.2 fun h => free (h ▸ hx)

/-- It is not cut if there is none. -/
theorem cutAt_eq_none {p : Char → Bool} {a : List Char} (all : ∀ x ∈ a, p x = false) :
    cutAt p a = none := by
  induction a with
  | nil => rfl
  | cons x a ih =>
    have hx : p x = false := all x List.mem_cons_self
    rw [cutAt, hx, ih fun y hy => all y (List.mem_cons_of_mem _ hy)]
    rfl

/-- A run is cut out as a whole if what stands behind does not go on with it. -/
theorem takeWhile_append_of_stop {p : Char → Bool} {a r : List Char} (run : ∀ x ∈ a, p x = true)
    (stop : ∀ x ∈ r.head?, p x = false) : (a ++ r).takeWhile p = a ∧ (a ++ r).dropWhile p = r := by
  have hrest : r.takeWhile p = [] ∧ r.dropWhile p = r := by
    cases r with
    | nil => exact ⟨rfl, rfl⟩
    | cons c r =>
      rw [List.takeWhile_cons, List.dropWhile_cons, stop c rfl]
      exact ⟨rfl, rfl⟩
  rw [List.takeWhile_append_of_pos run, List.dropWhile_append_of_pos run, hrest.1, hrest.2,
    List.append_nil]
  exact ⟨rfl, rfl⟩

/-! ## Trimming -/

/-- No blank stands at either end. -/
def Trimmed (cs : List Char) : Prop :=
  (∀ x ∈ cs.head?, isBlank x = false) ∧ ∀ x ∈ cs.getLast?, isBlank x = false

/-- Nothing is trimmed in front of a character that is not blank. -/
theorem trimStart_of_head {cs : List Char} (h : ∀ x ∈ cs.head?, isBlank x = false) :
    trimStart cs = cs := by
  cases cs with
  | nil => rfl
  | cons x cs => simp [trimStart, h x rfl]

/-- Nor behind one. -/
theorem trimEnd_of_getLast {cs : List Char} (h : ∀ x ∈ cs.getLast?, isBlank x = false) :
    trimEnd cs = cs := by
  have hr : trimStart cs.reverse = cs.reverse :=
    trimStart_of_head (by rwa [List.head?_reverse])
  rw [trimEnd, show cs.reverse.dropWhile isBlank = cs.reverse from hr, List.reverse_reverse]

/-- What is trimmed in front does not begin with a blank. -/
theorem head_trimStart (cs : List Char) : ∀ x ∈ (trimStart cs).head?, isBlank x = false := by
  intro x hx
  have h := List.head?_dropWhile_not isBlank cs
  rw [show cs.dropWhile isBlank = trimStart cs from rfl, Option.mem_def.1 hx] at h
  exact h

/-- What is trimmed behind does not end with one. -/
theorem getLast_trimEnd (cs : List Char) : ∀ x ∈ (trimEnd cs).getLast?, isBlank x = false := by
  intro x hx
  rw [trimEnd, List.getLast?_reverse] at hx
  exact head_trimStart cs.reverse x hx

/-- What is trimmed already stays. -/
theorem Trimmed.trimChars_eq {cs : List Char} (h : Trimmed cs) : trimChars cs = cs := by
  rw [trimChars, trimStart_of_head h.1, trimEnd_of_getLast h.2]

/-- **Trimming trims.** -/
theorem trimmed_trimChars (cs : List Char) : Trimmed (trimChars cs) := by
  refine ⟨fun x hx => ?_, getLast_trimEnd _⟩
  -- what is kept at the end is a front part, so its head is the head of `trimStart cs`
  have hp : trimChars cs <+: trimStart cs :=
    ⟨blanksAtEnd (trimStart cs), trimEnd_append_blanksAtEnd _⟩
  obtain ⟨rest, hrest⟩ := hp
  refine head_trimStart cs x ?_
  rw [← hrest, Option.mem_def, List.head?_append, Option.mem_def.1 hx]
  rfl

/-- To be trimmed is to be left alone by trimming. -/
theorem trimmed_iff {cs : List Char} : Trimmed cs ↔ trimChars cs = cs :=
  ⟨Trimmed.trimChars_eq, fun h => h ▸ trimmed_trimChars cs⟩

/-- **Nothing but blanks is lost.**  A text is blanks, what `trimChars` keeps, and blanks. -/
theorem exists_trimChars (cs : List Char) :
    ∃ a b : List Char, (∀ x ∈ a, isBlank x = true) ∧ (∀ x ∈ b, isBlank x = true) ∧
      cs = a ++ (trimChars cs ++ b) := by
  refine ⟨cs.takeWhile isBlank, blanksAtEnd (trimStart cs), fun x hx => ?_, fun x hx => ?_, ?_⟩
  · exact List.all_eq_true.1 List.all_takeWhile x hx
  · rw [blanksAtEnd, List.mem_reverse] at hx
    exact List.all_eq_true.1 List.all_takeWhile x hx
  · rw [trimChars, trimEnd_append_blanksAtEnd]
    exact List.takeWhile_append_dropWhile.symm

section Blanks

variable {bs : List Char} (blank : ∀ b ∈ bs, isBlank b = true)

include blank

/-- Blanks behind a text are reached by `trimStart` only if there is nothing else. -/
theorem trimStart_append_blanks (cs : List Char) :
    trimStart (cs ++ bs) = [] ∧ trimStart cs = [] ∨
      trimStart (cs ++ bs) = trimStart cs ++ bs ∧ trimStart cs ≠ [] := by
  induction cs with
  | nil =>
    have hall : (bs ++ []).dropWhile isBlank = [] := List.dropWhile_append_of_pos blank
    rw [List.append_nil] at hall
    exact .inl ⟨hall, rfl⟩
  | cons c cs ih =>
    by_cases hc : isBlank c = true
    · simpa [trimStart, hc] using ih
    · exact .inr (by simp [trimStart, hc])

/-- Blanks behind are trimmed. -/
theorem trimEnd_append_blanks (cs : List Char) : trimEnd (cs ++ bs) = trimEnd cs := by
  have hr : ∀ b ∈ bs.reverse, isBlank b = true := fun b hb => blank b (List.mem_reverse.1 hb)
  rw [trimEnd, trimEnd, List.reverse_append, List.dropWhile_append_of_pos hr]

/-- Blanks behind make no difference. -/
theorem trimChars_append_blanks (cs : List Char) : trimChars (cs ++ bs) = trimChars cs := by
  rcases trimStart_append_blanks blank cs with ⟨h, h'⟩ | ⟨h, -⟩
  · rw [trimChars, trimChars, h, h']
  · rw [trimChars, trimChars, h, trimEnd_append_blanks blank]

/-- Blanks in front make no difference. -/
theorem trimChars_blanks_append (cs : List Char) : trimChars (bs ++ cs) = trimChars cs := by
  rw [trimChars, trimStart, List.dropWhile_append_of_pos blank]
  rfl

/-- **Blanks behind the separators are lost**: the pieces are the same once they are trimmed. -/
theorem map_trimChars_splitChars_joinChars {c : Char} (hc : c ∉ bs) {ps : List (List Char)}
    (some_piece : ps ≠ []) (free : ∀ p ∈ ps, c ∉ p) :
    (splitChars [c] (joinChars (c :: bs) ps)).map trimChars = ps.map trimChars := by
  induction ps with
  | nil => exact absurd rfl some_piece
  | cons p ps ih =>
    have hp : c ∉ p := free p List.mem_cons_self
    cases ps with
    | nil => rw [joinChars, splitChars_of_not_mem hp]
    | cons q qs =>
      have hrest := ih (by simp) fun x hx => free x (List.mem_cons_of_mem _ hx)
      rw [joinChars_cons_cons, List.append_assoc, List.cons_append, splitChars_append_cons hp,
        splitChars_append_of_not_mem hc, List.map_cons, List.map_cons, ← hrest]
      -- the blanks are in front of the piece that follows
      cases splitChars [c] (joinChars (c :: bs) (q :: qs)) with
      | nil => rfl
      | cons x xs =>
        rw [List.modifyHead_cons, List.map_cons, List.map_cons, trimChars_blanks_append blank]

end Blanks

theorem trimChars_trimStart (cs : List Char) : trimChars (trimStart cs) = trimChars cs := by
  rw [trimChars, trimChars, trimStart_of_head (head_trimStart cs)]

/-- Trimming adds nothing. -/
theorem mem_of_mem_trimChars {cs : List Char} {x : Char} (h : x ∈ trimChars cs) : x ∈ cs := by
  obtain ⟨a, b, -, -, hcs⟩ := exists_trimChars cs
  rw [hcs, List.mem_append, List.mem_append]
  exact .inr (.inl h)

/-- Trimmed texts may be put together, with anything between them. -/
theorem Trimmed.append {a b : List Char} (ha : Trimmed a) (hb : Trimmed b) (ha' : a ≠ [])
    (hb' : b ≠ []) (d : List Char) : Trimmed (a ++ d ++ b) := by
  constructor
  · obtain ⟨x, a, rfl⟩ := List.exists_cons_of_ne_nil ha'
    exact ha.1
  · have hlast : (a ++ d ++ b).getLast? = b.getLast? := by
      rw [List.getLast?_append, List.getLast?_eq_some_getLast hb']
      rfl
    rw [hlast]
    exact hb.2

/-- A piece that is not empty is not lost. -/
theorem joinChars_cons_ne_nil (d : List Char) {p : List Char} (h : p ≠ []) (ps : List (List Char)) :
    joinChars d (p :: ps) ≠ [] := by
  cases ps with
  | nil => exact h
  | cons q qs => simp [joinChars_cons_cons, h]

/-- Joined pieces have the ends of the first and of the last piece. -/
theorem trimmed_joinChars (d : List Char) {ps : List (List Char)}
    (h : ∀ p ∈ ps, p ≠ [] ∧ Trimmed p) : Trimmed (joinChars d ps) := by
  induction ps with
  | nil => exact trimmed_iff.2 rfl
  | cons p ps ih =>
    obtain ⟨hne, hp⟩ := h p List.mem_cons_self
    have hps := ih fun q hq => h q (List.mem_cons_of_mem _ hq)
    cases ps with
    | nil => exact hp
    | cons q qs =>
      have hq : q ≠ [] := (h q (by simp)).1
      rw [joinChars_cons_cons]
      exact hp.append hps hne (joinChars_cons_ne_nil d hq qs) d

/-- `Trimmed.trimChars_eq` on text. -/
theorem Trimmed.trim_eq {s : String} (h : Trimmed s.toList) : trim s = s := by
  rw [trim, h.trimChars_eq, String.ofList_toList]

/-- The same for texts and their characters. -/
theorem trimmed_toList {s : String} (h : trim s = s) : Trimmed s.toList := by
  have hs : (trim s).toList = s.toList := congrArg String.toList h
  rw [trim, String.toList_ofList] at hs
  exact trimmed_iff.2 hs

/-- One character that is not blank is enough. -/
theorem isBlankText_eq_false {s : String} {c : Char} (hc : c ∈ s.toList) (h : isBlank c = false) :
    isBlankText s = false := by
  rw [isBlankText, List.all_eq_false]
  exact ⟨c, hc, by rw [h]; exact Bool.false_ne_true⟩

end Tabletop.Text
