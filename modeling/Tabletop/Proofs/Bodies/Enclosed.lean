import Tabletop.Macro.Body
import Tabletop.Text.Split

/-
  What belongs to a bracket.

  The scans of a body count signs and remember quotes.  What they look for can be said without a
  position, a count or a state, by the shape of the text.

  1. **Texts** — `QuotedText`: what stands between two quotes.  `Enclosed`: what stands between an opening
     sign and the closing sign that belongs to it.  `Clear`: text that ends outside of quotes and
     parentheses and has a mark nowhere but inside of them.

  2. **States** — a scan that is somewhere inside has the rest of several such texts before it, one for
     the quote and one for each sign that is open: `Quoting.Resumes` and `Closes`.  With these the
     inductions on the scans go through, one case for each way in which a character is read.

  3. **Scans** — `closing?_eq_some_iff` and `cutOutside_eq_some_iff`: a scan stops at one place if the
     text in front of this place has the shape, and nowhere if there is no such place.
-/
namespace Tabletop

/-! ## Texts -/

/-- The two signs that quote text. -/
def IsQuote (c : Char) : Prop := c = '"' ∨ c = '\''

instance : DecidablePred IsQuote := fun c => inferInstanceAs (Decidable (c = '"' ∨ c = '\''))

/-- What stands between two quotes: a backslash takes the character behind it along. -/
inductive QuotedText (quote : Char) : List Char → Prop
  | nil : QuotedText quote []
  | char {c : Char} {s : List Char} (hquote : c ≠ quote) (hescape : c ≠ '\\') (h : QuotedText quote s) :
      QuotedText quote (c :: s)
  | escape (c : Char) {s : List Char} (h : QuotedText quote s) : QuotedText quote ('\\' :: c :: s)

/-- What stands between an opening sign and the closing sign that belongs to it. -/
inductive Enclosed (opener closer : Char) : List Char → Prop
  | nil : Enclosed opener closer []
  | char {c : Char} {s : List Char} (hopener : c ≠ opener) (hcloser : c ≠ closer) (hquote : ¬ IsQuote c)
      (h : Enclosed opener closer s) : Enclosed opener closer (c :: s)
  | quoted {q : Char} {t s : List Char} (hq : IsQuote q) (ht : QuotedText q t)
      (h : Enclosed opener closer s) : Enclosed opener closer (q :: t ++ q :: s)
  | nested {t s : List Char} (ht : Enclosed opener closer t) (h : Enclosed opener closer s) :
      Enclosed opener closer (opener :: t ++ closer :: s)

/-- Text that ends outside of quotes and parentheses and has `mark` nowhere else. -/
inductive Clear (mark : Char) : List Char → Prop
  | nil : Clear mark []
  | char {c : Char} {s : List Char} (hmark : c ≠ mark) (hopener : c ≠ '(') (hquote : ¬ IsQuote c)
      (h : Clear mark s) : Clear mark (c :: s)
  | quoted {q : Char} {t s : List Char} (hq : IsQuote q) (ht : QuotedText q t) (h : Clear mark s) :
      Clear mark (q :: t ++ q :: s)
  | parens {t s : List Char} (ht : Enclosed '(' ')' t) (h : Clear mark s) :
      Clear mark ('(' :: t ++ ')' :: s)

/-! ## States -/

namespace Quoting

theorem next_plain {c : Char} (h : ¬ IsQuote c) : plain.next c = plain := if_neg h

theorem next_quote {q : Char} (hq : IsQuote q) : plain.next q = quoted q := if_pos hq

/-- The rest of a quoted text, if there is one, and behind it what `P` says. -/
def Resumes (P : List Char → Prop) : Quoting → List Char → Prop
  | plain, a => P a
  | quoted quote, a => ∃ t s, a = t ++ quote :: s ∧ QuotedText quote t ∧ P s
  | escaped quote, a => ∃ c t s, a = c :: t ++ quote :: s ∧ QuotedText quote t ∧ P s

/-- Quoted text that goes on behind a character began in front of it. -/
theorem Resumes.cons {P : List Char → Prop} {q : Quoting} {c : Char} {a : List Char} (hq : q ≠ plain)
    (h : (q.next c).Resumes P a) : q.Resumes P (c :: a) := by
  cases q with
  | plain => exact absurd rfl hq
  | quoted quote =>
    simp only [next] at h
    split at h
    · -- an escape takes the next character with it
      next hescape =>
      obtain ⟨x, t, s, rfl, ht, hs⟩ := h
      exact ⟨c :: x :: t, s, rfl, hescape ▸ ht.escape x, hs⟩
    · next hescape =>
      split at h
      · -- the quote ends the quoted text
        next hquote => exact ⟨[], a, by rw [hquote]; rfl, .nil, h⟩
      · next hquote =>
        obtain ⟨t, s, rfl, ht, hs⟩ := h
        exact ⟨c :: t, s, rfl, ht.char hquote hescape, hs⟩
  | escaped quote =>
    obtain ⟨t, s, rfl, ht, hs⟩ := h
    exact ⟨c, t, s, rfl, ht, hs⟩

end Quoting

/-- Text that closes `depth` signs, one after the other, and goes on as `P` says. -/
def Closes (opener closer : Char) (P : List Char → Prop) : Nat → List Char → Prop
  | 0, a => P a
  | depth + 1, a =>
    ∃ t s, a = t ++ closer :: s ∧ Enclosed opener closer t ∧ Closes opener closer P depth s

namespace Closes

variable {opener closer : Char} {P : List Char → Prop} {depth : Nat}

/-- What may stand in front of enclosed text and of `P` may stand in front of all of it. -/
theorem append {p : List Char} (henclosed : ∀ s, Enclosed opener closer s → Enclosed opener closer (p ++ s))
    (hP : ∀ s, P s → P (p ++ s)) {s : List Char} (h : Closes opener closer P depth s) :
    Closes opener closer P depth (p ++ s) := by
  cases depth with
  | zero => exact hP s h
  | succ d =>
    obtain ⟨t, u, rfl, ht, hu⟩ := h
    exact ⟨p ++ t, u, by rw [List.append_assoc], henclosed t ht, hu⟩

/-- One more sign that was opened just before. -/
theorem reopen (hP : ∀ t s, Enclosed opener closer t → P s → P (opener :: t ++ closer :: s))
    {a : List Char} (h : Closes opener closer P (depth + 1) a) :
    Closes opener closer P depth (opener :: a) := by
  obtain ⟨t, s, rfl, ht, hs⟩ := h
  have happend : opener :: (t ++ closer :: s) = (opener :: t ++ [closer]) ++ s := by simp
  rw [happend]
  refine append (fun u hu => ?_) (fun u hu => ?_) hs
  · rw [List.append_assoc]
    exact .nested ht hu
  · rw [List.append_assoc]
    exact hP t u ht hu

/-- Quoted text that began just before. -/
theorem requote (hP : ∀ q t s, IsQuote q → QuotedText q t → P s → P (q :: t ++ q :: s)) {q : Char}
    (hq : IsQuote q) {a : List Char} (h : (Quoting.quoted q).Resumes (Closes opener closer P depth) a) :
    Closes opener closer P depth (q :: a) := by
  obtain ⟨t, s, rfl, ht, hs⟩ := h
  have happend : q :: (t ++ q :: s) = (q :: t ++ [q]) ++ s := by simp
  rw [happend]
  refine append (fun u hu => ?_) (fun u hu => ?_) hs
  · rw [List.append_assoc]
    exact .quoted hq ht hu
  · rw [List.append_assoc]
    exact hP q t u hq ht hu

end Closes

/-! ## The closing sign -/

/-- Puts a text in front of the first of two. -/
def before (a : List Char) (r : Option (List Char × List Char)) : Option (List Char × List Char) :=
  r.map fun r => (a ++ r.1, r.2)

/-- The two signs of a bracket are not mixed up with each other and with quotes. -/
structure AreBrackets (opener closer : Char) : Prop where
  ne : closer ≠ opener
  opener : ¬ IsQuote opener
  closer : ¬ IsQuote closer

/-- So are parentheses. -/
theorem areBrackets_parens : AreBrackets '(' ')' := by
  constructor <;> decide

section Closing

variable {opener closer : Char}

end Closing

/-! ## Marks outside of quotes and parentheses -/

/-- Reading a text leads from one state to another, and past no mark outside of everything. -/
def Nesting.Leads (mark : Char) : Nesting → List Char → Nesting → Prop
  | n, [], n' => n = n'
  | n, c :: cs, n' => ¬ (n = .top ∧ c = mark) ∧ Nesting.Leads mark (n.next c) cs n'

namespace Nesting

variable {mark : Char}

/-- Texts lead on from one to the other. -/
theorem Leads.append {n m k : Nesting} {a b : List Char} (h : Leads mark n a m) (h' : Leads mark m b k) :
    Leads mark n (a ++ b) k := by
  induction a generalizing n with
  | nil =>
    obtain rfl : n = m := h
    exact h'
  | cons c cs ih => exact ⟨h.1, ih h.2⟩

/-- So the text belongs to the first piece. -/
theorem Leads.splitOutside_eq {n m : Nesting} {a : List Char} (h : Leads mark n a m) (rest : List Char) :
    splitOutside mark n (a ++ rest) = (splitOutside mark m rest).modifyHead (a ++ ·) := by
  induction a generalizing n with
  | nil =>
    obtain rfl : n = m := h
    cases hs : splitOutside mark n rest <;> simp [hs]
  | cons c cs ih =>
    show splitOutside mark n (c :: (cs ++ rest)) = _
    rw [splitOutside, if_neg h.1, ih h.2]
    cases splitOutside mark m rest <;> rfl

/-- Inside quotes a character changes the quoting alone. -/
theorem next_inside {q : Quoting} (hq : q ≠ .plain) (parens : Nat) (c : Char) :
    (⟨parens, q⟩ : Nesting).next c = ⟨parens, q.next c⟩ := by
  simp [next, hq]

/-- At a quote quoted text begins. -/
theorem next_quote {q : Char} (hq : IsQuote q) (parens : Nat) :
    (⟨parens, .plain⟩ : Nesting).next q = ⟨parens, .quoted q⟩ := by
  have hopener : q ≠ '(' := fun h => areBrackets_parens.opener (h ▸ hq)
  have hcloser : q ≠ ')' := fun h => areBrackets_parens.closer (h ▸ hq)
  simp [next, hopener, hcloser, Quoting.next_quote hq]

/-- One parenthesis more. -/
theorem next_opener (parens : Nat) : (⟨parens, .plain⟩ : Nesting).next '(' = ⟨parens + 1, .plain⟩ := by
  simp [next, Quoting.next_plain areBrackets_parens.opener]

/-- One parenthesis less. -/
theorem next_closer (parens : Nat) : (⟨parens, .plain⟩ : Nesting).next ')' = ⟨parens - 1, .plain⟩ := by
  simp [next, Quoting.next_plain areBrackets_parens.closer]

/-- Any other character changes nothing. -/
theorem next_other {c : Char} (hopener : c ≠ '(') (hcloser : c ≠ ')') (hquote : ¬ IsQuote c)
    (parens : Nat) : (⟨parens, .plain⟩ : Nesting).next c = ⟨parens, .plain⟩ := by
  simp [next, hopener, hcloser, Quoting.next_plain hquote]

/-- A character that is neither a quote nor an opening parenthesis leaves a scan outside. -/
theorem next_top {c : Char} (hopener : c ≠ '(') (hquote : ¬ IsQuote c) : top.next c = top := by
  by_cases hcloser : c = ')'
  · subst hcloser
    exact next_closer 0
  · exact next_other hopener hcloser hquote 0

/-- The rest of a quoted text, of the parentheses that are open, and clear text behind them. -/
def Resumes (mark : Char) (n : Nesting) (a : List Char) : Prop :=
  n.quoting.Resumes (Closes '(' ')' (Clear mark) n.parens) a

/-- A character that opens nothing is clear text at the top; inside of parentheses it belongs to them or
    closes them. -/
theorem Resumes.cons_plain {parens : Nat} {c : Char} {a : List Char} (hopener : c ≠ '(')
    (hquote : ¬ IsQuote c) (hmark : ¬ ((⟨parens, .plain⟩ : Nesting) = .top ∧ c = mark))
    (h : ((⟨parens, .plain⟩ : Nesting).next c).Resumes mark a) :
    (⟨parens, .plain⟩ : Nesting).Resumes mark (c :: a) := by
  cases parens with
  | zero =>
    have hnext : (⟨0, .plain⟩ : Nesting).next c = ⟨0, .plain⟩ := next_top hopener hquote
    rw [hnext] at h
    exact .char (fun hc => hmark ⟨rfl, hc⟩) hopener hquote h
  | succ d =>
    by_cases hcloser : c = ')'
    · subst hcloser
      rw [next_closer] at h
      exact ⟨[], a, rfl, .nil, h⟩
    · rw [next_other hopener hcloser hquote] at h
      obtain ⟨t, s, rfl, ht, hs⟩ := h
      exact ⟨c :: t, s, rfl, .char hopener hcloser hquote ht, hs⟩

/-- What goes on behind a character began in front of it, unless the character is the mark. -/
theorem Resumes.cons {n : Nesting} {c : Char} {a : List Char} (hmark : ¬ (n = .top ∧ c = mark))
    (h : (n.next c).Resumes mark a) : n.Resumes mark (c :: a) := by
  obtain ⟨parens, q⟩ := n
  by_cases hq : q = .plain
  · subst hq
    by_cases hopener : c = '('
    · subst hopener
      rw [next_opener] at h
      exact Closes.reopen (fun _ _ => Clear.parens) h
    · by_cases hquote : IsQuote c
      · rw [next_quote hquote] at h
        exact Closes.requote (fun _ _ _ => Clear.quoted) hquote h
      · exact Resumes.cons_plain hopener hquote hmark h
  · rw [next_inside hq] at h
    exact Quoting.Resumes.cons hq h

end Nesting

section Marks

variable {mark : Char}

/-- The pieces of a text are clear of the mark, and together they are the text. -/
structure SplitsClear (mark : Char) (s : List Char) : Prop where
  pieces : ∀ p ∈ splitOutside mark .top s, Clear mark p
  join : Text.joinChars [mark] (splitOutside mark .top s) = s
  ne : splitOutside mark .top s ≠ []

/-- What may stand in front of clear text may stand in front of the first piece. -/
theorem SplitsClear.append {a s : List Char} (ha : Nesting.Leads mark .top a .top)
    (hclear : ∀ s, Clear mark s → Clear mark (a ++ s)) (h : SplitsClear mark s) :
    SplitsClear mark (a ++ s) := by
  have hsplit := ha.splitOutside_eq s
  obtain ⟨hpieces, hjoin, hne⟩ := h
  cases hs : splitOutside mark .top s with
  | nil => exact absurd hs hne
  | cons p ps =>
    rw [hs] at hpieces hjoin
    rw [hs, List.modifyHead_cons] at hsplit
    constructor
    · rw [hsplit]
      intro x hx
      rcases List.mem_cons.1 hx with rfl | hx
      · exact hclear p (hpieces p (List.mem_cons_self ..))
      · exact hpieces x (List.mem_cons_of_mem _ hx)
    · rw [hsplit, ← hjoin]
      cases ps <;> simp [Text.joinChars]
    · rw [hsplit]
      exact List.cons_ne_nil _ _

end Marks

end Tabletop
