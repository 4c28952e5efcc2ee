import Tabletop.Expr.Parse
import Tabletop.Text.Split

/-
  Expressions written as text.

  1. **Tokens** — each kind of token has one spelling: a number with all its places, a text between
     double quotes, a name or dice as they are.

  2. **Parentheses** — an operand stands in parentheses only if its operator would be taken apart
     without them, or if it is an assignment.  Operators group to the left, so a right operand needs
     them on its own level too.

  3. **What can be written** — numbers without a sign, texts, dice, names, and whatever is built from
     these (`Expr.Grammatical`).  A negative number is no literal: its sign is an operator.
-/
namespace Tabletop

/-! ## Tokens -/

/-- How a sign is written. -/
def OperatorSign.chars : OperatorSign → List Char
  | .plus => ['+']
  | .minus => ['-']
  | .star => ['*']
  | .slash => ['/']
  | .not => ['!']
  | .eq => ['=', '=']
  | .ne => ['!', '=']
  | .lt => ['<']
  | .le => ['<', '=']
  | .gt => ['>']
  | .ge => ['>', '=']
  | .and => ['&', '&']
  | .or => ['|', '|']
  | .assign => ['=']

namespace Lexeme

/-- How a character is written between double quotes. -/
def quotedChar (c : Char) : List Char := if c = '\\' ∨ c = '"' then ['\\', c] else [c]

/-- How a token is written. -/
def chars : Lexeme → List Char
  | .number d => d.renderChars
  | .dice s => s.toList
  | .quoted s => '"' :: s.toList.flatMap quotedChar ++ ['"']
  | .name s => s.toList
  | .leftParen => ['(']
  | .rightParen => [')']
  | .comma => [',']
  | .semicolon => [';']
  | .sign o => o.chars

/-- A word that starts with a letter or `_` and has not the shape of dice. -/
def IsName (x : String) : Prop :=
  x.toList.head?.any (fun c => startsWord c && !c.isDigit) = true ∧
    x.toList.all continuesWord = true ∧ isDiceWord x.toList = false

instance (x : String) : Decidable (IsName x) := inferInstanceAs (Decidable (_ ∧ _ ∧ _))

/-- A line of tokens, with spaces between them. -/
def line (ts : List Lexeme) : List Char := Text.joinChars [' '] (ts.map chars)

/-- Lines of tokens, with semicolons between them. -/
def write (lines : List (List Lexeme)) : String :=
  String.ofList (Text.joinChars [';'] (lines.map line))

end Lexeme

/-! ## Parentheses -/

/-- The sign of an operator with one operand. -/
def UnaryOp.sign : UnaryOp → OperatorSign
  | .negate => .minus
  | .not => .not

namespace Expr

/-- Where an operand on `level` or tighter is expected, this expression has to stand in parentheses. -/
def NeedsParens (level : Nat) : Expr → Prop
  | .assign _ _ => True
  | .binary op _ _ => op.level < level
  | _ => False

instance (level : Nat) : (e : Expr) → Decidable (NeedsParens level e)
  | .assign _ _ => .isTrue trivial
  | .binary op _ _ => inferInstanceAs (Decidable (op.level < level))
  | .literal _ | .dice _ | .variable _ | .call _ _ | .unary _ _ => .isFalse not_false

/-- Tokens in parentheses, if there is need of them. -/
def enclose (need : Prop) [Decidable need] (ts : List Lexeme) : List Lexeme :=
  if need then .leftParen :: ts ++ [.rightParen] else ts

mutual

/-- The tokens that an expression is written with. -/
def tokens : Expr → List Lexeme
  | .literal (.number d) => [.number d]
  | .literal v => [.quoted v.display]
  | .dice s => [.dice s]
  | .variable x => [.name x]
  | .call f args => .name f :: .leftParen :: argumentTokens args ++ [.rightParen]
  | .unary op x => .sign op.sign :: enclose (x.NeedsParens BinaryOp.levels) (tokens x)
  | .binary op l r =>
    enclose (l.NeedsParens op.level) (tokens l) ++
      .sign op.sign :: enclose (r.NeedsParens (op.level + 1)) (tokens r)
  | .assign x e => .name x :: .sign .assign :: tokens e

/-- The tokens of arguments, with commas between them. -/
def argumentTokens : List Expr → List Lexeme
  | [] => []
  | [e] => tokens e
  | e :: es => tokens e ++ .comma :: argumentTokens es

end

/-- The tokens of an operand where operators on `level` or tighter are read. -/
def operandTokens (level : Nat) (e : Expr) : List Lexeme := enclose (e.NeedsParens level) e.tokens

/-- Statements with semicolons between them. -/
def print (es : List Expr) : String := Lexeme.write (es.map tokens)

/-! ## What can be written -/

/-- The expressions that there is a text for. -/
inductive Grammatical : Expr → Prop where
  | number {d : Decimal} (fits : d.Fits) (sign : 0 ≤ d.coefficient) : Grammatical (.literal (.number d))
  | text (s : String) : Grammatical (.literal (.text s))
  | dice {s : String} (shape : Lexeme.isDiceWord s.toList = true) : Grammatical (.dice s)
  | variable {x : String} (name : Lexeme.IsName x) : Grammatical (.variable x)
  | call {f : String} {args : List Expr} (name : Lexeme.IsName f)
      (arguments : ∀ e ∈ args, Grammatical e) : Grammatical (.call f args)
  | unary (op : UnaryOp) {x : Expr} (operand : Grammatical x) : Grammatical (.unary op x)
  | binary (op : BinaryOp) {l r : Expr} (left : Grammatical l) (right : Grammatical r) :
      Grammatical (.binary op l r)
  | assign {x : String} {e : Expr} (name : Lexeme.IsName x) (value : Grammatical e) :
      Grammatical (.assign x e)

/-! ## Small laws -/

/-- An operand that needs no parentheses is printed without. -/
theorem operandTokens_of_not {level : Nat} {e : Expr} (h : ¬e.NeedsParens level) :
    operandTokens level e = e.tokens := if_neg h

/-- One that needs them is printed with them. -/
theorem operandTokens_of_needsParens {level : Nat} {e : Expr} (h : e.NeedsParens level) :
    operandTokens level e = .leftParen :: (e.tokens ++ [.rightParen]) := if_pos h

/-- Only whether they are needed depends on the level. -/
theorem operandTokens_congr {m n : Nat} {e : Expr} (h : e.NeedsParens m ↔ e.NeedsParens n) :
    operandTokens m e = operandTokens n e := by
  by_cases hn : e.NeedsParens n
  · rw [operandTokens_of_needsParens hn, operandTokens_of_needsParens (h.2 hn)]
  · rw [operandTokens_of_not hn, operandTokens_of_not fun hm => hn (h.1 hm)]

/-- What needs parentheses needs them all the more where the binding is tighter. -/
theorem NeedsParens.mono {m n : Nat} (hle : m ≤ n) {e : Expr} (h : e.NeedsParens m) :
    e.NeedsParens n := by
  cases e with
  | assign x v => trivial
  | binary op l r => exact Nat.lt_of_lt_of_le h hle
  | literal | dice | «variable» | call | unary => exact h.elim

/-- No expression starts with a token that ends another one. -/
theorem exists_cons_tokens :
    (e : Expr) → ∃ t ts, e.tokens = t :: ts ∧ t ≠ .rightParen ∧ t ≠ .semicolon
  | .literal (.number _) | .literal (.text _) | .literal (.tree _) | .dice _ | .variable _ | .call _ _
  | .unary _ _ | .assign _ _ => ⟨_, _, rfl, nofun, nofun⟩
  | .binary op l r => by
    show ∃ t ts, operandTokens op.level l ++ .sign op.sign :: operandTokens (op.level + 1) r = t :: ts ∧ _
    by_cases hl : l.NeedsParens op.level
    · rw [operandTokens_of_needsParens hl]
      exact ⟨_, _, rfl, nofun, nofun⟩
    · obtain ⟨t, ts, hts, hright, hsemicolon⟩ := exists_cons_tokens l
      rw [operandTokens_of_not hl, hts]
      exact ⟨t, _, rfl, hright, hsemicolon⟩

/-- Nothing is printed as nothing. -/
theorem operandTokens_pos (level : Nat) (e : Expr) : 0 < (operandTokens level e).length := by
  by_cases h : e.NeedsParens level
  · rw [operandTokens_of_needsParens h]
    exact Nat.succ_pos _
  · obtain ⟨t, ts, hts, -⟩ := exists_cons_tokens e
    rw [operandTokens_of_not h, hts]
    exact Nat.succ_pos _

/-- Parentheses are all that is added. -/
theorem mem_enclose {need : Prop} [Decidable need] {ts : List Lexeme} {t : Lexeme} (h : t ∈ enclose need ts) :
    t = .leftParen ∨ t = .rightParen ∨ t ∈ ts := by
  unfold enclose at h
  split at h
  · rcases List.mem_append.1 h with h | h
    · rcases List.mem_cons.1 h with h | h
      · exact .inl h
      · exact .inr (.inr h)
    · exact .inr (.inl (List.mem_singleton.1 h))
  · exact .inr (.inr h)

/-- Between arguments there are commas, and nothing else. -/
theorem mem_argumentTokens {args : List Expr} {t : Lexeme} (h : t ∈ argumentTokens args) :
    t = .comma ∨ ∃ e ∈ args, t ∈ e.tokens := by
  induction args with
  | nil => exact absurd h List.not_mem_nil
  | cons e es ih =>
    cases es with
    | nil => exact .inr ⟨e, List.mem_cons_self, h⟩
    | cons e' es =>
      have htokens : argumentTokens (e :: e' :: es) = e.tokens ++ .comma :: argumentTokens (e' :: es) := rfl
      rw [htokens, List.mem_append, List.mem_cons] at h
      rcases h with h | h | h
      · exact .inr ⟨e, List.mem_cons_self, h⟩
      · exact .inl h
      · rcases ih h with h | ⟨a, ha, h⟩
        · exact .inl h
        · exact .inr ⟨a, List.mem_cons_of_mem e ha, h⟩

end Expr

end Tabletop
