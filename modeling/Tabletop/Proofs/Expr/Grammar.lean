import Tabletop.Proofs.Expr.Lexemes

/-
  The parser reads back what is written.

  The readers of the parser call each other from the loosest level down to an operand, and each takes as
  much as it can.  So a written expression is read back in front of whatever cannot go on with it.

  1. **What stands behind** — a closing parenthesis, a comma, a semicolon, nothing, or an operator that
     binds less tightly than what is read (`Behind`).

  2. **Levels** — an expression that is read on one level is read on every looser one on which it is
     written the same way (`readsLevel_of_le`), for no operator of these levels stands behind it.

  3. **Chains** — operators of one level group to the left, so the left operand of a chain is read before
     the reader knows how the chain goes on.  `ReadsChain` therefore speaks of an expression together
     with all that follows on its level; this is what carries the induction (`readsChain_binary`).

  4. **Statements** — from `Reads`, which holds of every grammatical expression, to whole texts
     (`parse_print`).
-/
namespace Tabletop.Expr

open BinaryOp (levels)

/-! ## What stands behind -/

/-- Tokens that do not go on with an expression whose operators are on `level` or tighter. -/
inductive Behind (level : Nat) : List Lexeme → Prop where
  | nil : Behind level []
  | rightParen (ts : List Lexeme) : Behind level (.rightParen :: ts)
  | comma (ts : List Lexeme) : Behind level (.comma :: ts)
  | semicolon (ts : List Lexeme) : Behind level (.semicolon :: ts)
  | sign {op : BinaryOp} (looser : op.level < level) (ts : List Lexeme) :
      Behind level (.sign op.sign :: ts)

/-- What may stand behind a level may stand behind those below it. -/
theorem Behind.mono {m n : Nat} (hle : m ≤ n) {ts : List Lexeme} (h : Behind m ts) : Behind n ts := by
  cases h with
  | nil => exact .nil
  | rightParen ts => exact .rightParen ts
  | comma ts => exact .comma ts
  | semicolon ts => exact .semicolon ts
  | sign looser ts => exact .sign (Nat.lt_of_lt_of_le looser hle) ts

/-- An operator is found at its level. -/
theorem operatorAt?_sign (op : BinaryOp) (ts : List Lexeme) :
    operatorAt? op.level (.sign op.sign :: ts) = some (op, ts) := by
  rw [operatorAt?, BinaryOp.ofSign?_sign]
  dsimp only
  rw [if_pos rfl]

/-- Where a level ends, no operator of it stands. -/
theorem Behind.operatorAt?_eq {level : Nat} {ts : List Lexeme} (h : Behind level ts) :
    operatorAt? level ts = none := by
  cases h with
  | nil | rightParen | comma | semicolon => rfl
  | sign looser ts =>
    rw [operatorAt?, BinaryOp.ofSign?_sign]
    dsimp only
    rw [if_neg (Nat.ne_of_lt looser)]

/-- An expression that is no assignment does not look like one. -/
theorem tokens_not_assignment {rest : List Lexeme} (x : String) (ts : List Lexeme) :
    (e : Expr) → ¬e.NeedsParens 0 → Behind levels rest → e.tokens ++ rest ≠ .name x :: .sign .assign :: ts
  | .literal (.number _), _, _ | .literal (.text _), _, _ | .literal (.tree _), _, _ | .dice _, _, _
  | .call _ _, _, _ | .unary _ _, _, _ => nofun
  | .assign _ _, h, _ => absurd trivial h
  | .variable y, _, hrest => by
    intro heq
    -- no operator has the sign of an assignment
    have htail : rest = .sign .assign :: ts := (List.cons.inj heq).2
    cases hrest with
    | nil | rightParen | comma | semicolon => cases htail
    | @sign op _ us => cases op <;> cases htail
  | .binary op l r, _, _ => by
    show operandTokens op.level l ++ .sign op.sign :: operandTokens (op.level + 1) r ++ rest ≠ _
    by_cases hl : l.NeedsParens op.level
    · rw [operandTokens_of_needsParens hl]
      exact nofun
    · rw [operandTokens_of_not hl, List.append_assoc]
      exact tokens_not_assignment x ts l (fun h => hl (h.mono (Nat.zero_le _)))
        (.sign op.level_lt_levels _)

/-! ## Levels -/

-- Each token pays for twelve calls of readers, and a level has spent one call for every level above it.

/-- The expression is read back where any expression may stand. -/
def ReadsExpr (e : Expr) : Prop :=
  ∀ ⦃fuel : Nat⦄ ⦃rest : List Lexeme⦄, 12 * e.tokens.length + 2 ≤ fuel → Behind 0 rest →
    readExpr fuel (e.tokens ++ rest) = .ok (e, rest)

/-- The expression is read back as an operand of operators on `level` or tighter. -/
def ReadsLevel (level : Nat) (e : Expr) : Prop :=
  ∀ ⦃fuel : Nat⦄ ⦃rest : List Lexeme⦄, 12 * (operandTokens level e).length + 1 ≤ fuel + level →
    Behind level rest → readLevel fuel level (operandTokens level e ++ rest) = .ok (e, rest)

/-- Whatever comes of going on with a chain behind the expression, comes of reading the chain from the
    expression on. -/
def ReadsChain (level : Nat) (e : Expr) : Prop :=
  ∀ ⦃fuel least : Nat⦄ ⦃rest : List Lexeme⦄ ⦃r : Except SyntaxFault (Expr × List Lexeme)⦄,
    Behind (level + 1) rest → (∀ n, least ≤ n → readChain n level e rest = r) → 1 ≤ least →
      least + 12 * (operandTokens level e).length ≤ fuel + level →
        readLevel fuel level (operandTokens level e ++ rest) = r

variable {level : Nat} {e : Expr}

/-- A chain can be empty. -/
theorem ReadsChain.readsLevel (h : ReadsChain level e) : ReadsLevel level e := by
  intro fuel rest hfuel hrest
  refine h (hrest.mono (Nat.le_succ level)) (fun n hn => ?_) (Nat.le_refl 1) (by omega)
  obtain ⟨n, rfl⟩ := Nat.exists_eq_add_of_le' hn
  rw [readChain, hrest.operatorAt?_eq]

/-- A chain starts with an operand of the next level. -/
theorem ReadsLevel.readsChain (hlevel : level < levels) (h : ReadsLevel (level + 1) e)
    (hsame : operandTokens level e = operandTokens (level + 1) e) : ReadsChain level e := by
  intro fuel least rest r hrest hchain hleast hfuel
  have hpos := operandTokens_pos level e
  have hlevels : level < 6 := hlevel
  obtain ⟨n, rfl⟩ : ∃ n, fuel = n + 1 := ⟨fuel - 1, by omega⟩
  have hoperand : readLevel n (level + 1) (operandTokens level e ++ rest) = .ok (e, rest) := by
    rw [hsame] at hfuel ⊢
    exact h (by omega) hrest
  rw [readLevel, if_neg (Nat.ne_of_lt hlevel), hoperand]
  exact hchain n (by omega)

/-- **What is read on one level is read on the looser ones**, as far as it is written the same way. -/
theorem readsLevel_of_le {top : Nat} (htop : top ≤ levels) (h : ReadsLevel top e) (hle : level ≤ top)
    (hsame : ∀ m, level ≤ m → m < top → (e.NeedsParens m ↔ e.NeedsParens (m + 1))) :
    ReadsLevel level e := by
  -- by induction on the number of levels in between
  obtain ⟨d, rfl⟩ := Nat.exists_eq_add_of_le hle
  induction d generalizing level with
  | zero => exact h
  | succ d ih =>
    have hnext : ReadsLevel (level + 1) e := by
      refine ih ?_ ?_ ?_ fun m hm hlt => hsame m (by omega) (by omega)
      · omega
      · have heq : level + 1 + d = level + (d + 1) := by omega
        rw [heq]
        exact h
      · omega
    refine (hnext.readsChain (by omega) (operandTokens_congr ?_)).readsLevel
    exact hsame level (Nat.le_refl _) (by omega)

/-- The tightest level reads signs and operands. -/
theorem readLevel_levels (fuel : Nat) (ts : List Lexeme) :
    readLevel (fuel + 1) levels ts = readUnary fuel ts := if_pos rfl

/-- What is read in parentheses is an operand. -/
theorem ReadsExpr.readsLevel (h : ReadsExpr e) (hparens : e.NeedsParens levels) : ReadsLevel levels e := by
  intro fuel rest hfuel _
  rw [operandTokens_of_needsParens hparens] at hfuel ⊢
  rw [List.length_cons, List.length_append, List.length_singleton] at hfuel
  have hlevels : levels = 6 := rfl
  obtain ⟨n, rfl⟩ : ∃ n, fuel = n + 3 := ⟨fuel - 3, by omega⟩
  have hinner : readExpr n (e.tokens ++ .rightParen :: rest) = .ok (e, .rightParen :: rest) :=
    h (by omega) (.rightParen rest)
  have hread : readLevel (n + 3) levels (.leftParen :: (e.tokens ++ [.rightParen]) ++ rest) =
      readOperand (n + 1) (.leftParen :: (e.tokens ++ .rightParen :: rest)) := by
    rw [List.cons_append, List.append_assoc]
    rfl
  rw [hread, readOperand, hinner]
  rfl

/-- Without parentheses, any expression but an assignment is a chain of the loosest level. -/
theorem ReadsLevel.readsExpr (h : ReadsLevel 0 e) (hparens : ¬e.NeedsParens 0) : ReadsExpr e := by
  intro fuel rest hfuel hrest
  obtain ⟨n, rfl⟩ : ∃ n, fuel = n + 1 := ⟨fuel - 1, by omega⟩
  have hlevel : readLevel n 0 (e.tokens ++ rest) = .ok (e, rest) := by
    rw [← operandTokens_of_not hparens] at hfuel ⊢
    exact h (by omega) hrest
  rw [readExpr, hlevel]
  exact fun x ts => tokens_not_assignment x ts e hparens (hrest.mono (Nat.zero_le _))

/-! ## Chains -/

/-- **A chain grows at its right end**: the left operand is read together with the operator behind it,
    the right operand, and all that follows. -/
theorem readsChain_binary {op : BinaryOp} {l r : Expr} (hl : ReadsChain op.level l)
    (hr : ReadsLevel (op.level + 1) r) : ReadsChain op.level (.binary op l r) := by
  intro fuel least rest result hrest hchain hleast hfuel
  have htokens : operandTokens op.level (.binary op l r) =
      operandTokens op.level l ++ .sign op.sign :: operandTokens (op.level + 1) r :=
    operandTokens_of_not (Nat.lt_irrefl op.level)
  rw [htokens, List.length_append, List.length_cons] at hfuel
  rw [htokens, List.append_assoc]
  -- what the right operand and the rest of the chain need
  obtain ⟨enough, henough⟩ : ∃ enough, enough =
    least + 12 * (operandTokens (op.level + 1) r).length + 12 := ⟨_, rfl⟩
  refine hl (.sign (Nat.lt_succ_self _) _) (fun n (hn : enough ≤ n) => ?_) (by omega) (by omega)
  obtain ⟨m, rfl⟩ : ∃ m, n = m + 1 := ⟨n - 1, by omega⟩
  have hright : readLevel m (op.level + 1) (operandTokens (op.level + 1) r ++ rest) = .ok (r, rest) :=
    hr (by omega) hrest
  rw [List.cons_append, readChain, operatorAt?_sign]
  dsimp only
  rw [hright]
  exact hchain m (by omega)

/-! ## Expressions -/

/-- The expression is read back wherever it is written. -/
structure Reads (e : Expr) : Prop where
  expr : ReadsExpr e
  level : ∀ m ≤ levels, ReadsLevel m e
  chain : ∀ m < levels, ReadsChain m e

/-- An expression that is written the same way on all levels. -/
theorem Reads.of_same (hsame : ∀ m, e.NeedsParens m ↔ e.NeedsParens (m + 1)) (h : ReadsLevel levels e)
    (hexpr : ReadsLevel 0 e → ReadsExpr e) : Reads e := by
  have hlevel (m : Nat) (hm : m ≤ levels) : ReadsLevel m e :=
    readsLevel_of_le (Nat.le_refl _) h hm fun n _ _ => hsame n
  refine ⟨hexpr (hlevel 0 (Nat.zero_le _)), hlevel, fun m hm => ?_⟩
  exact (hlevel (m + 1) hm).readsChain hm (operandTokens_congr (hsame m))

/-- An operand stands without parentheses on every level. -/
theorem Reads.of_operand (hparens : ∀ m, ¬e.NeedsParens m) (h : ReadsLevel levels e) : Reads e :=
  .of_same (fun m => iff_of_false (hparens m) (hparens (m + 1))) h fun h0 => h0.readsExpr (hparens 0)

/-- An assignment stands in parentheses on every level. -/
theorem Reads.assign {x : String} {v : Expr} (hv : ReadsExpr v) : Reads (.assign x v) := by
  have hexpr : ReadsExpr (.assign x v) := by
    intro fuel rest hfuel hrest
    have hlength : (tokens (.assign x v)).length = v.tokens.length + 2 := rfl
    obtain ⟨n, rfl⟩ : ∃ n, fuel = n + 1 := ⟨fuel - 1, by omega⟩
    have hvalue : readExpr n (v.tokens ++ rest) = .ok (v, rest) := hv (by omega) hrest
    show readExpr (n + 1) (.name x :: .sign .assign :: (v.tokens ++ rest)) = _
    rw [readExpr, hvalue]
    rfl
  exact .of_same (fun _ => Iff.rfl) (hexpr.readsLevel trivial) fun _ => hexpr

/-- A chain is read back as it is on its own level and on looser ones, in parentheses on tighter ones. -/
theorem Reads.binary {op : BinaryOp} {l r : Expr} (hl : Reads l) (hr : Reads r) :
    Reads (.binary op l r) := by
  have hlt := op.level_lt_levels
  -- the chain on its own level, then without parentheses, then inside them
  have hown : ReadsChain op.level (.binary op l r) :=
    readsChain_binary (hl.chain _ hlt) (hr.level _ hlt)
  have hloose (m : Nat) (hm : m ≤ op.level) : ReadsLevel m (.binary op l r) :=
    readsLevel_of_le (Nat.le_of_lt hlt) hown.readsLevel hm fun n _ hn =>
      iff_of_false (fun h : op.level < n => by omega) (fun h : op.level < n + 1 => by omega)
  have hexpr : ReadsExpr (.binary op l r) := (hloose 0 (Nat.zero_le _)).readsExpr (Nat.not_lt_zero _)
  have htight (m : Nat) (hm : op.level < m) (hle : m ≤ levels) : ReadsLevel m (.binary op l r) :=
    readsLevel_of_le (Nat.le_refl _) (hexpr.readsLevel hlt) hle fun n hn _ =>
      iff_of_true (Nat.lt_of_lt_of_le hm hn) (Nat.lt_succ_of_lt (Nat.lt_of_lt_of_le hm hn))
  have hlevel (m : Nat) (hm : m ≤ levels) : ReadsLevel m (.binary op l r) := by
    by_cases h : m ≤ op.level
    · exact hloose m h
    · exact htight m (Nat.not_le.1 h) hm
  refine ⟨hexpr, hlevel, fun m hm => ?_⟩
  by_cases h : m = op.level
  · rw [h]
    exact hown
  · refine (hlevel (m + 1) hm).readsChain hm (operandTokens_congr ?_)
    show op.level < m ↔ op.level < m + 1
    omega

/-- Signs are read before operands. -/
theorem Reads.unary {op : UnaryOp} {x : Expr} (hx : Reads x) : Reads (.unary op x) := by
  refine .of_operand (fun _ => id) fun fuel rest hfuel hrest => ?_
  have hlength : (operandTokens levels (.unary op x)).length = (operandTokens levels x).length + 1 := rfl
  have hlevels : levels = 6 := rfl
  obtain ⟨n, rfl⟩ : ∃ n, fuel = n + 2 := ⟨fuel - 2, by omega⟩
  -- the operand, at the tightest level
  have hoperand : readUnary n (operandTokens levels x ++ rest) = .ok (x, rest) := by
    rw [← readLevel_levels]
    exact hx.level levels (Nat.le_refl _) (by omega) hrest
  show readLevel (n + 2) levels (.sign op.sign :: (operandTokens levels x ++ rest)) = _
  rw [readLevel_levels]
  cases op with
  | negate =>
    show readUnary (n + 1) (.sign .minus :: (operandTokens levels x ++ rest)) = _
    rw [readUnary, hoperand]
    rfl
  | not =>
    show readUnary (n + 1) (.sign .not :: (operandTokens levels x ++ rest)) = _
    rw [readUnary, hoperand]
    rfl

/-- A literal, dice, or a name without parentheses behind it. -/
theorem Reads.of_single {t : Lexeme} (hparens : ∀ m, ¬e.NeedsParens m) (htokens : e.tokens = [t])
    (hread : ∀ n rest, Behind levels rest → readLevel (n + 3) levels (t :: rest) = .ok (e, rest)) :
    Reads e := by
  refine .of_operand hparens fun fuel rest hfuel hrest => ?_
  rw [operandTokens_of_not (hparens levels), htokens] at hfuel ⊢
  have hlevels : levels = 6 := rfl
  rw [List.length_singleton] at hfuel
  obtain ⟨n, rfl⟩ : ∃ n, fuel = n + 3 := ⟨fuel - 3, by omega⟩
  exact hread n rest hrest

/-- Arguments are read up to their closing parenthesis. -/
theorem readArguments_argumentTokens {args : List Expr} (h : ∀ e ∈ args, ReadsExpr e)
    (some_argument : args ≠ []) {fuel : Nat} (rest : List Lexeme)
    (hfuel : 12 * (argumentTokens args).length + 3 ≤ fuel) :
    readArguments fuel (argumentTokens args ++ .rightParen :: rest) = .ok (args, rest) := by
  induction args generalizing fuel with
  | nil => exact absurd rfl some_argument
  | cons e es ih =>
    obtain ⟨he, hes⟩ := List.forall_mem_cons.1 h
    obtain ⟨n, rfl⟩ : ∃ n, fuel = n + 1 := ⟨fuel - 1, by omega⟩
    cases es with
    -- the last argument: the parenthesis closes the list
    | nil =>
      have hlast : readExpr n (e.tokens ++ .rightParen :: rest) = .ok (e, .rightParen :: rest) := by
        have hlength : (argumentTokens [e]).length = e.tokens.length := rfl
        exact he (by omega) (.rightParen rest)
      show readArguments (n + 1) (e.tokens ++ .rightParen :: rest) = _
      rw [readArguments, hlast]
      rfl
    | cons e' es =>
      have htokens : argumentTokens (e :: e' :: es) = e.tokens ++ .comma :: argumentTokens (e' :: es) := rfl
      rw [htokens, List.length_append, List.length_cons] at hfuel
      rw [htokens, List.append_assoc, List.cons_append]
      -- an argument ends at the comma
      have hfirst : readExpr n (e.tokens ++ .comma :: (argumentTokens (e' :: es) ++ .rightParen :: rest)) =
          .ok (e, .comma :: (argumentTokens (e' :: es) ++ .rightParen :: rest)) := he (by omega) (.comma _)
      have hothers : readArguments n (argumentTokens (e' :: es) ++ .rightParen :: rest) =
          .ok (e' :: es, rest) := ih hes (List.cons_ne_nil _ _) (by omega)
      rw [readArguments, hfirst]
      show (readArguments n _ >>= fun p => pure (e :: p.1, p.2)) = _
      rw [hothers]
      rfl

theorem Reads.call {f : String} {args : List Expr} (h : ∀ e ∈ args, Reads e) : Reads (.call f args) := by
  refine .of_operand (fun _ => id) fun fuel rest hfuel hrest => ?_
  have htokens : operandTokens levels (.call f args) =
      .name f :: .leftParen :: (argumentTokens args ++ [.rightParen]) := rfl
  have hlevels : levels = 6 := rfl
  rw [htokens, List.length_cons, List.length_cons, List.length_append, List.length_singleton] at hfuel
  obtain ⟨n, rfl⟩ : ∃ n, fuel = n + 3 := ⟨fuel - 3, by omega⟩
  have hread : readLevel (n + 3) levels (operandTokens levels (.call f args) ++ rest) =
      readOperand (n + 1) (.name f :: .leftParen :: (argumentTokens args ++ .rightParen :: rest)) := by
    rw [htokens, List.cons_append, List.cons_append, List.append_assoc]
    rfl
  rw [hread]
  cases args with
  | nil => rfl
  | cons a as =>
    have hargs : readArguments n (argumentTokens (a :: as) ++ .rightParen :: rest) = .ok (a :: as, rest) :=
      readArguments_argumentTokens (fun e he => (h e he).expr) (List.cons_ne_nil a as) rest (by omega)
    rw [readOperand, hargs]
    · rfl
    · -- the first argument does not start with the closing parenthesis
      obtain ⟨t, ts, hts, hright, -⟩ := exists_cons_tokens a
      intro us hus
      cases as <;> simp [argumentTokens, hts, hright] at hus

/-- **What is grammatical is read back.** -/
theorem Grammatical.reads (h : e.Grammatical) : Reads e := by
  induction h with
  | number => exact .of_single (fun _ => id) rfl fun _ _ _ => rfl
  | text => exact .of_single (fun _ => id) rfl fun _ _ _ => rfl
  | dice => exact .of_single (fun _ => id) rfl fun _ _ _ => rfl
  | «variable» =>
    refine .of_single (fun _ => id) rfl fun _ rest hrest => ?_
    -- a parenthesis would make it a call
    cases hrest <;> rfl
  | call _ _ ih => exact .call ih
  | unary _ _ ih => exact .unary ih
  | binary _ _ _ ihl ihr => exact .binary ihl ihr
  | assign _ _ ih => exact .assign ih.expr

/-! ## Statements -/

/-- There is a text for each token of a grammatical expression. -/
theorem Grammatical.legible (h : e.Grammatical) : ∀ t ∈ e.tokens, t.Legible := by
  -- parentheses are legible
  have enclosed {need : Prop} [Decidable need] {ts : List Lexeme} (hts : ∀ t ∈ ts, t.Legible) :
      ∀ t ∈ enclose need ts, t.Legible := by
    intro t ht
    rcases mem_enclose ht with rfl | rfl | ht
    · trivial
    · trivial
    · exact hts t ht
  induction h with
  | number fits sign => exact List.forall_mem_singleton.2 ⟨fits, sign⟩
  | text s => exact List.forall_mem_singleton.2 trivial
  | dice shape => exact List.forall_mem_singleton.2 shape
  | «variable» name => exact List.forall_mem_singleton.2 name
  | @call f args name _ ih =>
    show ∀ t ∈ .name f :: .leftParen :: (argumentTokens args ++ [.rightParen]), t.Legible
    rw [List.forall_mem_cons, List.forall_mem_cons, List.forall_mem_append, List.forall_mem_singleton]
    refine ⟨name, trivial, fun t ht => ?_, trivial⟩
    rcases mem_argumentTokens ht with rfl | ⟨a, ha, ht⟩
    · trivial
    · exact ih a ha t ht
  | unary _ _ ih => exact List.forall_mem_cons.2 ⟨trivial, enclosed ih⟩
  | binary _ _ _ ihl ihr =>
    exact List.forall_mem_append.2 ⟨enclosed ihl, List.forall_mem_cons.2 ⟨trivial, enclosed ihr⟩⟩
  | assign name _ ih => exact List.forall_mem_cons.2 ⟨name, List.forall_mem_cons.2 ⟨trivial, ih⟩⟩

/-- There is a token for each statement. -/
theorem length_le_separated (es : List Expr) :
    es.length ≤ (Lexeme.separated (es.map tokens)).length := by
  induction es with
  | nil => exact Nat.le_refl 0
  | cons e es ih =>
    obtain ⟨t, ts, hts, -⟩ := exists_cons_tokens e
    cases es with
    | nil =>
      show 1 ≤ e.tokens.length
      rw [hts]
      exact Nat.succ_pos _
    | cons e' es =>
      have hlength : (Lexeme.separated ((e :: e' :: es).map tokens)).length =
          e.tokens.length + ((Lexeme.separated ((e' :: es).map tokens)).length + 1) := List.length_append
      rw [List.length_cons]
      omega

/-- A statement is read up to the semicolon, or to the end. -/
theorem readStatements_tokens {fuel : Nat} {rest : List Lexeme} (h : ReadsExpr e) (hrest : Behind 0 rest) :
    readStatements (fuel + 1) (e.tokens ++ rest) =
      match rest with
      | [] => .ok [e]
      | .semicolon :: ts => do pure (e :: (← readStatements fuel ts))
      | ts => .error (unexpected ts) := by
  have hexpr : readExpr (fuelFor (e.tokens ++ rest)) (e.tokens ++ rest) = .ok (e, rest) := by
    refine h ?_ hrest
    rw [fuelFor, List.length_append]
    omega
  obtain ⟨t, ts, hts, -, hsemicolon⟩ := exists_cons_tokens e
  rw [readStatements, hexpr]
  · cases hrest <;> rfl
  · rw [hts]
    exact nofun
  · rw [hts]
    exact fun us hus => hsemicolon (List.cons.inj hus).1

/-- All statements are read, by induction on their list. -/
theorem readStatements_separated {es : List Expr} (h : ∀ e ∈ es, ReadsExpr e) {fuel : Nat}
    (hfuel : es.length < fuel) : readStatements fuel (Lexeme.separated (es.map tokens)) = .ok es := by
  induction es generalizing fuel with
  | nil =>
    obtain ⟨n, rfl⟩ : ∃ n, fuel = n + 1 := ⟨fuel - 1, by omega⟩
    rfl
  | cons e es ih =>
    obtain ⟨he, hes⟩ := List.forall_mem_cons.1 h
    obtain ⟨n, rfl⟩ : ∃ n, fuel = n + 1 := ⟨fuel - 1, by omega⟩
    rw [List.length_cons] at hfuel
    cases es with
    | nil =>
      have hlast : readStatements (n + 1) (e.tokens ++ []) = .ok [e] := readStatements_tokens he .nil
      rw [List.append_nil] at hlast
      exact hlast
    -- the semicolon is read, and the others by induction
    | cons e' es =>
      have hothers : readStatements n (Lexeme.separated ((e' :: es).map tokens)) = .ok (e' :: es) :=
        ih hes (by omega)
      show readStatements (n + 1) (e.tokens ++ .semicolon :: Lexeme.separated ((e' :: es).map tokens)) = _
      rw [readStatements_tokens he (.semicolon _)]
      dsimp only
      rw [hothers]
      rfl

/-- **Parsing undoes printing**: the text of statements, with parentheses only where they are needed,
    is read as these statements, the places of their numbers included. -/
theorem parse_print (es : List Expr) (h : ∀ e ∈ es, e.Grammatical) : parse (print es) = .ok es := by
  have hlegible : ∀ ts ∈ es.map tokens, ∀ t ∈ ts, t.Legible := by
    intro ts hts
    obtain ⟨e, he, rfl⟩ := List.mem_map.1 hts
    exact (h e he).legible
  have hlength := length_le_separated es
  rw [parse, print, Lexeme.scan_write hlegible]
  exact readStatements_separated (fun e he => (h e he).reads.expr) (by omega)

/-- Statements in which each kind of parentheses stands, and some that are not needed are left out. -/
def volley : List Expr :=
  let x : Expr := .variable "_x.1"
  [.assign "hit" (.assign "d" (.binary .mul
      (.binary .sub (.binary .sub (.literal (.number ⟨150, 2⟩)) x) (.binary .sub x (.dice "2D6kh1")))
      (.unary .negate (.binary .or x (.unary .not (.unary .negate x)))))),
    .call "json.get" [.literal (.text "a; \"b\" \\"), .assign "e" (.call "f" []),
      .binary .and (.binary .lt x x) (.binary .eq (.assign "g" x) x)]]

/-- The statements, written and read back. -/
theorem parse_print_volley :
    (∀ e ∈ volley, e.Grammatical) ∧
    print volley = "hit = d = ( 1.50 - _x.1 - ( _x.1 - 2D6kh1 ) ) * - ( _x.1 || ! - _x.1 );" ++
      "json.get ( \"a; \\\"b\\\" \\\\\" , e = f ( ) , _x.1 < _x.1 && ( g = _x.1 ) == _x.1 )" ∧
    parse (print volley) = .ok volley := by
  have hx : Grammatical (.variable "_x.1") := .variable (by decide +kernel)
  have hdice : Grammatical (.dice "2D6kh1") := .dice (by decide +kernel)
  have hnumber : Grammatical (.literal (.number ⟨150, 2⟩)) := .number (by decide) (by decide)
  have hf : Grammatical (.call "f" []) := .call (by decide +kernel) nofun
  have h : ∀ e ∈ volley, e.Grammatical := by
    refine List.forall_mem_cons.2 ⟨?_, List.forall_mem_singleton.2 ?_⟩
    · refine .assign (by decide +kernel) (.assign (by decide +kernel) (.binary _ ?_ ?_))
      · exact .binary _ (.binary _ hnumber hx) (.binary _ hx hdice)
      · exact .unary _ (.binary _ hx (.unary _ (.unary _ hx)))
    · refine .call (by decide +kernel) (List.forall_mem_cons.2 ⟨.text _, List.forall_mem_cons.2 ⟨?_, ?_⟩⟩)
      · exact .assign (by decide +kernel) hf
      · refine List.forall_mem_singleton.2 (.binary _ (.binary _ hx hx) (.binary _ ?_ hx))
        exact .assign (by decide +kernel) hx
  exact ⟨h, by decide +kernel, parse_print volley h⟩

end Tabletop.Expr
