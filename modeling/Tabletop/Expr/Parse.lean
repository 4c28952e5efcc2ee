import Tabletop.Expr.Basic

/-
  From tokens to expressions.

  1. **Grammar** — a text is a list of statements with semicolons between them, empty ones allowed.
     A statement is an assignment or a chain of operators; an assignment may also stand as an
     argument, inside parentheses, and behind another assignment.

  2. **Shape of the readers** — each takes the tokens that are left and answers with what it read and
     what is left.  A reader that fails says so with the token that it stopped at.

  3. **Fuel** — a reader spends one unit on every call that it makes.  `fuelFor` gives each token
     enough for the whole chain of readers from an expression down to an operand.
-/
namespace Tabletop.Expr

/-- The fault of a token that no rule expects here. -/
def unexpected : List Lexeme → SyntaxFault
  | [] => .unexpectedEnd
  | t :: _ => .unexpectedToken t

/-- The operator that the tokens start with, if it stands on `level`. -/
def operatorAt? (level : Nat) : List Lexeme → Option (BinaryOp × List Lexeme)
  | .sign o :: ts =>
    match BinaryOp.ofSign? o with
    | some op => if op.level = level then some (op, ts) else none
    | none => none
  | _ => none

mutual

/-- Reads an assignment or a chain of operators. -/
def readExpr : (fuel : Nat) → List Lexeme → Except SyntaxFault (Expr × List Lexeme)
  | 0, ts => .error (unexpected ts)
  | fuel + 1, .name x :: .sign .assign :: ts => do
    let (e, ts) ← readExpr fuel ts
    pure (.assign x e, ts)
  | fuel + 1, ts => readLevel fuel 0 ts

/-- Reads operands of operators on `level` or tighter. -/
def readLevel : (fuel : Nat) → (level : Nat) → List Lexeme → Except SyntaxFault (Expr × List Lexeme)
  | 0, _, ts => .error (unexpected ts)
  | fuel + 1, level, ts =>
    if level = BinaryOp.levels then readUnary fuel ts
    else do
      let (l, ts) ← readLevel fuel (level + 1) ts
      readChain fuel level l ts

/-- Goes on with operators on `level` behind a left operand. -/
def readChain :
    (fuel : Nat) → (level : Nat) → Expr → List Lexeme → Except SyntaxFault (Expr × List Lexeme)
  | 0, _, _, ts => .error (unexpected ts)
  | fuel + 1, level, l, ts =>
    match operatorAt? level ts with
    | none => .ok (l, ts)
    | some (op, ts) => do
      let (r, ts) ← readLevel fuel (level + 1) ts
      readChain fuel level (.binary op l r) ts

/-- Reads signs in front of an operand. -/
def readUnary : (fuel : Nat) → List Lexeme → Except SyntaxFault (Expr × List Lexeme)
  | 0, ts => .error (unexpected ts)
  | fuel + 1, .sign .minus :: ts => do
    let (e, ts) ← readUnary fuel ts
    pure (.unary .negate e, ts)
  | fuel + 1, .sign .not :: ts => do
    let (e, ts) ← readUnary fuel ts
    pure (.unary .not e, ts)
  | fuel + 1, ts => readOperand fuel ts

/-- Reads an operand. -/
def readOperand : (fuel : Nat) → List Lexeme → Except SyntaxFault (Expr × List Lexeme)
  | 0, ts => .error (unexpected ts)
  | _ + 1, .number d :: ts => .ok (.literal (.number d), ts)
  | _ + 1, .quoted s :: ts => .ok (.literal (.text s), ts)
  | _ + 1, .dice s :: ts => .ok (.dice s, ts)
  | _ + 1, .name f :: .leftParen :: .rightParen :: ts => .ok (.call f [], ts)
  | fuel + 1, .name f :: .leftParen :: ts => do
    let (args, ts) ← readArguments fuel ts
    pure (.call f args, ts)
  | _ + 1, .name x :: ts => .ok (.variable x, ts)
  | fuel + 1, .leftParen :: ts => do
    match ← readExpr fuel ts with
    | (e, .rightParen :: ts) => pure (e, ts)
    | (_, ts) => .error (unexpected ts)
  | _ + 1, ts => .error (unexpected ts)

/-- Reads one argument or more, and the closing parenthesis. -/
def readArguments : (fuel : Nat) → List Lexeme → Except SyntaxFault (List Expr × List Lexeme)
  | 0, ts => .error (unexpected ts)
  | fuel + 1, ts => do
    match ← readExpr fuel ts with
    | (e, .rightParen :: ts) => pure ([e], ts)
    | (e, .comma :: ts) => do
      let (es, ts) ← readArguments fuel ts
      pure (e :: es, ts)
    | (_, ts) => .error (unexpected ts)

end

/-- Enough fuel for the longest chain of readers that a list of tokens can start. -/
def fuelFor (ts : List Lexeme) : Nat := 12 * (ts.length + 1)

/-- Reads statements, `fuel` of them at most. -/
def readStatements : (fuel : Nat) → List Lexeme → Except SyntaxFault (List Expr)
  | 0, _ => .ok []
  | _ + 1, [] => .ok []
  | fuel + 1, .semicolon :: ts => readStatements fuel ts
  | fuel + 1, ts => do
    match ← readExpr (fuelFor ts) ts with
    | (e, []) => pure [e]
    | (e, .semicolon :: ts) => pure (e :: (← readStatements fuel ts))
    | (_, ts) => .error (unexpected ts)

/-- The statements of a text. -/
def parse (s : String) : Except SyntaxFault (List Expr) := do
  let ts ← Lexeme.scan s
  readStatements (ts.length + 1) ts

end Tabletop.Expr
