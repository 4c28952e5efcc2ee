import Tabletop.Expr.Parse
import Tabletop.Dice.Notation
import Tabletop.Macro.Body
import Tabletop.Macro.Operators
import Tabletop.Macro.Run

/-
  Evaluating expressions and bodies.

  1. **Order** — operands and arguments are evaluated from left to right.  `&&` and `||` leave their
     right operand alone if the left one decides.

  2. **Names** — a variable, a property of the subject, or one of the words `true` and `false`.

  3. **Bodies** — the whole body is cut into segments before the first one runs.  Segments run in
     order, and the first interrupt leaves the rest alone.

  Calls lead to other bodies.  They are a parameter here, so that evaluation itself goes down the
  expression and along the segments.
-/
namespace Tabletop

/-- What an evaluator needs for the calls in a body. -/
structure Calls where
  /-- Runs a body in the frame that is given. -/
  evaluate : String → Action Unit
  /-- Calls a built-in function. -/
  builtin : String → List Value → Action Value
  /-- There is a built-in function of this name. -/
  hasBuiltin : String → Bool

/-- Calls a function: a user-defined one before a built-in one. -/
def Calls.call (calls : Calls) (name : String) (args : List Value) : Action Value := do
  match (← get).table.functions.get? name with
  | some f => invoke calls.evaluate f args
  | none => calls.builtin name args

/-! ## Expressions -/

/-- Rolls dice. -/
def rollDice (e : Dice.Expression) : Action (Except Dice.DiceError Dice.Roll) := fun _ s =>
  let (r, dice) := e.rollWith Dice.Generator.face s.table.dice
  (.ok r, { s with table := { s.table with dice } })

/-- The value of dice. -/
def evaluateDice (notation_ : String) : Action Value := do
  match Dice.Expression.parse notation_ with
  | .error e => Action.failEvaluation (.dice e)
  | .ok e =>
    match ← rollDice e with
    | .error e => Action.failEvaluation (.dice e)
    | .ok r => pure (.ofInt r.total)

/-- The value of a name. -/
def evaluateName (name : String) : Action Value := do
  match ← Action.lookup? name with
  | some v => pure v
  | none =>
    if Text.sameName name "true" then pure (.ofBool true)
    else if Text.sameName name "false" then pure (.ofBool false)
    else Action.failEvaluation (.undefinedVariable name)

variable (call : String → List Value → Action Value)

mutual

/-- The value of an expression. -/
def evaluateExpr : Expr → Action Value
  | .literal v => pure v
  | .dice s => evaluateDice s
  | .variable name => evaluateName name
  | .call name args => do call name (← evaluateArguments args)
  | .assign name x => do
    let v ← evaluateExpr x
    Action.bindVariable name v
    pure v
  | .unary op x => do Action.ofEvaluation (op.apply (← evaluateExpr x))
  | .binary .and l r => do
    if (← evaluateExpr l).isTrue then return .ofBool (← evaluateExpr r).isTrue
    else return .ofBool false
  | .binary .or l r => do
    if (← evaluateExpr l).isTrue then return .ofBool true
    else return .ofBool (← evaluateExpr r).isTrue
  | .binary op l r => do
    let a ← evaluateExpr l
    let b ← evaluateExpr r
    Action.ofEvaluation (op.apply a b)

/-- The values of arguments. -/
def evaluateArguments : List Expr → Action (List Value)
  | [] => pure []
  | x :: xs => do
    let v ← evaluateExpr x
    let vs ← evaluateArguments xs
    pure (v :: vs)

end

/-- The value of the last of some statements, or empty text. -/
def evaluateStatements (v : Value) : List Expr → Action Value
  | [] => pure v
  | x :: xs => do evaluateStatements (← evaluateExpr call x) xs

/-- The value of a source text. -/
def evaluateSource (source : String) : Action Value := do
  match Expr.parse source with
  | .error f => Action.failEvaluation (.syntaxFault f)
  | .ok xs => evaluateStatements call .empty xs

/-! ## Bodies -/

/-- How the result of an expression is written into the output. -/
def OutputMode.written (mode : OutputMode) (source shown : String) : String :=
  match mode with
  | .hidden => ""
  | .result => shown
  | .tooltip => shown
  | .expanded => Text.trim source ++ " = " ++ shown

/-- Runs a segment. -/
def runSegment (calls : Calls) : Segment → Action Unit
  | .text s => Action.emit s
  | .expression options source => do
    let v ← evaluateSource calls.call source
    let shown ←
      match options.macroName with
      | some name => runNamed calls.evaluate name v.display
      | none => pure v.display
    Action.emit (options.output.written source shown)

/-- Runs segments in order. -/
def runSegments (calls : Calls) : List Segment → Action Unit
  | [] => pure ()
  | s :: rest => do
    runSegment calls s
    runSegments calls rest

/-- Runs a body. -/
def evaluateBody (calls : Calls) (body : String) : Action Unit := do
  match Segment.ofBody body with
  | .error bracket => Action.failEvaluation (.unclosed bracket)
  | .ok segments => runSegments calls segments

end Tabletop
