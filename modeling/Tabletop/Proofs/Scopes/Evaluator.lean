import Tabletop.Builtin.Catalog
import Tabletop.Proofs.Scopes.Nesting

/-
  Bodies among scopes.

  Expressions, segments and bodies are evaluated here in a scope of a tree, as they are evaluated
  elsewhere on variables of their own.

  1. **In the scope** — whatever a body does with variables, with the text and with the table, it does in
     its scope (`inScope`).

  2. **In a child** — the body of a user-defined function and text that is run make a child of the scope
     of their caller.  It shares the variables or starts without any.

  3. **On their own** — macros by name and macros of links start with a tree of their own (`alone`).

  4. **Built-in functions** — all run in the scope of their caller.  Three of them run bodies in children:
     `oldFunction`, `evalMacro` and `execMacro`.
-/
namespace Tabletop

/-- The calls that a body among scopes can make. -/
structure ScopedCalls where
  evaluate : String → ScopedAction Unit
  builtin : String → List Value → ScopedAction Value
  hasBuiltin : String → Bool

/-- The calls of what runs with a tree of its own. -/
def ScopedCalls.alone (calls : ScopedCalls) : Calls where
  evaluate body := (calls.evaluate body).alone
  builtin name args := (calls.builtin name args).alone
  hasBuiltin := calls.hasBuiltin

/-- A built-in function among scopes. -/
abbrev ScopedBuiltin := Registered (ScopedCalls → String → List Value → ScopedAction Value)

namespace Scoped

/-! ## Starting a body -/

/-- Calls a user-defined function. -/
def invoke (evaluate : String → ScopedAction Unit) (g : UserFunction) (args : List Value) :
    ScopedAction Value := do
  let caller ← Action.frame.inScope
  let n ← ScopedAction.inChild (g.frame caller) (!g.definition.freshVariables) do
    (Action.modifyVariables (Assoc.erase · Variables.returnName)).inScope
    (Action.modifyVariables (Variables.bindArguments · args)).inScope
    (evaluate g.definition.body).untilAbort
  pure (g.definition.result n)

/-- Runs text in the place of the macro that runs. -/
def runText (evaluate : String → ScopedAction Unit) (text : String) (share : Bool) :
    ScopedAction Value := do
  let caller ← Action.frame.inScope
  let n ← ScopedAction.inChild caller share (evaluate text)
  pure (.ofOutput n.output)

/-- Runs the macro of a name inside another one. -/
def runNamed (evaluate : String → ScopedAction Unit) (name arguments : String) : ScopedAction String :=
  (Tabletop.runNamed (fun body => (evaluate body).alone) name arguments).inScope

/-- Calls a function: a user-defined one before a built-in one. -/
def callFunction (calls : ScopedCalls) (name : String) (args : List Value) : ScopedAction Value := do
  let s ← (get : Action RunState).inScope
  match s.table.functions.get? name with
  | some g => invoke calls.evaluate g args
  | none => calls.builtin name args

/-! ## Expressions -/

section Expressions

variable (call : String → List Value → ScopedAction Value)

mutual

/-- The value of an expression. -/
def evaluateExpr : Expr → ScopedAction Value
  | .literal v => pure v
  | .dice s => (evaluateDice s).inScope
  | .variable name => (evaluateName name).inScope
  | .call name args => do call name (← evaluateArguments args)
  | .assign name x => do
    let v ← evaluateExpr x
    (Action.bindVariable name v).inScope
    pure v
  | .unary op x => do (Action.ofEvaluation (op.apply (← evaluateExpr x))).inScope
  | .binary .and l r => do
    if (← evaluateExpr l).isTrue then return .ofBool (← evaluateExpr r).isTrue
    else return .ofBool false
  | .binary .or l r => do
    if (← evaluateExpr l).isTrue then return .ofBool true
    else return .ofBool (← evaluateExpr r).isTrue
  | .binary op l r => do
    let a ← evaluateExpr l
    let b ← evaluateExpr r
    (Action.ofEvaluation (op.apply a b)).inScope

/-- The values of arguments. -/
def evaluateArguments : List Expr → ScopedAction (List Value)
  | [] => pure []
  | x :: xs => do
    let v ← evaluateExpr x
    let vs ← evaluateArguments xs
    pure (v :: vs)

end

/-- The value of the last of some statements, or empty text. -/
def evaluateStatements (v : Value) : List Expr → ScopedAction Value
  | [] => pure v
  | x :: xs => do evaluateStatements (← evaluateExpr call x) xs

/-- The value of a source text. -/
def evaluateSource (source : String) : ScopedAction Value :=
  match Expr.parse source with
  | .error f => (Action.failEvaluation (.syntaxFault f)).inScope
  | .ok xs => evaluateStatements call .empty xs

end Expressions

/-! ## Bodies -/

/-- Runs a segment. -/
def runSegment (calls : ScopedCalls) : Segment → ScopedAction Unit
  | .text s => (Action.emit s).inScope
  | .expression options source => do
    let v ← evaluateSource (callFunction calls) source
    let shown ←
      match options.macroName with
      | some name => runNamed calls.evaluate name v.display
      | none => pure v.display
    (Action.emit (options.output.written source shown)).inScope

/-- Runs segments in order. -/
def runSegments (calls : ScopedCalls) : List Segment → ScopedAction Unit
  | [] => pure ()
  | s :: rest => do
    runSegment calls s
    runSegments calls rest

/-- Runs a body. -/
def evaluateBody (calls : ScopedCalls) (body : String) : ScopedAction Unit :=
  match Segment.ofBody body with
  | .error bracket => (Action.failEvaluation (.unclosed bracket)).inScope
  | .ok segments => runSegments calls segments

/-! ## Built-in functions -/

section Functions

open Arguments Builtin

/-- A function that runs in the scope of its caller. -/
def ofBuiltin (b : Builtin) : ScopedBuiltin :=
  ⟨b.descriptor, fun calls name args => (b.function.run calls.alone name args).inScope⟩

/-- Calls the function before a function. -/
def callOlder (calls : ScopedCalls) (g : UserFunction) (args : List Value) : ScopedAction Value :=
  match g.older? with
  | some older => invoke calls.evaluate older args
  | none => calls.builtin g.name args

/-- Calls the function before the one whose body runs. -/
def oldFunction : ScopedBuiltin :=
  ⟨Builtin.oldFunction.descriptor, fun calls _ args => do
    let caller ← Action.frame.inScope
    match caller.function with
    | none => (Action.failEvaluation .outsideFunction).inScope
    | some g => callOlder calls g args⟩

/-- Runs text in a child that shares the variables. -/
def evalMacro : ScopedBuiltin :=
  ⟨Builtin.evalMacro.descriptor, fun calls _ args => runText calls.evaluate (textAt args 0) true⟩

/-- Runs text in a child that starts without variables. -/
def execMacro : ScopedBuiltin :=
  ⟨Builtin.execMacro.descriptor, fun calls _ args => runText calls.evaluate (textAt args 0) false⟩

/-- The functions on functions and macro text. -/
def functions : List ScopedBuiltin :=
  [ofBuiltin defineFunction, ofBuiltin isFunctionDefined, oldFunction, evalMacro, execMacro,
    ofBuiltin getMacroName, ofBuiltin getMacroLocation]

/-- All built-in functions. -/
def builtins : List ScopedBuiltin :=
  (propertyLists ++ stringLists ++ trees ++ control).map ofBuiltin ++ functions ++
    (links ++ tokens ++ chat ++ turnOrder ++ diceRolls).map ofBuiltin

end Functions

/-! ## Calls -/

/-- Calls a built-in function. -/
def callBuiltin (calls : ScopedCalls) (name : String) (args : List Value) : ScopedAction Value :=
  match Registry.find? (.ofList builtins) name with
  | none => (Action.fail (.unknownFunction name)).inScope
  | some b =>
    if b.descriptor.arity.accepts args.length then do
      if b.descriptor.trusted then (Action.requireTrust name).inScope
      let v ← b.function calls name args
      pure v.coerced
    else (Action.fail (.arity name b.descriptor.arity args.length)).inScope

/-- Calls that nest up to a depth. -/
def calls : Nat → ScopedCalls
  | 0 => {
      evaluate := fun _ => throw .exhausted
      builtin := fun _ _ => throw .exhausted
      hasBuiltin := Registry.contains (.ofList builtins) }
  | n + 1 => {
      evaluate := evaluateBody (calls n)
      builtin := callBuiltin (calls n)
      hasBuiltin := Registry.contains (.ofList builtins) }

end Scoped

end Tabletop
