import Tabletop.Builtin.Catalog
import Tabletop.Macro.Engine
import Tabletop.Proofs.Values.Proper

/-
  Watched runs.

  A watched run does what a run does and looks at all values on the way.  At a value that is not proper it
  does something else, which may be anything; a watched run that is the same as the run, whatever this
  something is, has met no such value.

  1. **Where it looks** — at the answer of every expression and of every call, at the values that are
     passed to a function, and at all variables before and behind each of them, before and behind every
     body, and behind every segment.

  2. **Arms for other shapes** — functions on trees tell arrays from objects, and have an arm for trees
     that are neither.  In a watched run this arm gives an answer that may be anything, too.

  3. **Depth** — calls are watched on every depth.
-/
namespace Tabletop

instance {ε α : Type} (Q : α → Prop) [DecidablePred Q] (r : Except ε α) : Decidable (OnlyAnswers Q r) :=
  match r with
  | .ok a => decidable_of_iff (Q a) ⟨.ok, fun h => h a rfl⟩
  | .error e => .isTrue (.error e)

/-- What is done in places to which no run comes. -/
structure Watch where
  /-- At a value that is not proper. -/
  alarm : Frame → RunState → Interrupt × RunState
  /-- In the arm of a function for trees that are neither arrays nor objects. -/
  arm : String → List Value → Except MacroError Value

namespace Watch

variable (w : Watch) {α : Type}

/-- Raises the alarm. -/
def raise : Action α := fun f s => (.error (w.alarm f s).1, (w.alarm f s).2)

/-- Does something with some values: they, its answer, and the variables before and behind it are looked
    at, however it ends. -/
def along (vs : List Value) (Q : α → Prop) [DecidablePred Q] (act : Action α) : Action α := fun f s =>
  if s.bindings.Proper ∧ ∀ v ∈ vs, v.IsProper then
    if (act f s).2.bindings.Proper ∧ OnlyAnswers Q (act f s).1 then act f s else w.raise f (act f s).2
  else w.raise f s

/-- Does something without an answer to look at. -/
def around (act : Action α) : Action α := w.along [] (fun _ => True) act

/-! ## Expressions -/

section Expressions

variable (call : String → List Value → Action Value)

mutual

/-- The value of an expression. -/
def evaluateExpr : Expr → Action Value
  | .literal v => w.along [] Value.IsProper (pure v)
  | .dice s => w.along [] Value.IsProper (evaluateDice s)
  | .variable name => w.along [] Value.IsProper (evaluateName name)
  | .call name args => w.along [] Value.IsProper do
    let vs ← evaluateArguments args
    w.along vs Value.IsProper (call name vs)
  | .assign name x => w.along [] Value.IsProper do
    let v ← evaluateExpr x
    Action.bindVariable name v
    pure v
  | .unary op x => w.along [] Value.IsProper do
    Action.ofEvaluation (op.apply (← evaluateExpr x))
  | .binary .and l r => w.along [] Value.IsProper do
    if (← evaluateExpr l).isTrue then return .ofBool (← evaluateExpr r).isTrue
    else return .ofBool false
  | .binary .or l r => w.along [] Value.IsProper do
    if (← evaluateExpr l).isTrue then return .ofBool true
    else return .ofBool (← evaluateExpr r).isTrue
  | .binary op l r => w.along [] Value.IsProper do
    let a ← evaluateExpr l
    let b ← evaluateExpr r
    Action.ofEvaluation (op.apply a b)

/-- The values of arguments. -/
def evaluateArguments : List Expr → Action (List Value)
  | [] => pure []
  | x :: xs => do
    let v ← evaluateExpr x
    let vs ← evaluateArguments xs
    pure (v :: vs)

end

/-- The value of the last of some statements, or empty text. -/
def evaluateStatements (v : Value) : List Expr → Action Value
  | [] => pure v
  | x :: xs => do evaluateStatements (← w.evaluateExpr call x) xs

/-- The value of a source text. -/
def evaluateSource (source : String) : Action Value := do
  match Expr.parse source with
  | .error f => Action.failEvaluation (.syntaxFault f)
  | .ok xs => w.evaluateStatements call .empty xs

end Expressions

/-! ## Bodies -/

/-- Runs a segment. -/
def runSegment (calls : Calls) : Segment → Action Unit
  | .text s => w.around (Action.emit s)
  | .expression options source => w.around do
    let v ← w.evaluateSource calls.call source
    let shown ←
      match options.macroName with
      | some name => runNamed calls.evaluate name v.display
      | none => pure v.display
    Action.emit (options.output.written source shown)

/-- Runs segments in order. -/
def runSegments (calls : Calls) : List Segment → Action Unit
  | [] => pure ()
  | s :: rest => do
    w.runSegment calls s
    runSegments calls rest

/-- Runs a body. -/
def evaluateBody (calls : Calls) (body : String) : Action Unit := do
  match Segment.ofBody body with
  | .error bracket => Action.failEvaluation (.unclosed bracket)
  | .ok segments => w.runSegments calls segments

/-! ## Functions -/

section Functions

open Arguments Builtin

/-- A function on the tree in its first argument, with any answer in its arm for trees that are neither
    arrays nor objects. -/
def withArm (b : Builtin) : Builtin :=
  match b.function with
  | .acts _ => b
  | .computes f =>
    { b with function := .computes fun name args =>
        match treeAt args name 0 with
        | .ok j => if j.isTree then f name args else w.arm name args
        | .error _ => f name args }

/-- Sets keys and values that follow each other; answers with nothing at a tree that is neither an array
    nor an object. -/
def setEntries? (args : List Value) (function : String) (i : Nat) (tree : Json) :
    List Value → Except MacroError (Option Json)
  | key :: v :: rest =>
    if tree.isTree then do
      let tree ← setEntry args function i key v tree
      setEntries? args function (i + 2) tree rest
    else .ok none
  | _ => .ok (some tree)

/-- `json.set`, which comes to such an arm with every key and value that it sets. -/
def jsonSetWithArm : Builtin :=
  { jsonSet with function := .computes fun name args => do
      if args.length % 2 = 0 then fault name (args.length - 1) .unpairedKeys
      else
        let tree ← treeOr args name 0 (.object [])
        match ← setEntries? args name 1 tree (args.drop 1) with
        | some j => pure (.tree j)
        | none => w.arm name args }

/-- The functions on trees. -/
def trees : List Builtin :=
  [w.withArm jsonGet, w.jsonSetWithArm, w.withArm jsonLength, w.withArm jsonFields, jsonType,
    jsonIsEmpty, w.withArm jsonContains, jsonAppend, w.withArm jsonRemove, jsonIndent, jsonFromList,
    jsonFromStrProp, jsonToList, jsonToStrProp]

/-- All built-in functions. -/
def builtins : List Builtin :=
  propertyLists ++ stringLists ++ w.trees ++ control ++ functions ++ links ++ tokens ++ chat ++
    turnOrder ++ diceRolls

end Functions

/-! ## Calls -/

/-- Calls that nest up to a depth, each of them watched. -/
def calls : Nat → Calls
  | 0 => .none (.ofList w.builtins)
  | n + 1 => {
      evaluate := fun body => w.around (w.evaluateBody (calls n) body)
      builtin := fun name args =>
        w.along args Value.IsProper (Registry.call (.ofList w.builtins) (calls n) name args)
      hasBuiltin := Registry.contains (.ofList w.builtins) }

end Watch

end Tabletop
