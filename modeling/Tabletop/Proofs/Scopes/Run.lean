import Tabletop.Macro.Engine
import Tabletop.Proofs.Function.Alike
import Tabletop.Proofs.Scopes.Evaluator

/-
  Runs among scopes.

  1. **Expressions and bodies** — what is evaluated in a scope realizes what is evaluated on variables of
     its own, by induction on the expression and on the segments; at a call the calls have to.

  2. **Built-in functions** — every one of them does, next to the one that stands in its place among
     scopes (`Scoped.alike_builtins`).

  3. **Depths** — so calls do at every depth (`Scoped.calls_realize`), and a body does, wherever it runs
     (`Scoped.evaluate_realizes`).
-/
namespace Tabletop

open ScopedAction (Realizes)

/-- Calls among scopes realize calls. -/
structure ScopedCalls.Realizes (calls : ScopedCalls) (own : Calls) : Prop where
  evaluate : ∀ body, ScopedAction.Realizes (calls.evaluate body) (own.evaluate body)
  builtin : ∀ name args, ScopedAction.Realizes (calls.builtin name args) (own.builtin name args)
  hasBuiltin : calls.hasBuiltin = own.hasBuiltin

/-- What runs with a tree of its own makes the same calls. -/
theorem ScopedCalls.Realizes.alone_eq {calls : ScopedCalls} {own : Calls} (h : calls.Realizes own) :
    calls.alone = own := by
  have hevaluate : (fun body => (calls.evaluate body).alone) = own.evaluate :=
    funext fun body => (h.evaluate body).alone_eq
  have hbuiltin : (fun name args => (calls.builtin name args).alone) = own.builtin :=
    funext fun name => funext fun args => (h.builtin name args).alone_eq
  unfold alone
  rw [hevaluate, hbuiltin, h.hasBuiltin]

namespace Scoped

/-! ## Starting a body -/

section Starting

variable {evaluate : String → ScopedAction Unit} {own : String → Action Unit}
  (h : ∀ body, Realizes (evaluate body) (own body))
include h

/-- A function runs its body in a child of the scope of the call. -/
theorem invoke_realizes (g : UserFunction) (args : List Value) :
    Realizes (invoke evaluate g args) (Tabletop.invoke own g args) := by
  -- the call of a function, as one nested body
  have hinvoke : Tabletop.invoke own g args = (do
      let caller ← Action.frame
      let n ← Action.nestedReturn (g.frame caller) (!g.definition.freshVariables) (g.prepared own args)
      pure (g.definition.result n)) := by
    funext f s
    rw [invoke_eq_nestedReturn]
    rfl
  rw [hinvoke]
  refine .bind (.inScope _) fun caller => .bind (.inChild ?_ _ _) fun n => .pure _
  exact .bind (.inScope _) fun _ => .bind (.inScope _) fun _ => .untilAbort (h _)

/-- So does text that is evaluated. -/
theorem runText_realizes (text : String) (share : Bool) :
    Realizes (runText evaluate text share) (Tabletop.runText own text share) := by
  -- the evaluation of text, as one nested body
  have htext : Tabletop.runText own text share = (do
      let caller ← Action.frame
      let n ← Action.nestedReturn caller share (own text)
      pure (Value.ofOutput n.output)) := by
    funext f s
    rw [runText_eq_nestedReturn]
    rfl
  rw [htext]
  exact .bind (.inScope _) fun caller => .bind (.inChild (h text) _ _) fun n => .pure _

/-- A macro that is run by its name has a tree of its own: nothing is shared with it. -/
theorem runNamed_realizes (name arguments : String) :
    Realizes (runNamed evaluate name arguments) (Tabletop.runNamed own name arguments) := by
  have hevaluate : (fun body => (evaluate body).alone) = own := funext fun body => (h body).alone_eq
  unfold runNamed
  rw [hevaluate]
  exact .inScope _

end Starting

/-! ## Expressions and bodies -/

section Evaluation

variable {calls : ScopedCalls} {own : Calls}

/-- A call goes to the function that the table has under the name, or to a built-in one. -/
theorem callFunction_realizes (h : calls.Realizes own) (name : String) (args : List Value) :
    Realizes (callFunction calls name args) (own.call name args) := by
  refine .bind (.inScope _) fun s => ?_
  cases s.table.functions.get? name with
  | some g => exact invoke_realizes h.evaluate g args
  | none => exact h.builtin name args

variable {call : String → List Value → ScopedAction Value} {call' : String → List Value → Action Value}

mutual

/-- Expressions, by induction: only calls run bodies, everything else is done in the scope itself. -/
theorem evaluateExpr_realizes (h : ∀ name args, Realizes (call name args) (call' name args)) :
    ∀ x : Expr, Realizes (evaluateExpr call x) (Tabletop.evaluateExpr call' x)
  | .literal _ => .pure _
  | .dice _ => .inScope _
  | .variable _ => .inScope _
  | .call name args => .bind (evaluateArguments_realizes h args) fun vs => h name vs
  | .assign _ x => .bind (evaluateExpr_realizes h x) fun _ => .bind (.inScope _) fun _ => .pure _
  | .unary _ x => .bind (evaluateExpr_realizes h x) fun _ => .inScope _
  | .binary op l r => by
    have hl := evaluateExpr_realizes h l
    have hr := evaluateExpr_realizes h r
    -- `and` and `or` may leave out their right side; the others evaluate both
    cases op with
    | and =>
      refine .bind hl fun v => ?_
      cases v.isTrue with
      | true => exact .bind hr fun _ => .pure _
      | false => exact .pure _
    | or =>
      refine .bind hl fun v => ?_
      cases v.isTrue with
      | true => exact .pure _
      | false => exact .bind hr fun _ => .pure _
    | _ => exact .bind hl fun _ => .bind hr fun _ => .inScope _

/-- Arguments, from left to right. -/
theorem evaluateArguments_realizes (h : ∀ name args, Realizes (call name args) (call' name args)) :
    ∀ xs : List Expr, Realizes (evaluateArguments call xs) (Tabletop.evaluateArguments call' xs)
  | [] => .pure _
  | x :: xs => .bind (evaluateExpr_realizes h x) fun _ =>
      .bind (evaluateArguments_realizes h xs) fun _ => .pure _

end

/-- Statements, one after the other. -/
theorem evaluateStatements_realizes (h : ∀ name args, Realizes (call name args) (call' name args))
    (v : Value) (xs : List Expr) :
    Realizes (evaluateStatements call v xs) (Tabletop.evaluateStatements call' v xs) := by
  induction xs generalizing v with
  | nil => exact .pure v
  | cons x xs ih => exact .bind (evaluateExpr_realizes h x) fun v => ih v

/-- Source text, which may not be one that can be read. -/
theorem evaluateSource_realizes (h : ∀ name args, Realizes (call name args) (call' name args))
    (source : String) :
    Realizes (evaluateSource call source) (Tabletop.evaluateSource call' source) := by
  unfold evaluateSource Tabletop.evaluateSource
  cases Expr.parse source with
  | error e => exact .inScope _
  | ok xs => exact evaluateStatements_realizes h .empty xs

/-- One segment of a body: its text, or its expression with what is made of the value. -/
theorem runSegment_realizes (h : calls.Realizes own) (x : Segment) :
    Realizes (runSegment calls x) (Tabletop.runSegment own x) := by
  cases x with
  | text s => exact .inScope _
  | expression options source =>
    refine .bind (evaluateSource_realizes (callFunction_realizes h) source) fun v => ?_
    cases options.macroName with
    | none => exact .bind (.pure _) fun _ => .inScope _
    | some name => exact .bind (runNamed_realizes h.evaluate _ _) fun _ => .inScope _

/-- **A body among scopes** does what the body does on variables of its own. -/
theorem evaluateBody_realizes (h : calls.Realizes own) (body : String) :
    Realizes (evaluateBody calls body) (Tabletop.evaluateBody own body) := by
  unfold evaluateBody Tabletop.evaluateBody
  cases Segment.ofBody body with
  | error bracket => exact .inScope _
  | ok segments =>
    show Realizes (runSegments calls segments) (Tabletop.runSegments own segments)
    induction segments with
    | nil => exact .pure ()
    | cons x xs ih => exact .bind (runSegment_realizes h x) fun _ => ih

end Evaluation

/-! ## Built-in functions -/

open Registry Builtin

/-- With calls that realize each other, the function among scopes realizes the function. -/
def Stands (b : Behaviour) (b' : ScopedCalls → String → List Value → ScopedAction Value) : Prop :=
  ∀ calls own, ScopedCalls.Realizes calls own → ∀ name args,
    Realizes (b' calls name args) (b.run own name args)

/-- A function that runs in the scope of its caller.  If it runs bodies, these are on their own. -/
theorem alike_ofBuiltin (b : Builtin) : Alike Stands b (ofBuiltin b) := by
  refine ⟨rfl, fun calls own h name args => ?_⟩
  dsimp only [ofBuiltin]
  rw [h.alone_eq]
  exact .inScope _

/-- Functions that are run in the scope of their caller, all in their order. -/
theorem alike_map (bs : List Builtin) : List.Forall₂ (Alike Stands) bs (bs.map ofBuiltin) :=
  List.forall₂_map_right_iff.2 (List.forall₂_same.2 fun b _ => alike_ofBuiltin b)

/-- The function that a function replaced. -/
theorem callOlder_realizes {calls : ScopedCalls} {own : Calls} (h : calls.Realizes own) (g : UserFunction)
    (args : List Value) : Realizes (callOlder calls g args) (Builtin.callOlder own g args) := by
  unfold callOlder Builtin.callOlder
  cases g.older? with
  | none => exact h.builtin g.name args
  | some older => exact invoke_realizes h.evaluate older args

/-- `oldFunction` calls by way of the function that runs, if there is one. -/
theorem alike_oldFunction : Alike Stands Builtin.oldFunction oldFunction := by
  refine ⟨rfl, fun calls own h name args => ?_⟩
  refine .bind (.inScope _) fun caller => ?_
  cases caller.function with
  | none => exact .inScope _
  | some g => exact callOlder_realizes h g args

/-- The functions about functions: three of the seven start bodies that share, or not, with the caller.
    -/
theorem alike_functions : List.Forall₂ (Alike Stands) Builtin.functions functions :=
  .cons (alike_ofBuiltin _) <| .cons (alike_ofBuiltin _) <| .cons alike_oldFunction <|
    .cons ⟨rfl, fun _ _ h _ _ => runText_realizes h.evaluate _ _⟩ <|
    .cons ⟨rfl, fun _ _ h _ _ => runText_realizes h.evaluate _ _⟩ <|
    .cons (alike_ofBuiltin _) <| .cons (alike_ofBuiltin _) .nil

/-- **Every built-in function** is realized by the one that stands in its place. -/
theorem alike_builtins : List.Forall₂ (Alike Stands) Builtin.all builtins := by
  -- in the order of the registry, the functions about functions stand between the others
  have hsplit : Builtin.all = (propertyLists ++ stringLists ++ trees ++ control) ++ Builtin.functions ++
      (links ++ tokens ++ chat ++ turnOrder ++ diceRolls) := by
    simp only [Builtin.all, List.append_assoc]
  rw [hsplit]
  exact List.rel_append (List.rel_append (alike_map _) alike_functions) (alike_map _)

/-- A built-in function is found under the same name, with the same checks in front of it. -/
theorem callBuiltin_realizes {calls : ScopedCalls} {own : Calls} (h : calls.Realizes own) (name : String)
    (args : List Value) : Realizes (callBuiltin calls name args) (Registry.builtins.call own name args) := by
  unfold callBuiltin Registry.call Registry.builtins
  -- the two registries have entries side by side
  have hfind := find?_ofList_alike alike_builtins name
  generalize (ofList Builtin.all).find? name = b at hfind
  generalize (ofList builtins).find? name = b' at hfind
  cases hfind with
  | none => exact .inScope _
  | @some b b' hb =>
    have hrun : Realizes (b'.function calls name args >>= fun v => pure v.coerced)
        (b.function.run own name args >>= fun v => pure v.coerced) :=
      .bind (hb.2 calls own h name args) fun v => .pure _
    dsimp only
    rw [hb.1]
    -- the arguments may be too few or too many; then the function may ask for trust
    split
    · split
      · exact .bind (.inScope _) fun _ => hrun
      · exact hrun
    · exact .inScope _

/-! ## Depths -/

/-- **Calls among scopes** realize calls, at every depth. -/
theorem calls_realize (depth : Nat) : (calls depth).Realizes (.ofDepth .builtins depth) := by
  have hnames : Registry.contains (.ofList builtins) = Registry.builtins.contains :=
    contains_ofList_alike alike_builtins
  -- at depth 0 every call is refused, and one depth is made of the calls of the depth below
  induction depth with
  | zero => exact ⟨fun _ => .throw _, fun _ _ => .throw _, hnames⟩
  | succ n ih => exact ⟨evaluateBody_realizes ih, callBuiltin_realizes ih, hnames⟩

end Scoped

end Tabletop
