import Tabletop.Proofs.Authority.Lawful
import Tabletop.Macro.Evaluate

/-
  Expressions do not show anything.

  The text of a body is the text of its segments.  While an expression is evaluated, whatever it calls,
  the text that its body has produced so far is neither looked at nor added to: text that is produced
  on the way belongs to other bodies, and comes back as a value at most.

  1. **Silence** — `Action.Silent act`: in place of the text so far there could be any other text;
     `act` would do the same and hand that text back as it is.

  2. **Nested bodies** — `nested` is silent whatever it runs, because the action inside starts with a
     text of its own.  So calls of functions, text that is evaluated and macros by name need nothing
     of the bodies that they run.

  3. **Expressions** — the induction has one case for each kind of expression and asks for silence of
     the built-in functions alone (`Calls.Silent`).
-/
namespace Tabletop

/-- The state with the text so far changed. -/
def RunState.mapOutput (g : String → String) (s : RunState) : RunState :=
  { s with output := g s.output }

namespace Action

variable {α β : Type}

/-- The action neither looks at the text that its body has produced so far nor adds to it. -/
def Silent (act : Action α) : Prop :=
  ∀ f s g, act f (s.mapOutput g) = ((act f s).1, (act f s).2.mapOutput g)

namespace Silent

/-- The text behind a silent action is the text before it. -/
theorem output_eq {act : Action α} (h : Silent act) (f : Frame) (s : RunState) :
    (act f s).2.output = s.output := by
  -- the text of `s` in place of the text of `s`
  have hsame : act f s = ((act f s).1, (act f s).2.mapOutput fun _ => s.output) :=
    h f s fun _ => s.output
  rw [hsame]
  rfl

/-! ## Single steps -/

theorem pure (a : α) : Silent (Pure.pure a : Action α) := fun _ _ _ => rfl

theorem throw (i : Interrupt) : Silent (MonadExcept.throw i : Action α) := fun _ _ _ => rfl

theorem fail (e : MacroError) : Silent (Action.fail e : Action α) := fun _ _ _ => rfl

theorem failEvaluation (e : EvaluationFault) : Silent (Action.failEvaluation e : Action α) :=
  fun _ _ _ => rfl

/-- An answer or an error, and no text. -/
theorem ofExcept (r : Except MacroError α) : Silent (Action.ofExcept r) := by
  cases r with
  | ok a => exact pure a
  | error e => exact throw _

theorem ofEvaluation (r : Except EvaluationFault α) : Silent (Action.ofEvaluation r) := by
  cases r with
  | ok a => exact pure a
  | error e => exact failEvaluation e

theorem frame : Silent Action.frame := fun _ _ _ => rfl

theorem campaign : Silent Action.campaign := fun _ _ _ => rfl

theorem lookup? (name : String) : Silent (Action.lookup? name) := fun _ _ _ => rfl

/-- Variables are no text. -/
theorem modifyVariables (g : Variables → Variables) : Silent (Action.modifyVariables g) :=
  fun _ _ _ => rfl

theorem bindVariable (name : String) (v : Value) : Silent (Action.bindVariable name v) :=
  modifyVariables _

theorem modifyCampaign (g : Campaign → Campaign) : Silent (Action.modifyCampaign g) :=
  fun _ _ _ => rfl

/-- What happens at the table is not in the text of the body. -/
theorem atTable (act : TableM α) : Silent (Action.atTable act) := fun _ _ _ => rfl

/-- A change of the state that leaves the text out. -/
theorem modify {g : RunState → RunState} (h : ∀ s k, g (s.mapOutput k) = (g s).mapOutput k) :
    Silent (MonadState.modifyGet fun s => ((), g s) : Action Unit) := by
  intro f s k
  show (Except.ok (), g (s.mapOutput k)) = _
  rw [h]
  rfl

/-! ## One after the other -/

/-- If neither shows anything, both together do not. -/
theorem bind {act : Action α} {k : α → Action β} (h : Silent act) (hk : ∀ a, Silent (k a)) :
    Silent (act >>= k) := by
  intro f s g
  rw [bind_apply, bind_apply, h f s g]
  rcases act f s with ⟨r, u⟩
  cases r with
  | ok a => exact hk a f u g
  | error i => rfl

/-- What follows may look at the state, but not at the text in it. -/
theorem get_bind {k : RunState → Action α} (hk : ∀ s, Silent (k s))
    (h : ∀ s g, k (s.mapOutput g) = k s) : Silent (MonadState.get >>= k) := by
  intro f s g
  show k (s.mapOutput g) f (s.mapOutput g) = _
  rw [h]
  exact hk s f s g

/-- A nested body has a text of its own, so nothing is asked of it. -/
theorem nested (f : Frame) (share : Bool) (act : Action α) : Silent (Action.nested f share act) := by
  intro g s k
  unfold Action.nested
  dsimp only [RunState.mapOutput]
  rcases act f ⟨s.table, if share then s.bindings else [], ""⟩ with ⟨r, t⟩
  cases r <;> rfl

/-- What is handed back is bound, and not shown. -/
theorem passReturn (n : Nested α) : Silent (Action.passReturn n) := by
  unfold Action.passReturn
  split
  · exact bindVariable _ _
  · exact pure ()

/-! ## Trust and tokens -/

/-- A check shows nothing, whether it is passed or not. -/
theorem requireTrust (function : String) : Silent (Action.requireTrust function) := by
  refine bind frame fun f => ?_
  split
  · exact pure ()
  · exact fail _

theorem requireSubject (function : String) : Silent (Action.requireSubject function) := by
  refine bind frame fun f => ?_
  split
  · exact pure _
  · exact fail _

theorem subjectToken (function : String) : Silent (Action.subjectToken function) := by
  refine bind (requireSubject function) fun id => bind campaign fun c => ?_
  split
  · exact pure _
  · exact fail _

theorem namedToken (function idOrName : String) : Silent (Action.namedToken function idOrName) := by
  refine bind campaign fun c => ?_
  split
  · exact pure _
  · exact fail _

end Silent

end Action

open Tabletop.Action (Silent)

/-! ## Calls -/

/-- The built-in functions that a body can call are silent. -/
def Calls.Silent (calls : Calls) : Prop := ∀ name args, Action.Silent (calls.builtin name args)

variable (evaluate : String → Action Unit)

/-- A user-defined function shows nothing by itself: its text is its own. -/
theorem invoke_silent (g : UserFunction) (args : List Value) : Silent (invoke evaluate g args) := by
  refine .bind .frame fun caller => .bind (.nested _ _ _) fun n => ?_
  exact .bind (.passReturn n) fun _ => .pure _

/-- Nor does text that is run. -/
theorem runText_silent (text : String) (share : Bool) : Silent (runText evaluate text share) := by
  refine .bind .frame fun caller => .bind (.nested _ _ _) fun n => ?_
  exact .bind (.passReturn n) fun _ => .pure _

/-- Nor does a macro that is run by its name. -/
theorem runNamed_silent (name arguments : String) : Silent (runNamed evaluate name arguments) := by
  refine .bind .frame fun f => .bind .campaign fun c => .bind (.ofExcept _) fun m => ?_
  refine .bind (.atTable _) fun output => ?_
  split
  · exact .bind (.bindVariable _ _) fun _ => .pure _
  · exact .bind (.pure _) fun _ => .pure _

variable {calls : Calls}

/-- A call by name shows nothing. -/
theorem Calls.Silent.call (h : calls.Silent) (name : String) (args : List Value) :
    Action.Silent (calls.call name args) := by
  refine .get_bind (fun s => ?_) fun s g => rfl
  split
  · exact invoke_silent calls.evaluate _ args
  · exact h name args

/-! ## Expressions -/

theorem rollDice_silent (e : Dice.Expression) : Silent (rollDice e) := fun _ _ _ => rfl

/-- Dice make a value. -/
theorem evaluateDice_silent (notation_ : String) : Silent (evaluateDice notation_) := by
  unfold evaluateDice
  split
  · exact .failEvaluation _
  · refine .bind (rollDice_silent _) fun r => ?_
    split
    · exact .failEvaluation _
    · exact .pure _

/-- A name has a value. -/
theorem evaluateName_silent (name : String) : Silent (evaluateName name) := by
  refine .bind (.lookup? name) fun v => ?_
  split
  · exact .pure _
  · split
    · exact .pure _
    · split
      · exact .pure _
      · exact .failEvaluation _

section Expressions

variable {call : String → List Value → Action Value}

mutual

/-- An expression is silent if the calls in it are. -/
theorem evaluateExpr_silent (h : ∀ name args, Silent (call name args)) :
    ∀ x : Expr, Silent (evaluateExpr call x)
  | .literal v => .pure v
  | .dice s => evaluateDice_silent s
  | .variable name => evaluateName_silent name
  | .call name args => .bind (evaluateArguments_silent h args) fun vs => h name vs
  | .assign name x =>
    .bind (evaluateExpr_silent h x) fun v => .bind (.bindVariable name v) fun _ => .pure v
  | .unary op x => .bind (evaluateExpr_silent h x) fun _ => .ofEvaluation _
  | .binary op l r => by
    have hl := evaluateExpr_silent h l
    have hr := evaluateExpr_silent h r
    -- `and` and `or` may leave out their right side; the others evaluate both
    cases op with
    | and =>
      refine .bind hl fun v => ?_
      split
      · exact .bind hr fun _ => .pure _
      · exact .pure _
    | or =>
      refine .bind hl fun v => ?_
      split
      · exact .pure _
      · exact .bind hr fun _ => .pure _
    | _ => exact .bind hl fun a => .bind hr fun b => .ofEvaluation _

theorem evaluateArguments_silent (h : ∀ name args, Silent (call name args)) :
    ∀ xs : List Expr, Silent (evaluateArguments call xs)
  | [] => .pure []
  | x :: xs =>
    .bind (evaluateExpr_silent h x) fun _ => .bind (evaluateArguments_silent h xs) fun _ => .pure _

end

/-- Statements have a value, too, and show nothing. -/
theorem evaluateStatements_silent (h : ∀ name args, Silent (call name args)) (v : Value)
    (xs : List Expr) : Silent (evaluateStatements call v xs) := by
  induction xs generalizing v with
  | nil => exact .pure v
  | cons x xs ih => exact .bind (evaluateExpr_silent h x) fun v => ih v

/-- **A source text is silent** if the calls in it are. -/
theorem evaluateSource_silent (h : ∀ name args, Silent (call name args)) (source : String) :
    Silent (evaluateSource call source) := by
  unfold evaluateSource
  split
  · exact .failEvaluation _
  · exact evaluateStatements_silent h _ _

end Expressions

/-! ## Segments -/

/-- What an expression segment does before it shows its value. -/
def shownText (calls : Calls) (options : BracketOptions) (source : String) : Action String := do
  let v ← evaluateSource calls.call source
  match options.macroName with
  | some name => runNamed calls.evaluate name v.display
  | none => pure v.display

/-- An expression segment finds its text, which is all that can stop it, and then shows it. -/
theorem runSegment_expression (calls : Calls) (options : BracketOptions) (source : String) :
    runSegment calls (.expression options source) = (do
      let shown ← shownText calls options source
      Action.emit (options.output.written source shown)) := by
  obtain ⟨output, macroName⟩ := options
  unfold shownText
  rw [bind_assoc]
  cases macroName <;> rfl

/-- The text that a bracket is to show is made first, and shown behind that. -/
theorem shownText_silent (h : calls.Silent) (options : BracketOptions) (source : String) :
    Silent (shownText calls options source) := by
  refine .bind (evaluateSource_silent h.call source) fun v => ?_
  split
  · exact runNamed_silent calls.evaluate _ _
  · exact .pure _

/-- **A segment that is stopped has shown nothing.** -/
theorem output_of_runSegment_error (h : calls.Silent) {x : Segment} {f : Frame} {s u : RunState}
    {i : Interrupt} (hx : runSegment calls x f s = (.error i, u)) : u.output = s.output := by
  cases x with
  | text t => cases hx
  | expression options source =>
    have hsilent := (shownText_silent h options source).output_eq f s
    rw [runSegment_expression, Action.bind_apply] at hx
    rcases hshown : shownText calls options source f s with ⟨r, t⟩
    rw [hshown] at hx hsilent
    cases r with
    | ok shown => cases hx
    | error e =>
      cases hx
      exact hsilent

end Tabletop
