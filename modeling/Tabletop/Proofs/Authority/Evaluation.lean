import Tabletop.Proofs.Authority.Lawful
import Tabletop.Macro.Evaluate
import Tabletop.Macro.Follow

/-
  Evaluation stays within the authority of its frame.

  Evaluation goes down the expression and along the segments, and every call in it leads to a body or
  to a built-in function.  If all these calls are lawful, so is the evaluation: `Calls.Lawful` is the
  hypothesis that the recursion over the depth of calls supplies.

  1. **Bodies** — a macro runs with the trust of its origin; one that is started by name runs for the
     subject of its starter, with the trust of the token that holds it.

  2. **Expressions** — the induction has one case for each kind of expression.

  3. **Links** — following a link starts macros for other subjects and writes to chat, so only a
     trusted macro may do it.
-/
namespace Tabletop

/-- The calls of a body are lawful in every frame. -/
structure Calls.Lawful (calls : Calls) : Prop where
  evaluate : ∀ f body, Action.Lawful f (calls.evaluate body)
  builtin : ∀ f name args, Action.Lawful f (calls.builtin name args)

open Tabletop.Action (Lawful)

/-! ## Bodies -/

variable {evaluate : String → Action Unit}

/-- A body that is run at a table leaves the table that its evaluation leaves. -/
theorem runBody_table (evaluate : String → Action Unit) (body : String) (r : RunRequest)
    (t : Table) :
    (runBody evaluate body r t).2 =
      (evaluate body (r.frame (t.campaign.trusts r.origin)) ⟨t, r.bindings, ""⟩).2.table := by
  unfold runBody
  rcases evaluate body (r.frame (t.campaign.trusts r.origin)) ⟨t, r.bindings, ""⟩ with ⟨end_, s⟩
  rcases end_ with i | u
  · cases i <;> rfl
  · rfl

/-- A body runs with the subject that it is given and the trust of its origin. -/
theorem runBody_course (h : ∀ f body, Lawful f (evaluate body)) (body : String) (r : RunRequest)
    (t : Table) :
    Table.Course ⟨r.subject, t.campaign.trusts r.origin⟩ t (runBody evaluate body r t).2 := by
  rw [runBody_table]
  exact h (r.frame (t.campaign.trusts r.origin)) body ⟨t, r.bindings, ""⟩

/-- A macro that was found may be started for the subject of the starter, and for others by a trusted
    starter. -/
theorem runLocated_lawful (h : ∀ f body, Lawful f (evaluate body)) {a : Authority}
    {subject : Option TokenId} (may : a.trusted = true ∨ subject = a.subject) (m : LocatedMacro)
    (arguments player : String) :
    TableM.Lawful a (runLocated evaluate m arguments subject player) := by
  intro t
  have inner := runBody_course h m.body (.ofLocated m player subject arguments) t
  exact (Table.Course.nothing a t).start m.holder subject may inner

variable {f : Frame}

/-- A macro by its name runs for the subject of the macro that starts it. -/
theorem runNamed_lawful (h : ∀ f body, Lawful f (evaluate body)) (name arguments : String) :
    Lawful f (runNamed evaluate name arguments) := by
  refine Lawful.frame_bind (.bind .campaign fun c => .bind (.ofExcept _) fun m => ?_)
  refine .bind (.atTable (runLocated_lawful h (.inr rfl) m arguments f.player)) fun output => ?_
  split
  · exact .bind (.bindVariable _ _) fun _ => .pure _
  · exact .bind (.pure _) fun _ => .pure _

/-! ## Functions and text -/

/-- The body of a function runs in a frame with the authority of its caller. -/
theorem invoke_lawful (h : ∀ f body, Lawful f (evaluate body)) (g : UserFunction)
    (args : List Value) : Lawful f (invoke evaluate g args) := by
  refine Lawful.frame_bind (.bind (.nested rfl ?_) fun n => .bind (.passReturn n) fun _ => .pure _)
  exact .bind (.modifyVariables _) fun _ => .bind (.modifyVariables _) fun _ => .untilAbort (h _ _)

/-- Text runs in the frame of its caller. -/
theorem runText_lawful (h : ∀ f body, Lawful f (evaluate body)) (text : String) (share : Bool) :
    Lawful f (runText evaluate text share) :=
  Lawful.frame_bind (.bind (.nested rfl (h _ _)) fun n => .bind (.passReturn n) fun _ => .pure _)

/-- A function is user-defined or built in, and both are lawful. -/
theorem Calls.Lawful.call {calls : Calls} (h : calls.Lawful) (f : Frame) (name : String)
    (args : List Value) : Action.Lawful f (calls.call name args) := by
  refine .bind .get fun s => ?_
  split
  · exact invoke_lawful h.evaluate _ args
  · exact h.builtin f name args

/-! ## Expressions -/

/-- Rolling changes the dice and nothing else. -/
theorem rollDice_lawful (e : Dice.Expression) : Lawful f (rollDice e) := by
  intro s
  exact (Table.Change.roll _).course

theorem evaluateDice_lawful (notation_ : String) : Lawful f (evaluateDice notation_) := by
  unfold evaluateDice
  split
  · exact .failEvaluation _
  · refine .bind (rollDice_lawful _) fun r => ?_
    split
    · exact .failEvaluation _
    · exact .pure _

/-- A name is looked up among the variables and the properties of the subject. -/
theorem evaluateName_lawful (name : String) : Lawful f (evaluateName name) := by
  refine .bind (.lookup? name) fun v => ?_
  split
  · exact .pure _
  · split
    · exact .pure _
    · split
      · exact .pure _
      · exact .failEvaluation _

section Expressions

variable {call : String → List Value → Action Value}

mutual

/-- An expression is as lawful as the calls in it. -/
theorem evaluateExpr_lawful (h : ∀ name args, Lawful f (call name args)) :
    ∀ x : Expr, Lawful f (evaluateExpr call x)
  | .literal v => .pure v
  | .dice s => evaluateDice_lawful s
  | .variable name => evaluateName_lawful name
  | .call name args => .bind (evaluateArguments_lawful h args) fun vs => h name vs
  | .assign name x =>
    .bind (evaluateExpr_lawful h x) fun v => .bind (.bindVariable name v) fun _ => .pure v
  | .unary op x => .bind (evaluateExpr_lawful h x) fun _ => .ofEvaluation _
  | .binary op l r => by
    have hl := evaluateExpr_lawful h l
    have hr := evaluateExpr_lawful h r
    cases op with
    | and =>
      refine .bind hl fun v => ?_
      split
      · exact .bind hr fun _ => .pure _
      · exact .pure _
    | or =>
      refine .bind hl fun v => ?_
      split
      · exact .pure _
      · exact .bind hr fun _ => .pure _
    | _ => exact .bind hl fun a => .bind hr fun b => .ofEvaluation _

theorem evaluateArguments_lawful (h : ∀ name args, Lawful f (call name args)) :
    ∀ xs : List Expr, Lawful f (evaluateArguments call xs)
  | [] => .pure []
  | x :: xs =>
    .bind (evaluateExpr_lawful h x) fun _ => .bind (evaluateArguments_lawful h xs) fun _ => .pure _

end

theorem evaluateStatements_lawful (h : ∀ name args, Lawful f (call name args)) (v : Value)
    (xs : List Expr) : Lawful f (evaluateStatements call v xs) := by
  induction xs generalizing v with
  | nil => exact .pure v
  | cons x xs ih => exact .bind (evaluateExpr_lawful h x) fun v => ih v

/-- A text that cannot be read does nothing at all. -/
theorem evaluateSource_lawful (h : ∀ name args, Lawful f (call name args)) (source : String) :
    Lawful f (evaluateSource call source) := by
  unfold evaluateSource
  split
  · exact .failEvaluation _
  · exact evaluateStatements_lawful h _ _

end Expressions

/-! ## Segments -/

variable {calls : Calls}

theorem runSegment_lawful (h : calls.Lawful) (s : Segment) : Lawful f (runSegment calls s) := by
  cases s with
  | text s => exact .emit s
  | expression options source =>
    refine .bind (evaluateSource_lawful (h.call f) source) fun v => ?_
    -- the shown value may go through another macro first
    cases options.macroName with
    | some name => exact .bind (runNamed_lawful h.evaluate _ _) fun _ => .emit _
    | none => exact .bind (.pure _) fun _ => .emit _

theorem runSegments_lawful (h : calls.Lawful) (segments : List Segment) :
    Lawful f (runSegments calls segments) := by
  induction segments with
  | nil => exact .pure ()
  | cons s rest ih => exact .bind (runSegment_lawful h s) fun _ => ih

/-- **A body stays within the authority of its frame** if its calls do. -/
theorem evaluateBody_lawful (h : calls.Lawful) (body : String) : Lawful f (evaluateBody calls body) := by
  unfold evaluateBody
  split
  · exact .failEvaluation _
  · exact runSegments_lawful h _

/-! ## Links -/

section Links

variable {a : Authority} (trusted : a.trusted = true)
include trusted

/-- Messages are sent one after the other. -/
theorem deliver_course (sender text : String) (channels : List Channel) (t : Table) :
    Table.Course a t { t with
      campaign := channels.foldl (fun c channel => c.deliver ⟨channel, sender, text⟩) t.campaign } := by
  induction channels generalizing t with
  | nil => exact .nothing a t
  | cons channel rest ih =>
    exact (Table.Change.deliver trusted ⟨channel, sender, text⟩).course.trans (ih _)

/-- A trusted macro may start a macro for any subject, and deliver what it says. -/
theorem runRecipient_lawful (h : ∀ f body, Lawful f (evaluate body)) (link : MacroLink)
    (player : String) (r : Recipient) : TableM.Lawful a (runRecipient evaluate link player r) := by
  refine .bind (.ofExcept _) fun subject => .bind .campaign fun c => .bind (.ofExcept _) fun m => ?_
  refine .bind (runLocated_lawful h (.inl trusted) m _ player) fun output => ?_
  split
  · exact .pure _
  · exact .bind (deliver_course trusted player output.text _) fun _ => .pure _

theorem runRecipients_lawful (h : ∀ f body, Lawful f (evaluate body)) (link : MacroLink)
    (player : String) (report : LinkReport) (rs : List Recipient) :
    TableM.Lawful a (runRecipients evaluate link player report rs) := by
  induction rs generalizing report with
  | nil => exact .pure report
  | cons r rs ih => exact .bind (runRecipient_lawful trusted h link player r) fun _ => ih _

theorem runRecipientsApart_lawful (h : ∀ f body, Lawful f (evaluate body)) (link : MacroLink)
    (player : String) (report : LinkReport) (rs : List Recipient) :
    TableM.Lawful a (runRecipientsApart evaluate link player report rs) := by
  induction rs generalizing report with
  | nil => exact .pure report
  | cons r rs ih =>
    -- an error is put on record, and the next recipient has its turn all the same
    refine .bind (.attempt (runRecipient_lawful trusted h link player r)) fun result => ?_
    split
    · exact ih _
    · exact ih _

/-- Following a link is in the authority of every trusted macro. -/
theorem followLink_lawful (h : ∀ f body, Lawful f (evaluate body)) (text player : String)
    (apart : Bool) : TableM.Lawful a (followLink evaluate text player apart) := by
  unfold followLink
  split
  · exact .fail _
  · refine .bind .campaign fun c => ?_
    split
    · exact runRecipientsApart_lawful trusted h _ player _ _
    · exact runRecipients_lawful trusted h _ player _ _

end Links

end Tabletop
