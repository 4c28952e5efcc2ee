import Tabletop.Proofs.Calls.Outcome
import Tabletop.Proofs.Values.Watched

/-
  Watched runs are the runs.

  1. **Agreement** — `Action.Agrees Q act act'`: from variables that are proper, `act'` does what `act`
     does, all that `act` can answer with is so, and the variables are proper behind it.  Every way of
     putting actions together keeps this, and so does watching (`Agrees.along`).

  2. **Bodies that are started** — an action that is nested starts with proper variables, its own or those
     of its caller, and leaves proper ones; so what it hands back is proper.

  3. **Expressions** — the induction has one case for each kind of expression.  It asks of the literals
     that they are proper, and of the functions that they answer with proper values to proper arguments.
-/
namespace Tabletop

/-! ## What happens at a table -/

namespace TableM

variable {α β : Type} {P : α → Prop} {Q : β → Prop}

/-- The second does what the first does, and all that the first can answer with is so. -/
def Agrees (Q : α → Prop) (act act' : TableM α) : Prop := ∀ t, act' t = act t ∧ OnlyAnswers Q (act t).1

namespace Agrees

/-- Of an action that is not watched nothing is asked but what it does. -/
theorem any (act : TableM α) : Agrees (fun _ => True) act act := fun _ => ⟨rfl, .any _⟩

/-- What follows agrees on the answers that the first can give. -/
theorem bind {act act' : TableM α} {k k' : α → TableM β} (h : Agrees P act act')
    (hk : ∀ a, P a → Agrees Q (k a) (k' a)) : Agrees Q (act >>= k) (act' >>= k') := by
  intro t
  obtain ⟨heq, hanswer⟩ := h t
  rw [bind_apply, bind_apply, heq]
  rcases hact : act t with ⟨r, u⟩
  rw [hact] at hanswer
  cases r with
  | error i => exact ⟨rfl, .error i⟩
  | ok a => exact hk a (hanswer a rfl) u

/-- An error that is caught is an answer. -/
theorem attempt {act act' : TableM α} (h : Agrees P act act') :
    Agrees (fun _ => True) (TableM.attempt act) (TableM.attempt act') := by
  intro t
  refine ⟨?_, .any _⟩
  unfold TableM.attempt
  rw [(h t).1]

end Agrees

end TableM

/-! ## What a macro does -/

namespace Action

variable {α β : Type} {P : α → Prop} {Q : β → Prop}

/-- From proper variables the second does what the first does; all that the first can answer with is so,
    and it leaves proper variables. -/
def Agrees (Q : α → Prop) (act act' : Action α) : Prop :=
  ∀ f s, s.bindings.Proper →
    act' f s = act f s ∧ (act f s).2.bindings.Proper ∧ OnlyAnswers Q (act f s).1

namespace Agrees

/-- Less may be asked of the answers. -/
theorem mono {P' : α → Prop} {act act' : Action α} (h : Agrees P act act') (hP : ∀ a, P a → P' a) :
    Agrees P' act act' :=
  fun f s hs => ⟨(h f s hs).1, (h f s hs).2.1, fun a ha => hP a ((h f s hs).2.2 a ha)⟩

/-! ## Single steps -/

/-- An action that leaves the variables alone. -/
theorem of_bindings_eq {act : Action α} (h : ∀ f s, (act f s).2.bindings = s.bindings)
    (hP : ∀ f s, OnlyAnswers P (act f s).1) : Agrees P act act := by
  intro f s hs
  refine ⟨rfl, ?_, hP f s⟩
  rw [h f s]
  exact hs

theorem pure {a : α} (h : P a) : Agrees P (Pure.pure a : Action α) (Pure.pure a) :=
  of_bindings_eq (fun _ _ => rfl) fun _ _ => .ok h

theorem throw (i : Interrupt) :
    Agrees P (MonadExcept.throw i : Action α) (MonadExcept.throw i) :=
  of_bindings_eq (fun _ _ => rfl) fun _ _ => .error i

theorem fail (e : MacroError) : Agrees P (Action.fail e : Action α) (Action.fail e) := throw _

theorem failEvaluation (e : EvaluationFault) :
    Agrees P (Action.failEvaluation e : Action α) (Action.failEvaluation e) := throw _

/-- A computation that was made already. -/
theorem ofExcept {r : Except MacroError α} (h : OnlyAnswers P r) :
    Agrees P (Action.ofExcept r) (Action.ofExcept r) := by
  cases r with
  | ok a => exact pure (h a rfl)
  | error e => exact throw _

theorem ofEvaluation {r : Except EvaluationFault α} (h : OnlyAnswers P r) :
    Agrees P (Action.ofEvaluation r) (Action.ofEvaluation r) := by
  cases r with
  | ok a => exact pure (h a rfl)
  | error e => exact throw _

theorem frame : Agrees (fun _ => True) Action.frame Action.frame :=
  of_bindings_eq (fun _ _ => rfl) fun _ _ => .any _

theorem campaign : Agrees (fun _ => True) Action.campaign Action.campaign :=
  of_bindings_eq (fun _ _ => rfl) fun _ _ => .any _

theorem emit (text : String) : Agrees (fun _ => True) (Action.emit text) (Action.emit text) :=
  of_bindings_eq (fun _ _ => rfl) fun _ _ => .any _

theorem modifyCampaign (g : Campaign → Campaign) :
    Agrees (fun _ => True) (Action.modifyCampaign g) (Action.modifyCampaign g) :=
  of_bindings_eq (fun _ _ => rfl) fun _ _ => .any _

/-- A property is read as what it is coerced to. -/
theorem lookup? (name : String) :
    Agrees (fun v => ∀ x ∈ v, x.IsProper) (Action.lookup? name) (Action.lookup? name) := by
  intro f s hs
  refine ⟨rfl, hs, .ok ?_⟩
  intro v hv
  rcases Option.or_eq_some_iff.1 hv with hv | ⟨-, hv⟩
  · exact hs.get? hv
  · obtain ⟨id, -, hv⟩ := Option.bind_eq_some_iff.1 hv
    obtain ⟨t, -, hv⟩ := Option.bind_eq_some_iff.1 hv
    obtain ⟨text, -, hv⟩ := Option.bind_eq_some_iff.1 hv
    obtain rfl := Option.some.inj hv
    exact Value.isProper_coerce _

/-- Variables are changed in a way that keeps them proper. -/
theorem modifyVariables {g : Variables → Variables}
    (hg : ∀ vars : Variables, vars.Proper → (g vars).Proper) :
    Agrees (fun _ => True) (Action.modifyVariables g) (Action.modifyVariables g) :=
  fun _ s hs => ⟨rfl, hg s.bindings hs, .any _⟩

/-- A variable is set to a proper value. -/
theorem bindVariable (name : String) {v : Value} (hv : v.IsProper) :
    Agrees (fun _ => True) (Action.bindVariable name v) (Action.bindVariable name v) :=
  modifyVariables fun _ h => h.insert name hv

/-- What happens at the table does not reach the variables. -/
theorem atTable {act act' : TableM α} (h : TableM.Agrees P act act') :
    Agrees P (Action.atTable act) (Action.atTable act') := by
  intro f s hs
  obtain ⟨heq, hanswer⟩ := h s.table
  refine ⟨?_, hs, hanswer⟩
  unfold Action.atTable
  rw [heq]

/-! ## One after the other -/

/-- What follows agrees on the answers that the first can give, from the variables that it leaves. -/
theorem bind {act act' : Action α} {k k' : α → Action β} (h : Agrees P act act')
    (hk : ∀ a, P a → Agrees Q (k a) (k' a)) : Agrees Q (act >>= k) (act' >>= k') := by
  intro f s hs
  obtain ⟨heq, hbehind, hanswer⟩ := h f s hs
  rw [bind_apply, bind_apply, heq]
  rcases hact : act f s with ⟨r, u⟩
  rw [hact] at hbehind hanswer
  -- an interrupt leaves what follows alone
  cases r with
  | error i => exact ⟨rfl, hbehind, .error i⟩
  | ok a => exact hk a (hanswer a rfl) f u hbehind

/-- What follows may look at the variables, and they are proper. -/
theorem get_bind {k k' : RunState → Action β} (hk : ∀ s, s.bindings.Proper → Agrees Q (k s) (k' s)) :
    Agrees Q (MonadState.get >>= k) (MonadState.get >>= k') :=
  fun f s hs => hk s hs f s hs

/-- An abort leaves the variables as they are then. -/
theorem untilAbort {act act' : Action Unit} {R : Unit → Prop} (h : Agrees R act act') :
    Agrees (fun _ => True) (Action.untilAbort act) (Action.untilAbort act') := by
  intro f s hs
  obtain ⟨heq, hbehind, -⟩ := h f s hs
  refine ⟨?_, ?_, .any _⟩
  · unfold Action.untilAbort
    rw [heq]
  · rw [untilAbort_state]
    exact hbehind

/-- **A nested action** starts with proper variables, whether they are its own or not, and what it hands
    back is the value of a variable. -/
theorem nested {act act' : Action α} (h : Agrees P act act') (g : Frame) (share : Bool) :
    Agrees (fun n => ∀ v ∈ n.returned, v.IsProper) (Action.nested g share act)
      (Action.nested g share act') := by
  intro f s hs
  -- variables of its own are none, and those of the caller are proper
  have hstart : (if share then s.bindings else [] : Variables).Proper := by
    split
    · exact hs
    · exact Variables.proper_nil
  obtain ⟨heq, hbehind, -⟩ := h g ⟨s.table, if share then s.bindings else [], ""⟩ hstart
  rw [nested_apply, nested_apply, heq]
  rcases hact : act g ⟨s.table, if share then s.bindings else [], ""⟩ with ⟨r, u⟩
  rw [hact] at hbehind
  -- what the caller has behind it: its own, or what the body has left
  have hback : (if share then u.bindings else s.bindings).Proper := by
    split
    · exact hbehind
    · exact hs
  cases r with
  | error i => exact ⟨rfl, hback, .error i⟩
  | ok a => exact ⟨rfl, hback, .ok fun v hv => Variables.Proper.get? hbehind hv⟩

/-- What a nested body hands back is bound in the frame of its caller. -/
theorem passReturn {n : Nested α} (h : ∀ v ∈ n.returned, v.IsProper) :
    Agrees (fun _ => True) (Action.passReturn n) (Action.passReturn n) := by
  unfold Action.passReturn
  split
  · next v hv => exact bindVariable _ (h v hv)
  · exact pure trivial

/-! ## Trust and tokens -/

theorem requireTrust (function : String) :
    Agrees (fun _ => True) (Action.requireTrust function) (Action.requireTrust function) := by
  refine bind frame fun f _ => ?_
  split
  · exact pure trivial
  · exact fail _

theorem requireSubject (function : String) :
    Agrees (fun _ => True) (Action.requireSubject function) (Action.requireSubject function) := by
  refine bind frame fun f _ => ?_
  split
  · exact pure trivial
  · exact fail _

theorem subjectToken (function : String) :
    Agrees (fun _ => True) (Action.subjectToken function) (Action.subjectToken function) := by
  refine bind (requireSubject function) fun id _ => bind campaign fun c _ => ?_
  split
  · exact pure trivial
  · exact fail _

theorem namedToken (function idOrName : String) :
    Agrees (fun _ => True) (Action.namedToken function idOrName)
      (Action.namedToken function idOrName) := by
  refine bind campaign fun c _ => ?_
  split
  · exact pure trivial
  · exact fail _

/-! ## Watching -/

/-- **Nothing to be seen.**  Watching changes nothing about an action that agrees. -/
theorem along {act act' : Action α} [DecidablePred P] (h : Agrees P act act') (w : Watch) {vs : List Value}
    (hvs : ∀ v ∈ vs, v.IsProper) : Agrees P act (w.along vs P act') := by
  intro f s hs
  obtain ⟨heq, hbehind, hanswer⟩ := h f s hs
  refine ⟨?_, hbehind, hanswer⟩
  -- neither condition that the watch looks for is broken
  unfold Watch.along
  rw [if_pos ⟨hs, hvs⟩, heq, if_pos ⟨hbehind, hanswer⟩]

/-- Around an action of which only the variables matter. -/
theorem around {act act' : Action α} (h : Agrees P act act') (w : Watch) :
    Agrees (fun _ => True) act (w.around act') :=
  (h.mono fun _ _ => trivial).along w (by simp)

end Agrees

end Action

open Tabletop.Action (Agrees)

/-! ## Starting a body -/

section Starting

variable {evaluate evaluate' : String → Action Unit}
  (h : ∀ body, Agrees (fun _ => True) (evaluate body) (evaluate' body))
include h

/-- **A macro that is started** hands back a proper value if it hands one back at all. -/
theorem runBody_agrees (body : String) (r : RunRequest) :
    TableM.Agrees (fun o => ∀ v ∈ o.returned, v.IsProper) (runBody evaluate body r)
      (runBody evaluate' body r) := by
  intro t
  -- the only variable of a macro that starts is its argument
  have hstart : r.bindings.Proper := by
    unfold RunRequest.bindings
    split
    · exact Variables.proper_nil.bindArgumentText _
    · exact Variables.proper_nil
  obtain ⟨heq, hbehind, -⟩ := h body (r.frame (t.campaign.trusts r.origin)) ⟨t, r.bindings, ""⟩ hstart
  unfold runBody
  rw [heq]
  rcases hrun : evaluate body (r.frame (t.campaign.trusts r.origin)) ⟨t, r.bindings, ""⟩ with ⟨e, s⟩
  rw [hrun] at hbehind
  have hreturned : ∀ v ∈ Variables.returned? s.bindings, v.IsProper := fun v hv => hbehind.get? hv
  refine ⟨rfl, ?_⟩
  -- an abort hands back what was set so far, an error hands back nothing
  cases e with
  | ok u => exact .ok hreturned
  | error i =>
    cases i with
    | abort message => exact .ok hreturned
    | error e => exact .error _
    | exhausted => exact .error _

/-- A macro that is run by its name binds what it hands back. -/
theorem runNamed_agrees (name arguments : String) :
    Agrees (fun _ => True) (runNamed evaluate name arguments) (runNamed evaluate' name arguments) := by
  refine .bind .frame fun f _ => .bind .campaign fun c _ => .bind (.ofExcept (.any _)) fun m _ => ?_
  refine .bind (.atTable (runBody_agrees h m.body _)) fun output hreturned => ?_
  split
  · next v hv => exact .bind (.bindVariable _ (hreturned v hv)) fun _ _ => .pure trivial
  · exact .bind (.pure (P := fun _ => True) trivial) fun _ _ => .pure trivial

omit h in
/-- What a call answers with was handed back, or is read from the output. -/
theorem isProper_result (d : Definition) {n : Action.Nested Unit} (hn : ∀ v ∈ n.returned, v.IsProper) :
    (d.result n).IsProper := by
  unfold Definition.result
  split
  · exact Value.isProper_getD hn (.text _)
  · split
    · exact Value.isProper_getD hn (.text _)
    · exact Value.isProper_ofOutput _

/-- **A call of a user-defined function** with proper arguments answers with a proper value. -/
theorem invoke_agrees (g : UserFunction) {args : List Value} (hargs : ∀ v ∈ args, v.IsProper) :
    Agrees Value.IsProper (invoke evaluate g args) (invoke evaluate' g args) := by
  refine .bind .frame fun caller _ => .bind (.nested (P := fun _ => True) ?_ _ _) fun n hn => ?_
  · refine .bind (.modifyVariables fun _ hvars => hvars.erase _) fun _ _ => ?_
    refine .bind (.modifyVariables fun _ hvars => hvars.bindArguments hargs) fun _ _ => ?_
    exact .untilAbort (h _)
  · exact .bind (.passReturn hn) fun _ _ => .pure (isProper_result g.definition hn)

/-- Text that is run answers with what is read from its output. -/
theorem runText_agrees (text : String) (share : Bool) :
    Agrees Value.IsProper (runText evaluate text share) (runText evaluate' text share) := by
  refine .bind .frame fun f _ => .bind (.nested (h text) _ _) fun n hn => ?_
  exact .bind (.passReturn hn) fun _ _ => .pure (Value.isProper_ofOutput _)

/-! ## Following links -/

/-- One recipient of a link: its macro starts with variables of its own. -/
theorem runRecipient_agrees (link : MacroLink) (player : String) (r : Recipient) :
    TableM.Agrees (fun _ => True) (runRecipient evaluate link player r)
      (runRecipient evaluate' link player r) :=
  .bind (.any _) fun _ _ => .bind (.any _) fun _ _ => .bind (.any _) fun _ _ =>
    .bind (runBody_agrees h _ _) fun _ _ => .any _

/-- All recipients, until the first error. -/
theorem runRecipients_agrees (link : MacroLink) (player : String) (report : LinkReport)
    (rs : List Recipient) :
    TableM.Agrees (fun _ => True) (runRecipients evaluate link player report rs)
      (runRecipients evaluate' link player report rs) := by
  induction rs generalizing report with
  | nil => exact .any _
  | cons r rs ih => exact .bind (runRecipient_agrees h link player r) fun _ _ => ih _

/-- All recipients, whatever happens to one of them. -/
theorem runRecipientsApart_agrees (link : MacroLink) (player : String) (report : LinkReport)
    (rs : List Recipient) :
    TableM.Agrees (fun _ => True) (runRecipientsApart evaluate link player report rs)
      (runRecipientsApart evaluate' link player report rs) := by
  induction rs generalizing report with
  | nil => exact .any _
  | cons r rs ih =>
    refine .bind (.attempt (runRecipient_agrees h link player r)) fun result _ => ?_
    cases result <;> exact ih _

/-- A link that is followed, in both modes. -/
theorem followLink_agrees (text player : String) (apart : Bool) :
    TableM.Agrees (fun _ => True) (followLink evaluate text player apart)
      (followLink evaluate' text player apart) := by
  unfold followLink
  cases MacroLink.decode text with
  | none => exact .any _
  | some link =>
    refine .bind (.any _) fun c _ => ?_
    cases apart with
    | false => exact runRecipients_agrees h link player .empty _
    | true => exact runRecipientsApart_agrees h link player .empty _

end Starting

/-! ## Calls -/

/-- The second way of calling does what the first does, from proper variables and with proper arguments,
    and leads to proper values. -/
structure Calls.Agrees (calls calls' : Calls) : Prop where
  evaluate : ∀ body, Action.Agrees (fun _ => True) (calls.evaluate body) (calls'.evaluate body)
  builtin : ∀ name args, (∀ v ∈ args, v.IsProper) →
    Action.Agrees Value.IsProper (calls.builtin name args) (calls'.builtin name args)
  hasBuiltin : calls'.hasBuiltin = calls.hasBuiltin

section Evaluation

variable {calls calls' : Calls}

/-- A call by name is one of a user-defined function or of a built-in one. -/
theorem Calls.Agrees.call (h : calls.Agrees calls') (name : String) {args : List Value}
    (hargs : ∀ v ∈ args, v.IsProper) :
    Action.Agrees Value.IsProper (calls.call name args) (calls'.call name args) := by
  refine .get_bind fun s _ => ?_
  split
  · exact invoke_agrees h.evaluate _ hargs
  · exact h.builtin name args hargs

/-! ## Expressions -/

/-- Dice make a number. -/
theorem evaluateDice_agrees (notation_ : String) :
    Agrees Value.IsProper (evaluateDice notation_) (evaluateDice notation_) := by
  unfold evaluateDice
  split
  · exact .failEvaluation _
  · next e _ =>
    refine .bind (.of_bindings_eq (fun _ _ => rfl) fun _ _ => .any _) fun r _ => ?_
    split
    · exact .failEvaluation _
    · exact .pure (.number _)

/-- A name is that of a variable, or of the two constants. -/
theorem evaluateName_agrees (name : String) :
    Agrees Value.IsProper (evaluateName name) (evaluateName name) := by
  refine .bind (.lookup? name) fun v hv => ?_
  split
  · next x => exact .pure (hv x rfl)
  · split
    · exact .pure (.number _)
    · split
      · exact .pure (.number _)
      · exact .failEvaluation _

variable {call call' : String → List Value → Action Value} (w : Watch)

/-- The functions answer proper arguments with proper values. -/
abbrev CallsAgree (call call' : String → List Value → Action Value) : Prop :=
  ∀ name args, (∀ v ∈ args, v.IsProper) → Agrees Value.IsProper (call name args) (call' name args)

mutual

/-- **A watched expression** has the value that it has, and this value is proper. -/
theorem evaluateExpr_agrees (h : CallsAgree call call') :
    ∀ x : Expr, x.Proper → Agrees Value.IsProper (evaluateExpr call x) (w.evaluateExpr call' x)
  | .literal v, hx => by
    cases hx with
    | literal hv => exact .along (.pure hv) w (by simp)
  | .dice s, _ => .along (evaluateDice_agrees s) w (by simp)
  | .variable name, _ => .along (evaluateName_agrees name) w (by simp)
  | .call name args, hx => by
    cases hx with
    | call _ hargs =>
      refine .along ?_ w (by simp)
      exact .bind (evaluateArguments_agrees h args hargs) fun vs hvs => .along (h name vs hvs) w hvs
  | .assign name x, hx => by
    cases hx with
    | assign _ hx =>
      refine .along ?_ w (by simp)
      exact .bind (evaluateExpr_agrees h x hx) fun v hv => .bind (.bindVariable name hv) fun _ _ =>
        .pure hv
  | .unary op x, hx => by
    cases hx with
    | unary _ hx =>
      refine .along ?_ w (by simp)
      exact .bind (evaluateExpr_agrees h x hx) fun v _ => .ofEvaluation (op.isProper_apply v)
  | .binary op l r, hx => by
    cases hx with
    | binary _ hl hr =>
      have hl := evaluateExpr_agrees h l hl
      have hr := evaluateExpr_agrees h r hr
      -- `and` and `or` may leave out their right side; the others evaluate both
      cases op with
      | and =>
        refine .along (.bind hl fun v _ => ?_) w (by simp)
        split
        · exact .bind hr fun _ _ => .pure (.number _)
        · exact .pure (.number _)
      | or =>
        refine .along (.bind hl fun v _ => ?_) w (by simp)
        split
        · exact .pure (.number _)
        · exact .bind hr fun _ _ => .pure (.number _)
      | _ =>
        refine .along ?_ w (by simp)
        exact .bind hl fun a _ => .bind hr fun b _ => .ofEvaluation (BinaryOp.isProper_apply _ a b)

/-- All arguments are proper, and so the call may be made. -/
theorem evaluateArguments_agrees (h : CallsAgree call call') :
    ∀ xs : List Expr, (∀ x ∈ xs, x.Proper) →
      Agrees (fun vs => ∀ v ∈ vs, v.IsProper) (evaluateArguments call xs) (w.evaluateArguments call' xs)
  | [], _ => .pure (by simp)
  | x :: xs, hxs => by
    refine .bind (evaluateExpr_agrees h x (hxs x (List.mem_cons_self ..))) fun v hv => ?_
    have hrest : ∀ y ∈ xs, y.Proper := fun y hy => hxs y (List.mem_cons_of_mem _ hy)
    refine .bind (evaluateArguments_agrees h xs hrest) fun vs hvs => ?_
    exact .pure (by simpa using ⟨hv, hvs⟩)

end

/-- Statements, one after the other; the last one has the value. -/
theorem evaluateStatements_agrees (h : CallsAgree call call') {v : Value} (hv : v.IsProper)
    {xs : List Expr} (hxs : ∀ x ∈ xs, x.Proper) :
    Agrees Value.IsProper (evaluateStatements call v xs) (w.evaluateStatements call' v xs) := by
  induction xs generalizing v with
  | nil => exact .pure hv
  | cons x xs ih =>
    exact .bind (evaluateExpr_agrees w h x (hxs x (List.mem_cons_self ..))) fun v hv =>
      ih hv fun y hy => hxs y (List.mem_cons_of_mem _ hy)

/-- The literals in the source text are proper, as the readers made them. -/
theorem evaluateSource_agrees (h : CallsAgree call call') (source : String) :
    Agrees Value.IsProper (evaluateSource call source) (w.evaluateSource call' source) := by
  unfold evaluateSource Watch.evaluateSource
  cases hparse : Expr.parse source with
  | error e => exact .failEvaluation _
  | ok xs =>
    have hempty : Value.empty.IsProper := .text _
    exact evaluateStatements_agrees w h hempty (Expr.parse_proper source xs hparse)

/-! ## Bodies -/

/-- A segment of a body is watched as a whole. -/
theorem runSegment_agrees (h : calls.Agrees calls') (x : Segment) :
    Agrees (fun _ => True) (runSegment calls x) (w.runSegment calls' x) := by
  cases x with
  | text s => exact .around (.emit s) w
  | expression options source =>
    refine .around (P := fun _ => True) ?_ w
    refine .bind (evaluateSource_agrees w (fun name _ => h.call name) source) fun v _ => ?_
    cases options.macroName with
    | none => exact .bind (.pure (P := fun _ => True) trivial) fun shown _ => .emit _
    | some name => exact .bind (runNamed_agrees h.evaluate name _) fun shown _ => .emit _

/-- **A watched body** does what the body does. -/
theorem evaluateBody_agrees (h : calls.Agrees calls') (body : String) :
    Agrees (fun _ => True) (evaluateBody calls body) (w.evaluateBody calls' body) := by
  unfold evaluateBody Watch.evaluateBody
  cases Segment.ofBody body with
  | error bracket => exact .failEvaluation _
  | ok segments =>
    show Agrees _ (runSegments calls segments) (w.runSegments calls' segments)
    induction segments with
    | nil => exact .pure trivial
    | cons x xs ih => exact .bind (runSegment_agrees w h x) fun _ _ => ih

end Evaluation

end Tabletop
