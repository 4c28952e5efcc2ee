import Tabletop.Proofs.Authority.Run
import Tabletop.Proofs.Calls.Outcome
import Tabletop.Macro.Engine
import Tabletop.Macro.Follow

/-
  Deeper calls.

  The depth to which calls may nest is a bound and no part of the language: a run that stays within it
  is the same at every greater depth.

  1. **Refinement** — `Refines act act'`: `act'` does what `act` does, except where `act` is exhausted.
     Every way of putting actions together keeps it, because an action that is exhausted takes all with
     it that waits for it; nothing catches that interrupt, not even `attempt` and `untilAbort`.

  2. **Calls** — `Calls.Refines`.  Among the built-in functions only those that run bodies look at the
     calls (`Builtin.all_deepens`); all others are the same function at every depth.

  3. **Depths** — `Calls.ofDepth_refines`, by induction on the depth: there is nothing to show at depth 0,
     where every call is exhausted.
-/
namespace Tabletop

/-! ## What happens at a table -/

namespace TableM

variable {α β : Type}

/-- The second does what the first does unless the first is exhausted. -/
def Refines (act act' : TableM α) : Prop :=
  ∀ t, (∃ u, act t = (.error .exhausted, u)) ∨ act t = act' t

namespace Refines

/-- An action may stand for itself. -/
theorem refl (act : TableM α) : Refines act act := fun _ => .inr rfl

/-- What runs out of depth does so in the first part, or in what follows it. -/
theorem bind {act act' : TableM α} {k k' : α → TableM β} (h : Refines act act')
    (hk : ∀ a, Refines (k a) (k' a)) : Refines (act >>= k) (act' >>= k') := by
  intro t
  rw [bind_apply, bind_apply]
  -- the first part was not enough already, or it is the same
  rcases h t with ⟨u, h⟩ | h
  · exact .inl ⟨u, by rw [h]⟩
  · rw [← h]
    rcases act t with ⟨r, u⟩
    cases r with
    | error i => exact .inr rfl
    | ok a => exact hk a u

/-- Nobody catches that the depth was not enough. -/
theorem attempt {act act' : TableM α} (h : Refines act act') :
    Refines (TableM.attempt act) (TableM.attempt act') := by
  intro t
  unfold TableM.attempt
  rcases h t with ⟨u, h⟩ | h
  · exact .inl ⟨u, by rw [h]⟩
  · exact .inr (by rw [h])

end Refines

end TableM

/-! ## What a macro does -/

namespace Action

variable {α β : Type}

/-- The second does what the first does unless the first is exhausted. -/
def Refines (act act' : Action α) : Prop :=
  ∀ f s, (∃ u, act f s = (.error .exhausted, u)) ∨ act f s = act' f s

namespace Refines

theorem refl (act : Action α) : Refines act act := fun _ _ => .inr rfl

/-- A greater depth, and one that is greater still. -/
theorem trans {act act' act'' : Action α} (h : Refines act act') (h' : Refines act' act'') :
    Refines act act'' := by
  intro f s
  rcases h f s with h | h
  · exact .inl h
  · rw [h]
    exact h' f s

/-- A run that is not exhausted. -/
theorem apply_eq {act act' : Action α} (h : Refines act act') {f : Frame} {s : RunState}
    (hends : (act f s).1 ≠ .error .exhausted) : act' f s = act f s := by
  rcases h f s with ⟨u, h⟩ | h
  · exact absurd (congrArg Prod.fst h) hends
  · exact h.symm

/-- What runs out of depth does so in the first part, or in what follows it. -/
theorem bind {act act' : Action α} {k k' : α → Action β} (h : Refines act act')
    (hk : ∀ a, Refines (k a) (k' a)) : Refines (act >>= k) (act' >>= k') := by
  intro f s
  rw [bind_apply, bind_apply]
  rcases h f s with ⟨u, h⟩ | h
  · exact .inl ⟨u, by rw [h]⟩
  · rw [← h]
    rcases act f s with ⟨r, u⟩
    cases r with
    | error i => exact .inr rfl
    | ok a => exact hk a f u

/-- A nested body runs out of depth, or does the same. -/
theorem nested {act act' : Action α} (h : Refines act act') (g : Frame) (share : Bool) :
    Refines (Action.nested g share act) (Action.nested g share act') := by
  intro f s
  rw [nested_apply, nested_apply]
  rcases h g ⟨s.table, if share then s.bindings else [], ""⟩ with ⟨u, h⟩ | h
  · exact .inl ⟨_, by rw [h]⟩
  · exact .inr (by rw [h])

/-- An abort is no exhaustion. -/
theorem untilAbort {act act' : Action Unit} (h : Refines act act') :
    Refines (Action.untilAbort act) (Action.untilAbort act') := by
  intro f s
  unfold Action.untilAbort
  rcases h f s with ⟨u, h⟩ | h
  · exact .inl ⟨u, by rw [h]⟩
  · exact .inr (by rw [h])

theorem atTable {act act' : TableM α} (h : TableM.Refines act act') :
    Refines (Action.atTable act) (Action.atTable act') := by
  intro f s
  unfold Action.atTable
  rcases h s.table with ⟨u, h⟩ | h
  · exact .inl ⟨{ s with table := u }, by rw [h]⟩
  · exact .inr (by rw [h])

end Refines

end Action

open Tabletop.Action (Refines)

/-! ## Starting a body -/

section Starting

variable {evaluate evaluate' : String → Action Unit} (h : ∀ body, Refines (evaluate body) (evaluate' body))
include h

/-- A macro that is started. -/
theorem runBody_refines (body : String) (r : RunRequest) :
    TableM.Refines (runBody evaluate body r) (runBody evaluate' body r) := by
  intro t
  unfold runBody
  rcases h body (r.frame (t.campaign.trusts r.origin)) ⟨t, r.bindings, ""⟩ with ⟨u, h⟩ | h
  · exact .inl ⟨u.table, by rw [h]⟩
  · exact .inr (by rw [h])

/-- A macro that is run by its name. -/
theorem runNamed_refines (name arguments : String) :
    Refines (runNamed evaluate name arguments) (runNamed evaluate' name arguments) := by
  refine .bind (.refl _) fun f => .bind (.refl _) fun c => .bind (.refl _) fun m => ?_
  exact .bind (.atTable (runBody_refines h _ _)) fun output => .refl _

/-- A call of a user-defined function. -/
theorem invoke_refines (g : UserFunction) (args : List Value) :
    Refines (invoke evaluate g args) (invoke evaluate' g args) := by
  refine .bind (.refl _) fun caller => .bind (.nested ?_ _ _) fun n => .refl _
  exact .bind (.refl _) fun _ => .bind (.refl _) fun _ => .untilAbort (h _)

/-- Text that is run. -/
theorem runText_refines (text : String) (share : Bool) :
    Refines (runText evaluate text share) (runText evaluate' text share) :=
  .bind (.refl _) fun _ => .bind (.nested (h text) _ _) fun _ => .refl _

/-! ## Following links -/

theorem runRecipient_refines (link : MacroLink) (player : String) (r : Recipient) :
    TableM.Refines (runRecipient evaluate link player r) (runRecipient evaluate' link player r) :=
  .bind (.refl _) fun _ => .bind (.refl _) fun _ => .bind (.refl _) fun _ =>
    .bind (runBody_refines h _ _) fun _ => .refl _

/-- The recipients of a link, until the first error. -/
theorem runRecipients_refines (link : MacroLink) (player : String) (report : LinkReport)
    (rs : List Recipient) :
    TableM.Refines (runRecipients evaluate link player report rs)
      (runRecipients evaluate' link player report rs) := by
  induction rs generalizing report with
  | nil => exact .refl _
  | cons r rs ih => exact .bind (runRecipient_refines h link player r) fun _ => ih _

/-- The recipients of a link, each by itself: even so exhaustion ends all of it. -/
theorem runRecipientsApart_refines (link : MacroLink) (player : String) (report : LinkReport)
    (rs : List Recipient) :
    TableM.Refines (runRecipientsApart evaluate link player report rs)
      (runRecipientsApart evaluate' link player report rs) := by
  induction rs generalizing report with
  | nil => exact .refl _
  | cons r rs ih =>
    refine .bind (.attempt (runRecipient_refines h link player r)) fun result => ?_
    cases result <;> exact ih _

/-- A link that is followed, in both modes. -/
theorem followLink_refines (text player : String) (apart : Bool) :
    TableM.Refines (followLink evaluate text player apart) (followLink evaluate' text player apart) := by
  unfold followLink
  cases MacroLink.decode text with
  | none => exact .refl _
  | some link =>
    refine .bind (.refl _) fun c => ?_
    cases apart with
    | false => exact runRecipients_refines h link player .empty _
    | true => exact runRecipientsApart_refines h link player .empty _

end Starting

/-! ## Calls -/

/-- The second way of calling does what the first does unless the first is exhausted. -/
structure Calls.Refines (calls calls' : Calls) : Prop where
  evaluate : ∀ body, Action.Refines (calls.evaluate body) (calls'.evaluate body)
  builtin : ∀ name args, Action.Refines (calls.builtin name args) (calls'.builtin name args)
  hasBuiltin : calls.hasBuiltin = calls'.hasBuiltin

section Evaluation

variable {calls calls' : Calls}

/-- A call by name. -/
theorem Calls.Refines.call (h : calls.Refines calls') (name : String) (args : List Value) :
    Action.Refines (calls.call name args) (calls'.call name args) := by
  refine .bind (.refl _) fun s => ?_
  cases s.table.functions.get? name with
  | some g => exact invoke_refines h.evaluate g args
  | none => exact h.builtin name args

variable {call call' : String → List Value → Action Value}

mutual

/-- Expressions, by induction: the depth matters at calls alone. -/
theorem evaluateExpr_refines (h : ∀ name args, Refines (call name args) (call' name args)) :
    ∀ x : Expr, Refines (evaluateExpr call x) (evaluateExpr call' x)
  | .literal _ => .refl _
  | .dice _ => .refl _
  | .variable _ => .refl _
  | .call name args => .bind (evaluateArguments_refines h args) fun vs => h name vs
  | .assign _ x => .bind (evaluateExpr_refines h x) fun _ => .refl _
  | .unary _ x => .bind (evaluateExpr_refines h x) fun _ => .refl _
  | .binary op l r => by
    have hl := evaluateExpr_refines h l
    have hr := evaluateExpr_refines h r
    -- `and` and `or` may leave out their right side; the others evaluate both
    cases op with
    | and =>
      refine .bind hl fun v => ?_
      cases v.isTrue with
      | true => exact .bind hr fun _ => .refl _
      | false => exact .refl _
    | or =>
      refine .bind hl fun v => ?_
      cases v.isTrue with
      | true => exact .refl _
      | false => exact .bind hr fun _ => .refl _
    | _ => exact .bind hl fun _ => .bind hr fun _ => .refl _

theorem evaluateArguments_refines (h : ∀ name args, Refines (call name args) (call' name args)) :
    ∀ xs : List Expr, Refines (evaluateArguments call xs) (evaluateArguments call' xs)
  | [] => .refl _
  | x :: xs => .bind (evaluateExpr_refines h x) fun _ =>
      .bind (evaluateArguments_refines h xs) fun _ => .refl _

end

theorem evaluateStatements_refines (h : ∀ name args, Refines (call name args) (call' name args))
    (v : Value) (xs : List Expr) :
    Refines (evaluateStatements call v xs) (evaluateStatements call' v xs) := by
  induction xs generalizing v with
  | nil => exact .refl _
  | cons x xs ih => exact .bind (evaluateExpr_refines h x) fun v => ih v

/-- A source text is read without any calls. -/
theorem evaluateSource_refines (h : ∀ name args, Refines (call name args) (call' name args))
    (source : String) : Refines (evaluateSource call source) (evaluateSource call' source) := by
  unfold evaluateSource
  cases Expr.parse source with
  | error e => exact .refl _
  | ok xs => exact evaluateStatements_refines h .empty xs

/-- A segment of a body. -/
theorem runSegment_refines (h : calls.Refines calls') (x : Segment) :
    Refines (runSegment calls x) (runSegment calls' x) := by
  cases x with
  | text s => exact .refl _
  | expression options source =>
    refine .bind (evaluateSource_refines h.call source) fun v => ?_
    cases options.macroName with
    | none => exact .refl _
    | some name => exact .bind (runNamed_refines h.evaluate _ _) fun _ => .refl _

/-- A body with calls that go deeper. -/
theorem evaluateBody_refines (h : calls.Refines calls') (body : String) :
    Refines (evaluateBody calls body) (evaluateBody calls' body) := by
  unfold evaluateBody
  cases Segment.ofBody body with
  | error bracket => exact .refl _
  | ok segments =>
    show Refines (runSegments calls segments) (runSegments calls' segments)
    induction segments with
    | nil => exact .refl _
    | cons x xs ih => exact .bind (runSegment_refines h x) fun _ => ih

end Evaluation

/-! ## Built-in functions -/

namespace Builtin

open Arguments

/-- What the function does with calls that go deeper is what it did before. -/
def Deepens (b : Builtin) : Prop :=
  ∀ calls calls' : Calls, calls.Refines calls' → ∀ name args,
    Action.Refines (b.function.run calls name args) (b.function.run calls' name args)

/-- A function that computes its value makes no calls. -/
theorem deepens_of_computes {b : Builtin} (h : b.computes = true) : b.Deepens := by
  obtain ⟨d, behaviour⟩ := b
  cases behaviour with
  | computes g => exact fun _ _ _ _ _ => .refl _
  | acts g => cases h

/-- Functions that do not look at the calls, whatever else they do. -/
theorem deepens_of_run_eq {l : List Builtin}
    (h : ∀ b ∈ l, ∀ calls calls' : Calls, b.function.run calls = b.function.run calls') :
    ∀ b ∈ l, b.Deepens := by
  intro b hb calls calls' _ name args
  rw [h b hb calls calls']
  exact .refl _

/-- Whether a name is that of a function does not depend on the depth. -/
theorem isFunctionDefined_deepens : isFunctionDefined.Deepens := by
  intro calls calls' h name args
  dsimp only [isFunctionDefined, acting, Behaviour.run]
  rw [h.hasBuiltin]
  exact .refl _

/-- `oldFunction` calls with the depth that it is called with. -/
theorem oldFunction_deepens : oldFunction.Deepens := by
  intro calls calls' h name args
  refine .bind (.refl _) fun f => ?_
  cases f.function with
  | none => exact .refl _
  | some g =>
    show Action.Refines (callOlder calls g args) (callOlder calls' g args)
    unfold callOlder
    cases g.older? with
    | none => exact h.builtin g.name args
    | some older => exact invoke_refines h.evaluate older args

/-- `execLink` starts bodies with the depth that it is called with. -/
theorem execLink_deepens : execLink.Deepens := by
  intro calls calls' h name args
  dsimp only [execLink, trustedOnly, acting, Behaviour.run]
  split
  · exact .refl _
  · exact .bind (.refl _) fun f => .bind (.atTable (followLink_refines h.evaluate _ _ _)) fun _ => .refl _

/-- The functions on functions and macro text. -/
theorem functions_deepens : ∀ b ∈ functions, b.Deepens := by
  simp only [functions, List.forall_mem_cons, List.not_mem_nil, false_imp_iff, implies_true, and_true]
  refine ⟨fun _ _ _ _ _ => .refl _, isFunctionDefined_deepens, oldFunction_deepens, ?_, ?_,
    fun _ _ _ _ _ => .refl _, fun _ _ _ _ _ => .refl _⟩
  · exact fun _ _ h _ args => runText_refines h.evaluate (textAt args 0) true
  · exact fun _ _ h _ args => runText_refines h.evaluate (textAt args 0) false

theorem links_deepens : ∀ b ∈ links, b.Deepens := by
  simp only [links, List.forall_mem_cons, List.not_mem_nil, false_imp_iff, implies_true, and_true]
  exact ⟨deepens_of_computes rfl, deepens_of_computes rfl, execLink_deepens⟩

/-- **Every built-in function deepens.**  Those that are not about functions, text and links make no
    calls. -/
theorem all_deepens : ∀ b ∈ Builtin.all, b.Deepens := by
  have hrest : ∀ b ∈ propertyLists ++ stringLists ++ trees ++ control ++ tokens ++ chat ++ turnOrder ++
      diceRolls, ∀ calls calls' : Calls, b.function.run calls = b.function.run calls' := by
    simp only [propertyLists, stringLists, trees, control, tokens, chat, turnOrder, diceRolls,
      List.forall_mem_append, List.forall_mem_cons, List.not_mem_nil, false_imp_iff, implies_true,
      and_true]
    and_intros
    all_goals exact fun _ _ => rfl
  have hrest := deepens_of_run_eq hrest
  simp only [List.forall_mem_append] at hrest
  simp only [Builtin.all, List.forall_mem_append]
  obtain ⟨⟨⟨⟨⟨⟨⟨hproperties, hlists⟩, htrees⟩, hcontrol⟩, htokens⟩, hchat⟩, hturns⟩, hdice⟩ := hrest
  exact ⟨⟨⟨⟨⟨⟨⟨⟨⟨hproperties, hlists⟩, htrees⟩, hcontrol⟩, functions_deepens⟩, links_deepens⟩, htokens⟩,
    hchat⟩, hturns⟩, hdice⟩

end Builtin

/-! ## Depths -/

/-- The checks of a call are the same at every depth. -/
theorem Registry.call_refines {r : Registry Behaviour} (hr : ∀ b ∈ r.entries, Builtin.Deepens b)
    {calls calls' : Calls} (h : calls.Refines calls') (name : String) (args : List Value) :
    Refines (r.call calls name args) (r.call calls' name args) := by
  unfold Registry.call
  split
  · exact .refl _
  · next b hb =>
    have hdeepens := hr b (mem_of_find?_eq_some hb) calls calls' h name args
    split
    · split
      · exact .bind (.refl _) fun _ => .bind hdeepens fun v => .refl _
      · exact .bind hdeepens fun v => .refl _
    · exact .refl _

namespace Calls

/-- One depth more makes a difference only where the depth was not enough. -/
theorem ofDepth_refines_succ : ∀ n, (ofDepth .builtins n).Refines (ofDepth .builtins (n + 1))
  | 0 => ⟨fun _ _ s => .inl ⟨s, rfl⟩, fun _ _ _ s => .inl ⟨s, rfl⟩, rfl⟩
  | n + 1 => by
    have hr : ∀ b ∈ Registry.builtins.entries, Builtin.Deepens b :=
      Registry.forall_mem_ofList (fun _ _ h => h) Builtin.all_deepens
    have ih := ofDepth_refines_succ n
    exact ⟨evaluateBody_refines ih, Registry.call_refines hr ih, rfl⟩

/-- **A body that is not exhausted does the same at every greater depth.** -/
theorem evaluate_ofDepth_refines (body : String) {n m : Nat} (h : n ≤ m) :
    Action.Refines ((ofDepth .builtins n).evaluate body) ((ofDepth .builtins m).evaluate body) := by
  induction h with
  | refl => exact .refl _
  | step _ ih => exact ih.trans ((ofDepth_refines_succ _).evaluate body)

end Calls

end Tabletop
