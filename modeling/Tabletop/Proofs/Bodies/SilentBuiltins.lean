import Tabletop.Proofs.Bodies.Silence
import Tabletop.Proofs.Authority.Run

/-
  Built-in functions do not show anything.

  1. **The obligation** — `Builtin.Silent b`: what `b` does is silent, given that the functions which it
     calls are.  Bodies that it runs may be any, since they are nested.

  2. **Functions that compute** — they do not touch the state at all; that most functions are of this
     kind is read off the catalog by evaluation.

  3. **The depth of calls** — from the catalog to the calls of a running macro, by induction on how deep
     calls may nest.
-/
namespace Tabletop

namespace Builtin

open Arguments

/-- What the function does is silent if the functions that it calls are. -/
def Silent (b : Builtin) : Prop :=
  ∀ calls : Calls, calls.Silent → ∀ name args, Action.Silent (b.function.run calls name args)

/-- A function that computes its value does nothing else. -/
theorem silent_of_computes {b : Builtin} (h : b.computes = true) : b.Silent := by
  obtain ⟨d, behaviour⟩ := b
  cases behaviour with
  | computes g => exact fun _ _ name args => Action.Silent.ofExcept _
  | acts g => cases h

variable {function : String} {args : List Value}

/-! ## Tokens -/

/-- A token is looked up by its name or as the subject. -/
theorem readToken_silent (i : Nat) : Action.Silent (readToken function args i) := by
  unfold readToken
  split
  · exact .subjectToken _
  · exact .namedToken _ _

theorem tokenToChange_silent (i : Nat) : Action.Silent (tokenToChange function args i) := by
  unfold tokenToChange
  split
  · exact .subjectToken _
  · refine .bind (.namedToken _ _) fun t => .bind .frame fun f => ?_
    split
    · exact .pure _
    · exact .bind (.requireTrust _) fun _ => .pure _

/-- A token is stored in the campaign. -/
theorem store_silent (t : Token) : Action.Silent (store function t) := by
  refine .bind .campaign fun c => ?_
  split
  · exact .modifyCampaign _
  · exact .fail _

theorem nameAt_silent (kind : NameKind) (i : Nat) : Action.Silent (nameAt kind function args i) := by
  dsimp only [nameAt]
  split
  · exact .ofExcept _
  · exact .pure _

theorem checkCount_silent (accepted : Arity) : Action.Silent (checkCount function accepted args) := by
  unfold checkCount
  split
  · exact .pure ()
  · exact .fail _

/-- The name of a token is read or changed. -/
theorem nameFunction_silent : Action.Silent (nameFunction function args) := by
  unfold nameFunction
  split
  · refine .bind (checkCount_silent _) fun _ => .bind (nameAt_silent _ 0) fun name => ?_
    exact .bind (tokenToChange_silent 1) fun t => .bind (store_silent _) fun _ => .pure _
  · exact .bind (checkCount_silent _) fun _ => .bind (readToken_silent 0) fun t => .pure _

/-- A name is read, then a token, and the token is stored as it has become. -/
theorem change_silent (kind : NameKind) (g : Token → String → Token) (v : Value) :
    Action.Silent (do
      let name ← nameAt kind function args 0
      let t ← tokenToChange function args 2
      store function (g t name)
      pure v) :=
  .bind (nameAt_silent kind 0) fun _ => .bind (tokenToChange_silent 2) fun _ =>
    .bind (store_silent _) fun _ => .pure v

/-- The functions on tokens. -/
theorem tokens_silent : ∀ b ∈ tokens, b.Silent := by
  simp only [tokens, List.forall_mem_cons, List.not_mem_nil, false_imp_iff, implies_true, and_true]
  -- in the order of the list; what they look at is the frame and the campaign
  refine ⟨?_, ?_, ?_, ?_, ?_, ?_, ?_, ?_, ?_, ?_, ?_⟩
  · exact fun _ _ _ _ => .bind .frame fun _ => .pure _
  · exact fun _ _ _ _ => nameFunction_silent
  · exact fun _ _ _ _ => .bind (readToken_silent 1) fun _ => .pure _
  · exact fun _ _ _ args => change_silent .property (·.setProperty · (textAt args 1)) _
  · exact fun _ _ _ _ => .bind (readToken_silent 1) fun _ => .pure _
  · exact fun _ _ _ args => change_silent .state (·.setState · (flagAt args 1 false)) _
  · exact fun _ _ _ _ => .bind (readToken_silent 1) fun _ => .pure _
  · exact fun _ _ _ _ => .bind .campaign fun _ => .pure _
  · exact fun _ _ _ _ => .bind .campaign fun _ => .pure _
  · exact fun _ _ _ _ => .bind .frame fun _ => .bind .campaign fun _ => .pure _
  · exact fun _ _ _ _ => .bind .frame fun _ => .pure _

/-! ## The turn order -/

theorem modifyInitiative_silent (g : InitiativeList → InitiativeList) :
    Action.Silent (modifyInitiative g) := .modifyCampaign _

theorem initiative_silent : Action.Silent initiative := .bind .campaign fun _ => .pure _

theorem addToInitiative_silent : addToInitiative.Silent := by
  intro calls h name args
  refine .bind (.requireSubject _) fun id => ?_
  refine .bind initiative_silent fun l => ?_
  split
  · exact .pure _
  · exact .bind (modifyInitiative_silent _) fun _ => .pure _

/-- The functions on the turn order. -/
theorem turnOrder_silent : ∀ b ∈ turnOrder, b.Silent := by
  simp only [turnOrder, List.forall_mem_cons, List.not_mem_nil, false_imp_iff, implies_true, and_true]
  -- in the order of the list; all of it happens in the campaign
  refine ⟨addToInitiative_silent, ?_, ?_, ?_, ?_, ?_, ?_⟩
  · exact fun _ _ _ _ => .bind (.requireSubject _) fun _ => .bind initiative_silent fun _ =>
      .bind (modifyInitiative_silent _) fun _ => .pure _
  · exact fun _ _ _ _ => .bind initiative_silent fun _ => .pure _
  · exact fun _ _ _ _ => .bind (.ofExcept _) fun _ => .bind (modifyInitiative_silent _) fun _ => .pure _
  · exact fun _ _ _ _ => .bind (modifyInitiative_silent _) fun _ => .bind initiative_silent fun _ =>
      .pure _
  · exact fun _ _ _ _ => .bind initiative_silent fun _ => .pure _
  · exact fun _ _ _ _ => .bind initiative_silent fun _ => .pure _

/-! ## Chat, links and dice -/

/-- What is broadcast goes to the chat, and not into the text of the body. -/
theorem chat_silent : ∀ b ∈ chat, b.Silent := by
  simp only [chat, List.forall_mem_cons, List.not_mem_nil, false_imp_iff, implies_true, and_true]
  exact fun _ _ _ _ => .bind .frame fun _ => .bind .campaign fun _ => .bind (.modifyCampaign _) fun _ =>
    .pure _

/-- The bodies that a link starts have texts of their own. -/
theorem execLink_silent : execLink.Silent := by
  intro calls h name args
  dsimp only [execLink, trustedOnly, acting, Behaviour.run]
  split
  · exact .bind (.modify fun _ _ => rfl) fun _ => .pure _
  · exact .bind .frame fun _ => .bind (.atTable _) fun _ => .pure _

/-- The functions on links. -/
theorem links_silent : ∀ b ∈ links, b.Silent := by
  simp only [links, List.forall_mem_cons, List.not_mem_nil, false_imp_iff, implies_true, and_true]
  exact ⟨silent_of_computes rfl, silent_of_computes rfl, execLink_silent⟩

/-- The functions on dice. -/
theorem diceRolls_silent : ∀ b ∈ diceRolls, b.Silent := by
  simp only [diceRolls, List.forall_mem_cons, List.not_mem_nil, false_imp_iff, implies_true, and_true]
  intro calls h name args
  refine .bind (.ofExcept _) fun count => .bind (.ofExcept _) fun sides => ?_
  split
  · exact .ofExcept _
  · refine .bind (rollDice_silent _) fun r => ?_
    split
    · exact .ofExcept _
    · exact .pure _

/-! ## Variables and functions -/

theorem bindPairs_silent (function : String) : ∀ args : List Value,
    Action.Silent (bindPairs function args)
  | [] => .pure ()
  | [_] => .pure ()
  | name :: v :: rest => by
    unfold bindPairs
    split
    · exact .bind (.ofExcept _) fun _ => .bind (.bindVariable _ _) fun _ => bindPairs_silent function rest
    · exact .bind (.bindVariable _ _) fun _ => bindPairs_silent function rest

/-- The functions on arguments, variables and the course of a run. -/
theorem control_silent : ∀ b ∈ control, b.Silent := by
  simp only [control, List.forall_mem_cons, List.not_mem_nil, false_imp_iff, implies_true, and_true]
  -- `arg`, `argCount`, `set` and `abort`; `assert` computes
  refine ⟨?_, ?_, ?_, ?_, silent_of_computes rfl⟩
  · exact fun _ _ _ _ => .bind (.ofExcept _) fun _ => .get_bind (fun _ => .ofExcept _) fun _ _ => rfl
  · exact fun _ _ _ _ => .get_bind (fun _ => .pure _) fun _ _ => rfl
  · intro calls h name args
    dsimp only [Builtin.set, acting, Behaviour.run]
    split
    · exact .ofExcept _
    · exact .bind (bindPairs_silent name args) fun _ => .pure _
  · exact fun _ _ _ _ => .throw _

/-- The functions on property lists. -/
theorem propertyLists_silent : ∀ b ∈ propertyLists, b.Silent := by
  simp only [propertyLists, List.forall_mem_cons, List.not_mem_nil, false_imp_iff, implies_true,
    and_true]
  -- all compute but `varsFromStrProp`, which binds variables, and `strPropFromVars`, which looks them
  -- up
  refine ⟨silent_of_computes rfl, silent_of_computes rfl, silent_of_computes rfl,
    silent_of_computes rfl, silent_of_computes rfl, silent_of_computes rfl, ?_, ?_,
    silent_of_computes rfl⟩
  · intro calls h name args
    refine .bind (.ofExcept _) fun style => ?_
    split
    split
    · exact .pure _
    · exact .bind (.modifyVariables _) fun _ => .pure _
  · exact fun _ _ _ _ => .bind (.ofExcept _) fun _ => .get_bind (fun _ => .pure _) fun _ _ => rfl

theorem bodyOf_silent (source : String) : Action.Silent (bodyOf source) := by
  refine .bind .frame fun f => ?_
  split
  · exact .pure _
  · exact .bind .campaign fun c => .bind (.ofExcept _) fun m => .pure _

/-- What is left of a definition once its name is known. -/
theorem defineFrom_silent (name source : String) (ignoreOutput newScope : Bool) :
    Action.Silent (do
      let (body, location) ← bodyOf source
      defineTrusted name ⟨body, ignoreOutput, newScope, location⟩
      pure Value.empty) := by
  refine .bind (bodyOf_silent _) fun _ => ?_
  exact .bind (.bind (.requireTrust _) fun _ => .modify fun _ _ => rfl) fun _ => .pure _

/-- A definition goes to the table. -/
theorem defineFunction_silent : defineFunction.Silent := by
  intro calls h name args
  dsimp only [defineFunction, trustedOnly, acting, Behaviour.run]
  split
  · exact .bind (.ofExcept _) fun _ => defineFrom_silent _ _ _ _
  · exact defineFrom_silent _ _ _ _

/-- The function before a function is called as any other. -/
theorem callOlder_silent {calls : Calls} (h : calls.Silent) (f : UserFunction) (args : List Value) :
    Action.Silent (callOlder calls f args) := by
  unfold callOlder
  split
  · exact invoke_silent calls.evaluate _ args
  · exact h f.name args

theorem oldFunction_silent : oldFunction.Silent := by
  intro calls h name args
  refine .bind .frame fun f => ?_
  split
  · exact .failEvaluation _
  · exact callOlder_silent h _ args

/-- The functions on functions and macro text. -/
theorem functions_silent : ∀ b ∈ functions, b.Silent := by
  simp only [functions, List.forall_mem_cons, List.not_mem_nil, false_imp_iff, implies_true, and_true]
  refine ⟨defineFunction_silent, ?_, oldFunction_silent, ?_, ?_, ?_, ?_⟩
  · exact fun _ _ _ _ => .get_bind (fun _ => .pure _) fun _ _ => rfl
  · exact fun calls _ _ _ => runText_silent calls.evaluate _ true
  · exact fun calls _ _ _ => runText_silent calls.evaluate _ false
  · exact fun _ _ _ _ => .bind .frame fun _ => .pure _
  · exact fun _ _ _ _ => .bind .frame fun _ => .pure _

/-! ## The catalog -/

/-- **Every built-in function is silent.** -/
theorem all_silent : ∀ b ∈ Builtin.all, b.Silent := by
  have hcomputed {l : List Builtin} (h : l.all computes = true) : ∀ b ∈ l, b.Silent :=
    fun b hb => silent_of_computes (List.all_eq_true.1 h b hb)
  simp only [Builtin.all, List.forall_mem_append]
  exact ⟨⟨⟨⟨⟨⟨⟨⟨⟨propertyLists_silent, hcomputed (l := stringLists) rfl⟩, hcomputed (l := trees) rfl⟩,
    control_silent⟩, functions_silent⟩, links_silent⟩, tokens_silent⟩, chat_silent⟩, turnOrder_silent⟩,
    diceRolls_silent⟩

end Builtin

/-! ## The depth of calls -/

/-- A registry of silent functions is silent: its checks do not show anything either. -/
theorem Registry.call_silent {r : Registry Behaviour} (hr : ∀ b ∈ r.entries, Builtin.Silent b)
    {calls : Calls} (h : calls.Silent) (name : String) (args : List Value) :
    Action.Silent (r.call calls name args) := by
  unfold Registry.call
  split
  · exact .fail _
  · next b hb =>
    have hsilent := hr b (mem_of_find?_eq_some hb) calls h name args
    split
    · split
      · exact .bind (.requireTrust _) fun _ => .bind hsilent fun v => .pure _
      · exact .bind hsilent fun v => .pure _
    · exact .fail _

/-- **Calls of every depth are silent.** -/
theorem Calls.ofDepth_silent : ∀ depth, (Calls.ofDepth .builtins depth).Silent
  | 0 => fun _ _ => .throw _
  | n + 1 => by
    have hr : ∀ b ∈ Registry.builtins.entries, Builtin.Silent b :=
      Registry.forall_mem_ofList (fun _ _ h => h) Builtin.all_silent
    exact fun name args => Registry.call_silent hr (Calls.ofDepth_silent n) name args

end Tabletop
