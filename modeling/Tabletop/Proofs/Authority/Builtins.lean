import Tabletop.Proofs.Authority.Evaluation
import Tabletop.Builtin.Catalog

/-
  Built-in functions stay within the authority of the frame that calls them.

  1. **The obligation** — `Builtin.Lawful b`: in every frame in which `b` may be called, what it does
     is lawful, given that the calls which it makes are.

  2. **Functions that compute** — their value depends on the arguments alone, so there is nothing to
     prove; that they are of this kind is read off the catalog by evaluation.

  3. **Writing a token** — the one place where the argument of a macro picks what is changed:
     `tokenToChange_eq_ok` says that the token which comes out of the look-up is the subject, or the
     frame is trusted.  The token is stored before anything else can happen, so it is still the one
     that the table holds.
-/
namespace Tabletop

open Tabletop.Action (Lawful)

/-! ## Looking tokens up -/

namespace Campaign

variable {c : Campaign} {t : Token}

/-- A token that is found by an id is on the table and has this id. -/
theorem mem_of_token?_eq_some {id : TokenId} (h : c.token? id = some t) :
    t ∈ c.tokens ∧ t.id = id :=
  ⟨List.mem_of_find?_eq_some h, by simpa using List.find?_some h⟩

/-- A token that is found by a text is on the table, whether the text was read as an id or as a name. -/
theorem mem_of_findToken?_eq_some {idOrName : String} (h : c.findToken? idOrName = some t) :
    t ∈ c.tokens := by
  unfold findToken? at h
  cases hid : (TokenId.ofText? idOrName).bind c.token? with
  | none =>
    rw [hid] at h
    exact List.mem_of_find?_eq_some h
  | some u =>
    rw [hid] at h
    obtain rfl : u = t := Option.some.inj h
    -- the text is an id, and the id leads to the same token
    obtain ⟨id, -, hu⟩ := Option.bind_eq_some_iff.1 hid
    exact (mem_of_token?_eq_some hu).1

end Campaign

namespace Action

variable {α : Type} {f : Frame} {s s' : RunState} {function : String}

/-- The check for a subject answers with the subject of the frame. -/
theorem requireSubject_eq_ok {id : TokenId} (h : Action.requireSubject function f s = (.ok id, s')) :
    f.subject = some id ∧ s' = s := by
  rw [requireSubject_apply] at h
  split at h
  · next id' hid =>
    cases h
    exact ⟨hid, rfl⟩
  · cases h

/-- The token of the subject is on the table, under the id of the subject. -/
theorem subjectToken_eq_ok {t : Token} (h : Action.subjectToken function f s = (.ok t, s')) :
    s' = s ∧ t ∈ s.table.campaign.tokens ∧ f.subject = some t.id := by
  unfold Action.subjectToken at h
  rw [bind_apply, requireSubject_apply] at h
  cases hf : f.subject with
  | none => rw [hf] at h; cases h
  | some id =>
    rw [hf] at h
    dsimp only at h
    rw [bind_apply, campaign_apply] at h
    dsimp only at h
    -- the subject may have left the table since the macro started
    cases hu : s.table.campaign.token? id with
    | none => rw [hu] at h; cases h
    | some u =>
      rw [hu] at h
      cases h
      obtain ⟨hmem, rfl⟩ := Campaign.mem_of_token?_eq_some hu
      exact ⟨rfl, hmem, rfl⟩

/-- A token that was named is on the table. -/
theorem namedToken_eq_ok {idOrName : String} {t : Token}
    (h : Action.namedToken function idOrName f s = (.ok t, s')) :
    s' = s ∧ t ∈ s.table.campaign.tokens := by
  unfold Action.namedToken at h
  rw [bind_apply, campaign_apply] at h
  dsimp only at h
  cases hu : s.table.campaign.findToken? idOrName with
  | none => rw [hu] at h; cases h
  | some u =>
    rw [hu] at h
    cases h
    exact ⟨rfl, Campaign.mem_of_findToken?_eq_some hu⟩

namespace Lawful

theorem requireSubject : Lawful f (Action.requireSubject function) := by
  refine of_table_eq fun s => ?_
  rw [requireSubject_apply]
  split <;> rfl

/-- What follows is told the subject. -/
theorem requireSubject_bind {k : TokenId → Action α}
    (hk : ∀ id, f.subject = some id → Lawful f (k id)) :
    Lawful f (Action.requireSubject function >>= k) :=
  bind_of requireSubject fun _ id _ h => hk id (requireSubject_eq_ok h).1

theorem subjectToken : Lawful f (Action.subjectToken function) := by
  refine bind requireSubject fun id => bind campaign fun c => ?_
  split
  · exact pure _
  · exact fail _

theorem namedToken (idOrName : String) : Lawful f (Action.namedToken function idOrName) := by
  refine bind campaign fun c => ?_
  split
  · exact pure _
  · exact fail _

end Lawful

end Action

/-! ## The obligation -/

namespace Builtin

open Arguments

/-- In every frame in which the function may be called, what it does is lawful. -/
def Lawful (b : Builtin) : Prop :=
  ∀ calls : Calls, calls.Lawful → ∀ f name args, (b.descriptor.trusted = true → f.trusted = true) →
    Action.Lawful f (b.function.run calls name args)

/-- The value of the function depends on its arguments alone. -/
def computes (b : Builtin) : Bool :=
  match b.function with
  | .computes _ => true
  | .acts _ => false

/-- A function that computes its value does not come near the table. -/
theorem lawful_of_computes {b : Builtin} (h : b.computes = true) : b.Lawful := by
  obtain ⟨d, behaviour⟩ := b
  cases behaviour with
  | computes g => exact fun _ _ f name args _ => Action.Lawful.ofExcept _
  | acts g => cases h

variable {f : Frame} {function : String} {args : List Value}

/-! ## Tokens -/

/-- A token is looked up by its name or as the subject; nothing is changed. -/
theorem readToken_lawful (i : Nat) : Action.Lawful f (readToken function args i) := by
  unfold readToken
  split
  · exact .subjectToken
  · exact .namedToken _

/-- The look-up of the token that is to be changed changes nothing itself. -/
theorem tokenToChange_lawful (function : String) (args : List Value) (i : Nat) :
    Action.Lawful f (tokenToChange function args i) := by
  unfold tokenToChange
  split
  · exact .subjectToken
  · refine .bind (.namedToken _) fun t => .frame_bind ?_
    split
    · exact .pure _
    · exact .bind (.requireTrust _) fun _ => .pure _

/-- A token that may be changed is on the table, and it is the subject unless the frame is trusted. -/
theorem tokenToChange_eq_ok {i : Nat} {s s' : RunState} {t : Token}
    (h : tokenToChange function args i f s = (.ok t, s')) :
    s' = s ∧ t ∈ s.table.campaign.tokens ∧ (f.trusted = true ∨ f.subject = some t.id) := by
  unfold tokenToChange at h
  cases hi : args[i]? with
  | none =>
    rw [hi] at h
    obtain ⟨hs, hmem, hid⟩ := Action.subjectToken_eq_ok h
    exact ⟨hs, hmem, .inr hid⟩
  | some v =>
    rw [hi] at h
    dsimp only at h
    rw [Action.bind_apply] at h
    split at h
    · -- a token was named: it is the subject, or the check for trust was passed
      next u s₁ hu =>
      obtain ⟨rfl, hmem⟩ := Action.namedToken_eq_ok hu
      replace h : (if f.subject = some u.id then pure u
        else Action.requireTrust function >>= fun _ => pure u : Action Token) f s₁ = (.ok t, s') := h
      split at h
      · next hid =>
        cases h
        exact ⟨rfl, hmem, .inr hid⟩
      · rw [Action.bind_apply, Action.requireTrust_apply] at h
        cases hf : f.trusted with
        | false =>
          simp only [hf, Bool.false_eq_true, if_false] at h
          cases h
        | true =>
          simp only [hf, if_true] at h
          cases h
          exact ⟨rfl, hmem, .inl rfl⟩
    · cases h

/-- Storing a new state of a token that is on the table. -/
theorem store_course (function : String) {s : RunState} {old new : Token} (mem : old ∈ s.table.campaign.tokens)
    (same : old.SameHolder new) (may : f.trusted = true ∨ f.subject = some old.id) :
    Table.Course f.authority s.table (store function new f s).2.table := by
  rw [store, Action.bind_apply, Action.campaign_apply]
  dsimp only
  cases s.table.campaign.token? new.id with
  | none => exact .nothing _ _
  | some _ => exact (Table.Change.store mem same may).course

/-- A token is read, changed in a way that leaves its holder the same, and stored at once. -/
theorem change_lawful {i : Nat} (g : Token → Token) (hg : ∀ t : Token, t.SameHolder (g t))
    (v : Value) :
    Action.Lawful f (do
      let t ← tokenToChange function args i
      store function (g t)
      pure v) := by
  intro s
  have hread := tokenToChange_lawful (f := f) function args i s
  rw [Action.bind_apply]
  rcases ht : tokenToChange function args i f s with ⟨r, s'⟩
  rw [ht] at hread
  cases r with
  | error e => exact hread
  | ok t =>
    -- nothing happens between the look-up and the store, so the token is still on the table
    obtain ⟨rfl, hmem, hmay⟩ := tokenToChange_eq_ok ht
    have hstore := store_course function hmem (hg t) hmay
    dsimp only
    rw [Action.bind_pure_state]
    exact hstore

theorem nameAt_lawful (kind : NameKind) (i : Nat) :
    Action.Lawful f (nameAt kind function args i) := by
  dsimp only [nameAt]
  split
  · exact .ofExcept _
  · exact .pure _

theorem nameFunction_lawful : Action.Lawful f (nameFunction function args) := by
  unfold nameFunction
  have hcount (accepted : Arity) : Action.Lawful f (checkCount function accepted args) := by
    unfold checkCount
    split
    · exact .pure ()
    · exact .fail _
  split
  · -- the setter changes the name, by which nobody's trust is judged
    refine .bind (hcount _) fun _ => .bind (nameAt_lawful _ 0) fun name => ?_
    exact change_lawful (fun t => { t with name }) (fun t => ⟨rfl, rfl, rfl, rfl⟩) _
  · exact .bind (hcount _) fun _ => .bind (readToken_lawful 0) fun t => .pure _

theorem setProperty_lawful : setProperty.Lawful := by
  intro calls h f name args _
  refine .bind (nameAt_lawful _ 0) fun property => ?_
  exact change_lawful (·.setProperty property (textAt args 1)) (fun t => ⟨rfl, rfl, rfl, rfl⟩) _

theorem setState_lawful : setState.Lawful := by
  intro calls h f name args _
  refine .bind (nameAt_lawful _ 0) fun state => ?_
  exact change_lawful (·.setState state (flagAt args 1 false)) (fun t => ⟨rfl, rfl, rfl, rfl⟩) _

theorem tokens_lawful : ∀ b ∈ tokens, b.Lawful := by
  simp only [tokens, List.forall_mem_cons, List.not_mem_nil, false_imp_iff, implies_true, and_true]
  refine ⟨?_, ?_, ?_, setProperty_lawful, ?_, setState_lawful, ?_, ?_, ?_, ?_, ?_⟩
  · exact fun _ _ _ _ _ _ => .frame_bind (.pure _)
  · exact fun _ _ _ _ _ _ => nameFunction_lawful
  · exact fun _ _ _ _ _ _ => .bind (readToken_lawful 1) fun _ => .pure _
  · exact fun _ _ _ _ _ _ => .bind (readToken_lawful 1) fun _ => .pure _
  · exact fun _ _ _ _ _ _ => .bind (readToken_lawful 1) fun _ => .pure _
  · exact fun _ _ _ _ _ _ => .bind .campaign fun _ => .pure _
  · exact fun _ _ _ _ _ _ => .bind .campaign fun _ => .pure _
  · exact fun _ _ _ _ _ _ => .frame_bind (.bind .campaign fun _ => .pure _)
  · exact fun _ _ _ _ _ _ => .frame_bind (.pure _)

/-! ## The turn order -/

theorem modifyInitiative_lawful {g : InitiativeList → InitiativeList}
    (h : ∀ t : Table, Table.Course f.authority t (t.withInitiative (g t.campaign.initiative))) :
    Action.Lawful f (modifyInitiative g) :=
  fun s => h s.table

theorem initiative_lawful : Action.Lawful f initiative := .bind .campaign fun _ => .pure _

theorem addToInitiative_lawful : addToInitiative.Lawful := by
  intro calls h f name args _
  refine .requireSubject_bind fun id hid => .bind initiative_lawful fun l => ?_
  split
  · exact .pure _
  · exact .bind (modifyInitiative_lawful fun t => (Table.Change.join hid _).course) fun _ => .pure _

theorem removeFromInitiative_lawful : removeFromInitiative.Lawful := by
  intro calls h f name args _
  refine .requireSubject_bind fun id hid => .bind initiative_lawful fun l => ?_
  exact .bind (modifyInitiative_lawful fun t => (Table.Change.leave hid).course) fun _ => .pure _

theorem setInitiativeRound_lawful : setInitiativeRound.Lawful := by
  intro calls h f name args ht
  refine .bind (.ofExcept _) fun round => ?_
  exact .bind (modifyInitiative_lawful fun t => (Table.Change.setRound (ht rfl) round).course)
    fun _ => .pure _

theorem nextInitiative_lawful : nextInitiative.Lawful := by
  intro calls h f name args ht
  refine .bind (modifyInitiative_lawful fun t => (Table.Change.next (ht rfl)).course) fun _ => ?_
  exact .bind initiative_lawful fun _ => .pure _

theorem turnOrder_lawful : ∀ b ∈ turnOrder, b.Lawful := by
  simp only [turnOrder, List.forall_mem_cons, List.not_mem_nil, false_imp_iff, implies_true, and_true]
  refine ⟨addToInitiative_lawful, removeFromInitiative_lawful, ?_, setInitiativeRound_lawful,
    nextInitiative_lawful, ?_, ?_⟩
  all_goals exact fun _ _ _ _ _ _ => .bind initiative_lawful fun _ => .pure _

/-! ## Chat, links and dice -/

theorem chat_lawful : ∀ b ∈ chat, b.Lawful := by
  simp only [chat, List.forall_mem_cons, List.not_mem_nil, false_imp_iff, implies_true, and_true]
  intro calls h f name args ht
  refine .frame_bind (.bind .campaign fun c => .bind (.modifyCampaign fun t => ?_) fun _ => .pure _)
  exact deliver_course (ht rfl) f.player (textAt args 0) _ t

theorem execLink_lawful : execLink.Lawful := by
  intro calls h f name args ht
  dsimp only [execLink, trustedOnly, acting, Behaviour.run]
  split
  · refine .bind (.modify fun s => ?_) fun _ => .pure _
    exact (Table.Change.enqueue (ht rfl) (textAt args 0)).course
  · refine .frame_bind (.bind (.atTable ?_) fun _ => .pure _)
    exact followLink_lawful (ht rfl) h.evaluate (textAt args 0) f.player false

theorem links_lawful : ∀ b ∈ links, b.Lawful := by
  simp only [links, List.forall_mem_cons, List.not_mem_nil, false_imp_iff, implies_true, and_true]
  -- the texts of links are computed; only `execLink` does something
  exact ⟨lawful_of_computes rfl, lawful_of_computes rfl, execLink_lawful⟩

theorem diceRolls_lawful : ∀ b ∈ diceRolls, b.Lawful := by
  simp only [diceRolls, List.forall_mem_cons, List.not_mem_nil, false_imp_iff, implies_true, and_true]
  intro calls h f name args _
  refine .bind (.ofExcept _) fun count => .bind (.ofExcept _) fun sides => ?_
  split
  · exact .ofExcept _
  · -- only the generator of the table advances
    refine .bind (rollDice_lawful _) fun r => ?_
    split
    · exact .ofExcept _
    · exact .pure _

/-! ## Variables and functions -/

/-- Variables belong to no table. -/
theorem bindPairs_lawful (function : String) : ∀ args : List Value,
    Action.Lawful f (bindPairs function args)
  | [] => .pure ()
  | [_] => .pure ()
  | name :: v :: rest => by
    unfold bindPairs
    split
    · exact .bind (.ofExcept _) fun _ => .bind (.bindVariable _ _) fun _ => bindPairs_lawful function rest
    · exact .bind (.bindVariable _ _) fun _ => bindPairs_lawful function rest

theorem control_lawful : ∀ b ∈ control, b.Lawful := by
  simp only [control, List.forall_mem_cons, List.not_mem_nil, false_imp_iff, implies_true, and_true]
  -- by name: what they look at is the variables, and `set` changes them
  refine ⟨?_, ?_, ?_, ?_, lawful_of_computes rfl⟩
  · exact fun _ _ _ _ _ _ => .bind (.ofExcept _) fun _ => .bind .get fun _ => .ofExcept _
  · exact fun _ _ _ _ _ _ => .bind .get fun _ => .pure _
  · intro calls h f name args _
    dsimp only [Builtin.set, acting, Behaviour.run]
    split
    · exact .ofExcept _
    · exact .bind (bindPairs_lawful name args) fun _ => .pure _
  · exact fun _ _ _ _ _ _ => .throw _

theorem propertyLists_lawful : ∀ b ∈ propertyLists, b.Lawful := by
  simp only [propertyLists, List.forall_mem_cons, List.not_mem_nil, false_imp_iff, implies_true,
    and_true]
  refine ⟨lawful_of_computes rfl, lawful_of_computes rfl, lawful_of_computes rfl,
    lawful_of_computes rfl, lawful_of_computes rfl, lawful_of_computes rfl, ?_, ?_,
    lawful_of_computes rfl⟩
  · intro calls h f name args _
    refine .bind (.ofExcept _) fun style => ?_
    split
    split
    · exact .pure _
    · exact .bind (.modifyVariables _) fun _ => .pure _
  · exact fun _ _ _ _ _ _ => .bind (.ofExcept _) fun _ => .bind .get fun _ => .pure _

theorem bodyOf_lawful (source : String) : Action.Lawful f (bodyOf source) := by
  refine .frame_bind ?_
  split
  · exact .pure _
  · exact .bind .campaign fun c => .bind (.ofExcept _) fun m => .pure _

/-- A definition is made right behind the check for trust. -/
theorem defineTrusted_lawful (name : String) (d : Definition) :
    Action.Lawful f (defineTrusted name d) :=
  .requireTrust_bind fun ht => .modify fun _ => (Table.Change.define ht name d).course

/-- What is left of a definition once its name is known. -/
theorem defineFrom_lawful (name source : String) (ignoreOutput newScope : Bool) :
    Action.Lawful f (do
      let (body, location) ← bodyOf source
      defineTrusted name ⟨body, ignoreOutput, newScope, location⟩
      pure Value.empty) :=
  .bind (bodyOf_lawful _) fun _ => .bind (defineTrusted_lawful _ _) fun _ => .pure _

theorem defineFunction_lawful : defineFunction.Lawful := by
  intro calls h f name args _
  dsimp only [defineFunction, trustedOnly, acting, Behaviour.run]
  split
  · exact .bind (.ofExcept _) fun _ => defineFrom_lawful _ _ _ _
  · exact defineFrom_lawful _ _ _ _

/-- The function before a function runs in the frame of the call, as the function itself would. -/
theorem callOlder_lawful {calls : Calls} (h : calls.Lawful) {f : Frame} (g : UserFunction)
    (args : List Value) : Action.Lawful f (callOlder calls g args) := by
  unfold callOlder
  split
  · exact invoke_lawful h.evaluate _ args
  · exact h.builtin f g.name args

theorem oldFunction_lawful : oldFunction.Lawful := by
  intro calls h f name args _
  refine .frame_bind ?_
  split
  · exact .failEvaluation _
  · exact callOlder_lawful h _ args

theorem functions_lawful : ∀ b ∈ functions, b.Lawful := by
  simp only [functions, List.forall_mem_cons, List.not_mem_nil, false_imp_iff, implies_true, and_true]
  refine ⟨defineFunction_lawful, ?_, oldFunction_lawful, ?_, ?_, ?_, ?_⟩
  · exact fun _ _ _ _ _ _ => .bind .get fun _ => .pure _
  · exact fun _ h _ _ _ _ => runText_lawful h.evaluate _ true
  · exact fun _ h _ _ _ _ => runText_lawful h.evaluate _ false
  · exact fun _ _ _ _ _ _ => .frame_bind (.pure _)
  · exact fun _ _ _ _ _ _ => .frame_bind (.pure _)

/-! ## The catalog -/

/-- **Every built-in function stays within the authority of the frame that may call it.** -/
theorem all_lawful : ∀ b ∈ Builtin.all, b.Lawful := by
  have hcomputed {l : List Builtin} (h : l.all computes = true) : ∀ b ∈ l, b.Lawful :=
    fun b hb => lawful_of_computes (List.all_eq_true.1 h b hb)
  -- two families consist of functions that compute; the others have a lemma each
  simp only [Builtin.all, List.forall_mem_append]
  exact ⟨⟨⟨⟨⟨⟨⟨⟨⟨propertyLists_lawful, hcomputed (l := stringLists) rfl⟩, hcomputed (l := trees) rfl⟩,
    control_lawful⟩, functions_lawful⟩, links_lawful⟩, tokens_lawful⟩, chat_lawful⟩, turnOrder_lawful⟩,
    diceRolls_lawful⟩

end Builtin

end Tabletop
