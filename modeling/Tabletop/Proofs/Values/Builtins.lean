import Tabletop.Proofs.Values.Agreement

/-
  Built-in functions answer proper arguments with proper values.

  1. **The obligation** — `Builtin.Keeps b`: from proper variables and with proper arguments `b` answers
     with a proper value and leaves proper variables, given that the calls which it makes do so.  A
     function that computes its value has to show the first half alone (`keeps_of_computes`).

  2. **Trees** — what is read out of a tree is a proper value, and what is written is an array or an object
     again.  So the arms for other shapes are not reached (`Watch.withArm_agrees`,
     `Watch.jsonSetWithArm_agrees`).

  3. **Other functions** — they answer with numbers, texts, arguments, or arrays of names.
-/
namespace Tabletop

/-- From proper variables, with proper arguments and with calls that agree, the second does what the first
    does, and answers with proper values. -/
def Behaviour.Agrees (g g' : Behaviour) : Prop :=
  ∀ calls calls' : Calls, calls.Agrees calls' → ∀ name args, (∀ v ∈ args, v.IsProper) →
    Action.Agrees Value.IsProper (g.run calls name args) (g'.run calls' name args)

namespace Builtin

open Arguments

/-- What the function does with calls that agree is the same, and leads to proper values. -/
def Keeps (b : Builtin) : Prop := b.function.Agrees b.function

/-- A function that computes its value has to answer with proper values. -/
theorem keeps_of_computes {d : Descriptor} {f : String → List Value → Except MacroError Value}
    (h : ∀ name args, (∀ v ∈ args, v.IsProper) → OnlyAnswers Value.IsProper (f name args)) :
    Keeps ⟨d, .computes f⟩ :=
  fun _ _ _ name args hargs => .ofExcept (h name args hargs)

/-- A value that is read out of a text or a tree, or empty text. -/
theorem isProper_map_getD {α : Type} {g : α → Value} (hg : ∀ a, (g a).IsProper) (r : Option α) :
    ((r.map g).getD .empty).IsProper := by
  cases r with
  | none => exact .text _
  | some a => exact hg a

variable {function : String} {args : List Value}

/-! ## Reading trees -/

/-- `json.get` answers with a node that is read out, with the default, or with a tree. -/
theorem jsonGet_keeps : jsonGet.Keeps := by
  refine keeps_of_computes fun name args hargs => .bind (.any _) fun j _ => ?_
  -- an object, an array, or neither
  split
  · split
    · exact .ok (isProper_map_getD Value.isProper_ofJson _)
    · exact .ok (.tree rfl)
  · split
    · exact .bind (.any _) fun place _ => .ok (isProper_map_getD Value.isProper_ofJson _)
    · split
      · exact .error _
      · exact .bind (.any _) fun first _ => .bind (.any _) fun last _ => .ok (.tree rfl)
  · exact .error _

theorem jsonFields_keeps : jsonFields.Keeps := by
  refine keeps_of_computes fun name args hargs => .bind (.any _) fun j _ => ?_
  dsimp only
  split
  · exact .ok (.tree rfl)
  · exact .ok (.text _)

/-- The kind of a value is text. -/
theorem jsonType_keeps : jsonType.Keeps := by
  refine keeps_of_computes fun name args hargs => ?_
  split <;> exact .ok (.text _)

theorem jsonIsEmpty_keeps : jsonIsEmpty.Keeps := by
  refine keeps_of_computes fun name args hargs => ?_
  split <;> exact .ok (.number _)

/-- An indented tree is text. -/
theorem jsonIndent_keeps : jsonIndent.Keeps := by
  refine keeps_of_computes fun name args hargs => .bind (.any _) fun j _ => ?_
  split
  · exact .ok (.text _)
  · exact .bind (.any _) fun n _ => .ok (.text _)

/-- A property list is text. -/
theorem jsonToStrProp_keeps : jsonToStrProp.Keeps := by
  refine keeps_of_computes fun name args hargs => .bind (.any _) fun j _ => ?_
  split
  · exact .ok (.text _)
  · exact .error _

/-! ## Writing trees -/

/-- An array or object in which an entry is set is one again. -/
theorem isTree_setEntry (i : Nat) (key v : Value) (tree : Json) :
    OnlyAnswers (fun j => j.isTree = true) (setEntry args function i key v tree) := by
  unfold setEntry
  split
  · exact .ok rfl
  · exact .bind (.any _) fun place _ => .ok rfl
  · exact .error _

theorem isTree_setEntries : ∀ (i : Nat) {tree : Json} (entries : List Value), tree.isTree = true →
    OnlyAnswers (fun j => j.isTree = true) (setEntries args function i tree entries)
  | _, _, [], h => .ok h
  | _, _, [_], h => .ok h
  | i, tree, key :: v :: rest, _ =>
    .bind (isTree_setEntry i key v tree) fun _ h => isTree_setEntries (i + 2) rest h

/-- `json.set` answers with the tree that it has changed. -/
theorem jsonSet_keeps : jsonSet.Keeps := by
  refine keeps_of_computes fun name args hargs => ?_
  split
  · exact .error _
  · refine .bind (isTree_treeOr hargs name 0 rfl) fun tree htree => ?_
    exact .bind (isTree_setEntries 1 _ htree) fun j hj => .ok (.tree hj)

/-- What is appended makes an array. -/
theorem jsonAppend_keeps : jsonAppend.Keeps := by
  refine keeps_of_computes fun name args hargs => .bind (.any _) fun j _ => ?_
  split
  · exact .ok (.tree rfl)
  · exact .error _

/-- What is no array and no object is answered with as it is; but the argument is one of them. -/
theorem jsonRemove_keeps : jsonRemove.Keeps := by
  refine keeps_of_computes fun name args hargs => ?_
  refine .bind (isTree_treeAt hargs name 0) fun j hj => ?_
  split
  · exact .ok (.tree rfl)
  · exact .bind (.any _) fun place _ => .ok (.tree rfl)
  · exact .ok (.tree hj)

/-- The functions on trees. -/
theorem trees_keep : ∀ b ∈ trees, b.Keeps := by
  simp only [trees, List.forall_mem_cons, List.not_mem_nil, false_imp_iff, implies_true, and_true]
  refine ⟨jsonGet_keeps, jsonSet_keeps, ?_, jsonFields_keeps, jsonType_keeps, jsonIsEmpty_keeps, ?_,
    jsonAppend_keeps, jsonRemove_keeps, jsonIndent_keeps, ?_, ?_, ?_, jsonToStrProp_keeps⟩
  · exact keeps_of_computes fun _ _ _ => .bind (.any _) fun _ _ => .ok (.number _)
  · exact keeps_of_computes fun _ _ _ => .bind (.any _) fun _ _ => .ok (.number _)
  · exact keeps_of_computes fun _ _ _ => .ok (.tree rfl)
  · exact keeps_of_computes fun _ _ _ => .ok (.tree rfl)
  · exact keeps_of_computes fun _ _ _ => .bind (.any _) fun _ _ => .ok (.text _)

/-! ## Lists -/

/-- The entries of a list become variables with coerced values. -/
theorem proper_bindEntries (style : VariableStyle) (entries : List Property) {vars : Variables}
    (h : vars.Proper) : (bindEntries style entries vars).Proper := by
  unfold bindEntries
  induction entries generalizing vars with
  | nil => exact h
  | cons e rest ih => exact ih (h.insert _ (Value.isProper_coerce e.value))

/-- `varsFromStrProp` binds coerced texts. -/
theorem varsFromStrProp_keeps : varsFromStrProp.Keeps := by
  intro calls calls' hcalls name args hargs
  refine .bind (.ofExcept (.any _)) fun style _ => ?_
  split
  split
  · exact .pure (.number _)
  · exact .bind (.modifyVariables fun _ h => proper_bindEntries _ _ h) fun _ _ => .pure (.number _)

/-- The functions on property lists. -/
theorem propertyLists_keep : ∀ b ∈ propertyLists, b.Keeps := by
  simp only [propertyLists, List.forall_mem_cons, List.not_mem_nil, false_imp_iff, implies_true,
    and_true]
  -- in the order of the list: `getStrProp` and `indexValueStrProp` coerce what they find,
  -- `varsFromStrProp` binds variables, the others answer with texts and numbers
  refine ⟨?_, ?_, ?_, ?_, ?_, ?_, ?_, ?_, ?_⟩
  · refine keeps_of_computes fun name args hargs => .ok ?_
    refine Value.isProper_getD (fun v hv => ?_) (isProper_valueAt hargs 2)
    obtain ⟨s, -, rfl⟩ := Option.map_eq_some_iff.1 hv
    exact Value.isProper_coerce s
  · exact keeps_of_computes fun _ _ _ => .ok (.text _)
  · exact keeps_of_computes fun _ _ _ => .ok (.text _)
  · exact keeps_of_computes fun _ _ _ => .ok (.number _)
  · exact keeps_of_computes fun _ _ _ => .bind (.any _) fun _ _ => .ok (.text _)
  · refine keeps_of_computes fun _ _ _ => .bind (.any _) fun entry _ => .ok ?_
    refine isProper_map_getD (fun e => ?_) entry
    exact Value.isProper_coerce _
  · exact varsFromStrProp_keeps
  · intro _ _ _ _ _ _
    refine .bind (.ofExcept (.any _)) fun _ _ => .get_bind fun _ _ => ?_
    exact .pure (.text _)
  · exact keeps_of_computes fun _ _ _ => .ok (.text _)

/-- The functions on lists in text. -/
theorem stringLists_keep : ∀ b ∈ stringLists, b.Keeps := by
  simp only [stringLists, List.forall_mem_cons, List.not_mem_nil, false_imp_iff, implies_true, and_true]
  -- in the order of the list: `listGet` coerces the element that it finds, the others answer with
  -- texts and numbers
  refine ⟨?_, ?_, ?_, ?_, ?_, ?_, ?_⟩
  · exact keeps_of_computes fun _ _ _ => .bind (.any _) fun _ _ =>
      .ok (isProper_map_getD Value.isProper_coerce _)
  · exact keeps_of_computes fun _ _ _ => .bind (.any _) fun _ _ => .ok (.text _)
  · exact keeps_of_computes fun _ _ _ => .ok (.number _)
  · refine keeps_of_computes fun _ _ _ => ?_
    split <;> exact .ok (.number _)
  · exact keeps_of_computes fun _ _ _ => .ok (.text _)
  · refine keeps_of_computes fun _ _ _ => .bind (.any _) fun _ _ => ?_
    split
    · exact .ok (.text _)
    · exact .error _
  · exact keeps_of_computes fun _ _ _ => .bind (.any _) fun _ _ => .ok (.text _)

/-! ## Tokens -/

/-- A token is looked up by its name or as the subject. -/
theorem readToken_keeps (i : Nat) :
    Action.Agrees (fun _ => True) (readToken function args i) (readToken function args i) := by
  unfold readToken
  split
  · exact .subjectToken _
  · exact .namedToken _ _

/-- So is the token that is to be changed. -/
theorem tokenToChange_keeps (i : Nat) :
    Action.Agrees (fun _ => True) (tokenToChange function args i) (tokenToChange function args i) := by
  unfold tokenToChange
  split
  · exact .subjectToken _
  · refine .bind (.namedToken _ _) fun t _ => .bind .frame fun f _ => ?_
    split
    · exact .pure trivial
    · exact .bind (.requireTrust _) fun _ _ => .pure trivial

/-- A token is stored in the campaign, where there are no variables. -/
theorem store_keeps (t : Token) :
    Action.Agrees (fun _ => True) (store function t) (store function t) := by
  refine .bind .campaign fun c _ => ?_
  split
  · exact .modifyCampaign _
  · exact .fail _

theorem nameAt_keeps (kind : NameKind) (i : Nat) :
    Action.Agrees (fun _ => True) (nameAt kind function args i) (nameAt kind function args i) := by
  dsimp only [nameAt]
  split
  · exact .ofExcept (.any _)
  · exact .pure trivial

theorem checkCount_keeps (accepted : Arity) :
    Action.Agrees (fun _ => True) (checkCount function accepted args)
      (checkCount function accepted args) := by
  unfold checkCount
  split
  · exact .pure trivial
  · exact .fail _

/-- The name of a token is text. -/
theorem nameFunction_keeps :
    Action.Agrees Value.IsProper (nameFunction function args) (nameFunction function args) := by
  unfold nameFunction
  split
  · refine .bind (checkCount_keeps _) fun _ _ => .bind (nameAt_keeps _ 0) fun name _ => ?_
    refine .bind (tokenToChange_keeps 1) fun t _ => .bind (store_keeps _) fun _ _ => ?_
    exact .pure (.text _)
  · exact .bind (checkCount_keeps _) fun _ _ => .bind (readToken_keeps 0) fun t _ => .pure (.text _)

/-- A name is read, then a token, and the token is stored as it has become. -/
theorem change_keeps (kind : NameKind) (g : Token → String → Token) {v : Value} (hv : v.IsProper) :
    Action.Agrees Value.IsProper
      (do
        let name ← nameAt kind function args 0
        let t ← tokenToChange function args 2
        store function (g t name)
        pure v)
      (do
        let name ← nameAt kind function args 0
        let t ← tokenToChange function args 2
        store function (g t name)
        pure v) :=
  .bind (nameAt_keeps kind 0) fun _ _ => .bind (tokenToChange_keeps 2) fun _ _ =>
    .bind (store_keeps _) fun _ _ => .pure hv

/-- Names are joined to a text or are the items of an array. -/
theorem isProper_joined (names : List String) (delimiter : String) :
    (joined names delimiter).IsProper := by
  unfold joined
  split
  · exact .tree rfl
  · exact .text _

/-- The functions on tokens. -/
theorem tokens_keep : ∀ b ∈ tokens, b.Keeps := by
  simp only [tokens, List.forall_mem_cons, List.not_mem_nil, false_imp_iff, implies_true, and_true]
  -- in the order of the list: `getProperty` coerces, the others answer with texts, numbers and lists
  refine ⟨?_, ?_, ?_, ?_, ?_, ?_, ?_, ?_, ?_, ?_, ?_⟩
  · exact fun _ _ _ _ _ _ => .bind .frame fun _ _ => .pure (.text _)
  · exact fun _ _ _ _ _ _ => nameFunction_keeps
  · intro _ _ _ _ args _
    refine .bind (readToken_keeps 1) fun t _ => .pure ?_
    exact isProper_map_getD Value.isProper_coerce (t.property? (textAt args 0))
  · exact fun _ _ _ _ args _ => change_keeps .property (·.setProperty · (textAt args 1)) (.text _)
  · exact fun _ _ _ _ _ _ => .bind (readToken_keeps 1) fun _ _ => .pure (.number _)
  · exact fun _ _ _ _ args _ => change_keeps .state (·.setState · (flagAt args 1 false)) (.number _)
  · exact fun _ _ _ _ _ _ => .bind (readToken_keeps 1) fun _ _ => .pure (isProper_joined _ _)
  · exact fun _ _ _ _ _ _ => .bind .campaign fun _ _ => .pure (.text _)
  · exact fun _ _ _ _ _ _ => .bind .campaign fun _ _ => .pure (isProper_joined _ _)
  · exact fun _ _ _ _ _ _ => .bind .frame fun _ _ => .bind .campaign fun _ _ => .pure (.number _)
  · exact fun _ _ _ _ _ _ => .bind .frame fun _ _ => .pure (.text _)

/-! ## The turn order, chat and dice -/

theorem modifyInitiative_keeps (g : InitiativeList → InitiativeList) :
    Action.Agrees (fun _ => True) (modifyInitiative g) (modifyInitiative g) := .modifyCampaign _

theorem initiative_keeps : Action.Agrees (fun _ => True) initiative initiative :=
  .bind .campaign fun _ _ => .pure trivial

/-- The position of the turn is a number. -/
theorem isProper_currentPosition (l : InitiativeList) : (currentPosition l).IsProper := by
  unfold currentPosition
  split <;> exact .number _

theorem addToInitiative_keeps : addToInitiative.Keeps := by
  intro calls calls' hcalls name args hargs
  refine .bind (.requireSubject _) fun id _ => .bind initiative_keeps fun l _ => ?_
  split
  · exact .pure (.number _)
  · exact .bind (modifyInitiative_keeps _) fun _ _ => .pure (.number _)

/-- The functions on the turn order. -/
theorem turnOrder_keep : ∀ b ∈ turnOrder, b.Keeps := by
  simp only [turnOrder, List.forall_mem_cons, List.not_mem_nil, false_imp_iff, implies_true, and_true]
  -- in the order of the list: all answer with texts and numbers
  refine ⟨addToInitiative_keeps, ?_, ?_, ?_, ?_, ?_, ?_⟩
  · exact fun _ _ _ _ _ _ => .bind (.requireSubject _) fun _ _ => .bind initiative_keeps fun _ _ =>
      .bind (modifyInitiative_keeps _) fun _ _ => .pure (.number _)
  · exact fun _ _ _ _ _ _ => .bind initiative_keeps fun _ _ => .pure (.number _)
  · exact fun _ _ _ _ _ _ => .bind (.ofExcept (.any _)) fun _ _ =>
      .bind (modifyInitiative_keeps _) fun _ _ => .pure (.text _)
  · exact fun _ _ _ _ _ _ => .bind (modifyInitiative_keeps _) fun _ _ =>
      .bind initiative_keeps fun l _ => .pure (isProper_currentPosition l)
  · exact fun _ _ _ _ _ _ => .bind initiative_keeps fun l _ => .pure (isProper_currentPosition l)
  · exact fun _ _ _ _ _ _ => .bind initiative_keeps fun _ _ => .pure (.number _)

/-- The functions on the chat. -/
theorem chat_keep : ∀ b ∈ chat, b.Keeps := by
  simp only [chat, List.forall_mem_cons, List.not_mem_nil, false_imp_iff, implies_true, and_true]
  exact fun _ _ _ _ _ _ => .bind .frame fun _ _ => .bind .campaign fun _ _ =>
    .bind (.modifyCampaign _) fun _ _ => .pure (.text _)

theorem rollDice_keeps (e : Dice.Expression) :
    Action.Agrees (fun _ => True) (rollDice e) (rollDice e) :=
  .of_bindings_eq (fun _ _ => rfl) fun _ _ => .any _

/-- The functions on dice. -/
theorem diceRolls_keep : ∀ b ∈ diceRolls, b.Keeps := by
  simp only [diceRolls, List.forall_mem_cons, List.not_mem_nil, false_imp_iff, implies_true, and_true]
  intro calls calls' hcalls name args hargs
  refine .bind (.ofExcept (.any _)) fun count _ => .bind (.ofExcept (.any _)) fun sides _ => ?_
  split
  · exact .ofExcept (.error _)
  · refine .bind (rollDice_keeps _) fun r _ => ?_
    split
    · exact .ofExcept (.error _)
    · exact .pure (.number _)

/-! ## Variables -/

/-- An argument of the running function is the value of a variable. -/
theorem isProper_passedArgument {vars : Variables} (h : vars.Proper) (function : String) (i : Nat) :
    OnlyAnswers Value.IsProper (passedArgument vars function i) := by
  unfold passedArgument
  split
  · exact .ok (Value.isProper_getD (fun v hv => h.get? hv) (.text _))
  · exact .error _

/-- Names and values are bound in pairs; a name without a value is left over. -/
theorem bindPairs_keeps (function : String) : ∀ args : List Value, (∀ v ∈ args, v.IsProper) →
    Action.Agrees (fun _ => True) (bindPairs function args) (bindPairs function args)
  | [], _ => .pure trivial
  | [_], _ => .pure trivial
  | name :: v :: rest, hargs => by
    have hv : v.IsProper := hargs v (by simp)
    have hrest : ∀ x ∈ rest, x.IsProper := fun x hx => hargs x (by simp [hx])
    unfold bindPairs
    -- a blank name is an error
    split
    · exact .bind (.ofExcept (.any _)) fun _ _ => .bind (.bindVariable _ hv) fun _ _ =>
        bindPairs_keeps function rest hrest
    · exact .bind (.bindVariable _ hv) fun _ _ => bindPairs_keeps function rest hrest

/-- The functions on arguments, variables and the course of a run. -/
theorem control_keep : ∀ b ∈ control, b.Keeps := by
  simp only [control, List.forall_mem_cons, List.not_mem_nil, false_imp_iff, implies_true, and_true]
  -- `arg`, `argCount`, `set`, `abort` and `assert`
  refine ⟨?_, ?_, ?_, ?_, ?_⟩
  · exact fun _ _ _ name _ _ => .bind (.ofExcept (.any _)) fun i _ => .get_bind fun s hs =>
      .ofExcept (isProper_passedArgument hs name i)
  · exact fun _ _ _ _ _ _ => .get_bind fun _ _ => .pure (.number _)
  · intro calls calls' hcalls name args hargs
    dsimp only [Builtin.set, acting, Behaviour.run]
    split
    · exact .ofExcept (.error _)
    · exact .bind (bindPairs_keeps name args hargs) fun _ _ => .pure (.text _)
  · exact fun _ _ _ _ _ _ => .throw _
  · refine keeps_of_computes fun name args _ => ?_
    split
    · exact .ok (.number _)
    · exact .error _

/-! ## Functions, text and links -/

/-- The body of a definition is found in the campaign. -/
theorem bodyOf_keeps (source : String) :
    Action.Agrees (fun _ => True) (bodyOf source) (bodyOf source) := by
  refine .bind .frame fun f _ => ?_
  split
  · exact .pure trivial
  · exact .bind .campaign fun c _ => .bind (.ofExcept (.any _)) fun m _ => .pure trivial

theorem addDefinition_keeps (name : String) (d : Definition) :
    Action.Agrees (fun _ => True) (addDefinition name d) (addDefinition name d) :=
  .of_bindings_eq (fun _ _ => rfl) fun _ _ => .any _

/-- What is left of a definition once its name is known. -/
theorem defineFrom_keeps (name source : String) (ignoreOutput newScope : Bool) :
    let define : Action Value := do
      let (body, location) ← bodyOf source
      defineTrusted name ⟨body, ignoreOutput, newScope, location⟩
      pure Value.empty
    Action.Agrees Value.IsProper define define := by
  refine .bind (bodyOf_keeps _) fun _ _ => ?_
  refine .bind (.bind (.requireTrust _) fun _ _ => addDefinition_keeps _ _) fun _ _ => ?_
  exact .pure (.text _)

/-- A definition goes to the table, which has no variables. -/
theorem defineFunction_keeps : defineFunction.Keeps := by
  intro calls calls' hcalls name args hargs
  dsimp only [defineFunction, trustedOnly, acting, Behaviour.run]
  split
  · exact .bind (.ofExcept (.any _)) fun _ _ => defineFrom_keeps _ _ _ _
  · exact defineFrom_keeps _ _ _ _

theorem isFunctionDefined_keeps : isFunctionDefined.Keeps := by
  intro calls calls' hcalls name args hargs
  dsimp only [isFunctionDefined, acting, Behaviour.run]
  rw [hcalls.hasBuiltin]
  exact .get_bind fun _ _ => .pure (.number _)

/-- The arguments of the running call are handed on to the function before it. -/
theorem oldFunction_keeps : oldFunction.Keeps := by
  intro calls calls' hcalls name args hargs
  refine .bind .frame fun f _ => ?_
  split
  · exact .failEvaluation _
  · next g hg =>
    unfold callOlder
    split
    · exact invoke_agrees hcalls.evaluate _ hargs
    · exact hcalls.builtin g.name args hargs

/-- The functions on functions and macro text. -/
theorem functions_keep : ∀ b ∈ functions, b.Keeps := by
  simp only [functions, List.forall_mem_cons, List.not_mem_nil, false_imp_iff, implies_true, and_true]
  refine ⟨defineFunction_keeps, isFunctionDefined_keeps, oldFunction_keeps, ?_, ?_, ?_, ?_⟩
  · exact fun _ _ hcalls _ args _ => runText_agrees hcalls.evaluate (textAt args 0) true
  · exact fun _ _ hcalls _ args _ => runText_agrees hcalls.evaluate (textAt args 0) false
  · exact fun _ _ _ _ _ _ => .bind .frame fun _ _ => .pure (.text _)
  · exact fun _ _ _ _ _ _ => .bind .frame fun _ _ => .pure (.text _)

theorem queueLink_keeps (text : String) :
    Action.Agrees (fun _ => True) (queueLink text) (queueLink text) :=
  .of_bindings_eq (fun _ _ => rfl) fun _ _ => .any _

/-- A link is followed or queued; neither reaches the variables of the caller. -/
theorem execLink_keeps : execLink.Keeps := by
  intro calls calls' hcalls name args hargs
  dsimp only [execLink, trustedOnly, acting, Behaviour.run]
  split
  · exact .bind (queueLink_keeps _) fun _ _ => .pure (.text _)
  · exact .bind .frame fun f _ => .bind (.atTable (followLink_agrees hcalls.evaluate _ _ _)) fun _ _ =>
      .pure (.text _)

/-- The functions on links. -/
theorem links_keep : ∀ b ∈ links, b.Keeps := by
  simp only [links, List.forall_mem_cons, List.not_mem_nil, false_imp_iff, implies_true, and_true]
  refine ⟨?_, ?_, execLink_keeps⟩
  · exact keeps_of_computes fun _ _ _ => .ok (.text _)
  · exact keeps_of_computes fun _ _ _ => .ok (.text _)

end Builtin

/-! ## Arms for other shapes -/

namespace Watch

open Arguments Builtin

variable (w : Watch)

/-- **An arm for other shapes** is not reached with proper arguments. -/
theorem withArm_agrees {b : Builtin} (h : b.Keeps) : b.function.Agrees (w.withArm b).function := by
  obtain ⟨d, behaviour⟩ := b
  cases behaviour with
  | acts f => exact h
  | computes f =>
    intro calls calls' hcalls name args hargs
    suffices hsame : (w.withArm ⟨d, .computes f⟩).function.run calls' name args =
        Action.ofExcept (f name args) by
      rw [hsame]
      exact h calls calls' hcalls name args hargs
    show Action.ofExcept _ = Action.ofExcept _
    congr 1
    beta_reduce
    split
    · next j hj => rw [if_pos (isTree_treeAt hargs name 0 j hj)]
    · rfl

/-- No round of setting entries meets a tree that is neither an array nor an object. -/
theorem setEntries?_eq {args : List Value} {function : String} : ∀ (i : Nat) {tree : Json}
    (entries : List Value), tree.isTree = true →
      Watch.setEntries? args function i tree entries = (setEntries args function i tree entries).map some
  | _, _, [], _ => rfl
  | _, _, [_], _ => rfl
  | i, tree, key :: v :: rest, h => by
    rw [Watch.setEntries?, if_pos h, setEntries]
    cases hset : setEntry args function i key v tree with
    | error e => rfl
    | ok j => exact setEntries?_eq (i + 2) rest (isTree_setEntry i key v tree j hset)

/-- The function with the additional arm does what it does without, for the arm waits for a tree that is
    no array and no object. -/
theorem jsonSetWithArm_agrees : jsonSet.function.Agrees w.jsonSetWithArm.function := by
  intro calls calls' hcalls name args hargs
  have hkeeps := jsonSet_keeps calls calls' hcalls name args hargs
  -- it is enough that the two are one and the same action
  suffices hsame : w.jsonSetWithArm.function.run calls' name args =
      jsonSet.function.run calls' name args by
    rw [hsame]
    exact hkeeps
  show Action.ofExcept _ = Action.ofExcept _
  congr 1
  beta_reduce
  split
  · rfl
  · cases htree : treeOr args name 0 (.object []) with
    | error e => rfl
    | ok tree =>
      show (Watch.setEntries? args name 1 tree (args.drop 1) >>= _) = _
      -- the tree is an array or an object, so the arm is never reached
      rw [setEntries?_eq 1 _ (isTree_treeOr hargs name 0 rfl tree htree)]
      show _ = (setEntries args name 1 tree (args.drop 1) >>= fun j => pure (Value.tree j))
      cases setEntries args name 1 tree (args.drop 1) <;> rfl

end Watch

end Tabletop
