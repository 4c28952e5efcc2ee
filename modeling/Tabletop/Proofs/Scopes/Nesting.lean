import Tabletop.Proofs.Calls.Outcome
import Tabletop.Proofs.Scopes.Tree

/-
  Nested bodies among scopes.

  An action is given the variables of its own scope only, and a nested body is given those of its
  caller or none.  This is how it comes that no body can reach the variables of a scope that it does
  not share.  Here actions run in a tree of scopes, where all variables are within reach of everybody
  and a body that shares the variables of its caller points at them; and the two come to the same.

  1. **Actions among scopes** — `ScopedAction`: what an action does in one scope of a tree (`inScope`),
     and a nested body that makes a new scope, runs there, and leaves to its caller the value that it
     hands back (`inChild`).

  2. **What is left of a tree** — `ScopeTree.LeftWith`: the scopes that were there before are the same
     scopes, those that share with the scope of the run have the variables that the run has left, and
     all others have their own.

  3. **Realizing** — `ScopedAction.Realizes`: among scopes a run ends as an action does on the variables of
     its scope, and leaves what the action leaves.  Every way of putting actions together keeps this;
     nested bodies are those of `nestedReturn`, which calls of functions and text are made of.
-/
namespace Tabletop

/-- The state of a run that has all scopes within reach. -/
structure SharedState where
  table : Table
  tree : ScopeTree
  output : String

/-- The state as it is seen from a scope. -/
def SharedState.own (s : SharedState) (i : Nat) : RunState := ⟨s.table, s.tree.bindings i, s.output⟩

/-- Something that a macro does in a scope among others. -/
abbrev ScopedAction (α : Type) := ReaderT Nat (ReaderT Frame (ExceptT Interrupt (StateM SharedState))) α

/-! ## Actions among scopes -/

/-- What an action does in one scope among others. -/
def Action.inScope {α : Type} (act : Action α) : ScopedAction α := fun i f s =>
  let (r, u) := act f (s.own i)
  (r, ⟨u.table, s.tree.update i fun _ => u.bindings, u.output⟩)

namespace ScopedAction

variable {α β : Type}

/-- Runs something in a new child of the scope.  The scope takes over what the child hands back. -/
def inChild (g : Frame) (share : Bool) (act : ScopedAction α) : ScopedAction (Action.Nested α) :=
  fun i _ s =>
    let (r, u) := act s.tree.scopes.length g ⟨s.table, s.tree.child i share none, ""⟩
    match r with
    | .ok a =>
      (.ok ⟨a, u.output, u.tree.resolve? s.tree.scopes.length Variables.returnName⟩,
        ⟨u.table, u.tree.takeReturn i s.tree.scopes.length, s.output⟩)
    | .error e => (.error e, ⟨u.table, u.tree, s.output⟩)

/-- An abort is the end of the action. -/
def untilAbort (act : ScopedAction Unit) : ScopedAction Unit := fun i f s =>
  match act i f s with
  | (.error (.abort _), s) => (.ok (), s)
  | r => r

/-- What something does that has a tree of its own, with one scope. -/
def alone (act : ScopedAction α) : Action α := fun f s =>
  let (r, u) := act 0 f ⟨s.table, ⟨[⟨0, none⟩], [s.bindings]⟩, s.output⟩
  (r, u.own 0)

/-- An answer changes nothing. -/
@[simp] theorem pure_apply (a : α) (i : Nat) (f : Frame) (s : SharedState) :
    (pure a : ScopedAction α) i f s = (.ok a, s) := rfl

/-- The second action starts where the first has ended. -/
@[simp] theorem bind_apply (act : ScopedAction α) (k : α → ScopedAction β) (i : Nat) (f : Frame)
    (s : SharedState) : (act >>= k) i f s =
      match act i f s with
      | (.ok a, s') => k a i f s'
      | (.error e, s') => (.error e, s') := by
  show (ExceptT.bindCont (k · i f) (act i f s).1) (act i f s).2 = _
  rcases act i f s with ⟨r, s'⟩
  cases r <;> rfl

end ScopedAction

/-! ## What is left of a tree -/

namespace ScopeTree

/-- A run in a scope has left these variables in it.  Scopes may have been added. -/
structure LeftWith (t : ScopeTree) (i : Nat) (vars : Variables) (t' : ScopeTree) : Prop where
  placed : t'.Placed
  older : t.scopes <+: t'.scopes
  /-- The variables are seen from where they are shared, and from nowhere else. -/
  bindings : ∀ j, j < t.scopes.length → t'.bindings j = if t.shares i j then vars else t.bindings j

variable {t t' t'' : ScopeTree} {i j : Nat} {share : Bool} {vars vars' : Variables}

namespace LeftWith

/-- Scopes that were there are there still. -/
theorem lt_length (h : t.LeftWith i vars t') (hj : j < t.scopes.length) : j < t'.scopes.length :=
  Nat.lt_of_lt_of_le hj h.older.length_le

/-- Older scopes stay what they are. -/
theorem scope?_eq (h : t.LeftWith i vars t') (hj : j < t.scopes.length) : t'.scope? j = t.scope? j := by
  obtain ⟨added, hadded⟩ := h.older
  unfold scope?
  rw [← hadded, List.getElem?_append_left hj]

/-- Older scopes share as before. -/
theorem shares_eq (h : t.LeftWith i vars t') {k : Nat} (hj : j < t.scopes.length)
    (hk : k < t.scopes.length) : t'.shares j k = t.shares j k := by
  unfold shares
  rw [h.scope?_eq hj, h.scope?_eq hk]

/-- What is left in the scope itself. -/
theorem bindings_self (h : t.LeftWith i vars t') (hi : i < t.scopes.length) : t'.bindings i = vars := by
  rw [h.bindings i hi, shares_self hi, if_pos rfl]

/-- Nothing was done. -/
theorem refl (ht : t.Placed) (i : Nat) : t.LeftWith i (t.bindings i) t := by
  refine ⟨ht, List.prefix_rfl, fun j _ => ?_⟩
  cases h : t.shares i j with
  | false => rfl
  | true => rw [if_pos rfl, bindings_eq_of_shares h]

/-- A run goes on in the same scope. -/
theorem trans (h : t.LeftWith i vars t') (h' : t'.LeftWith i vars' t'') (hi : i < t.scopes.length) :
    t.LeftWith i vars' t'' := by
  refine ⟨h'.placed, h.older.trans h'.older, fun j hj => ?_⟩
  rw [h'.bindings j (h.lt_length hj), h.shares_eq hi hj, h.bindings j hj]
  cases t.shares i j <;> rfl

/-- The variables were changed after all. -/
theorem update (h : t.LeftWith i vars t') (hi : i < t.scopes.length) (g : Variables → Variables) :
    t.LeftWith i (g vars) (t'.update i g) := by
  refine ⟨update_placed h.placed i g, ?_, fun j hj => ?_⟩
  · rw [scopes_update]
    exact h.older
  · rw [bindings_update h.placed (h.lt_length hi) (h.lt_length hj), h.shares_eq hi hj, h.bindings j hj]
    cases t.shares i j <;> rfl

end LeftWith

/-! ## What a child leaves -/

/-- A child is added behind the older scopes. -/
theorem older_child (t : ScopeTree) (i : Nat) (share : Bool) (subject : Option (Option TokenId)) :
    t.scopes <+: (t.child i share subject).scopes := by
  cases hs : t.scope? i with
  | none =>
    have hsame : t.child i share subject = t := by
      unfold child
      rw [hs]
    exact ⟨[], by rw [hsame, List.append_nil]⟩
  | some s =>
    rw [child_eq hs]
    cases share <;> exact List.prefix_append _ _

/-- **A run in a new child** leaves its variables to the parent if the two share them.  If not, the
    parent has its own. -/
theorem LeftWith.of_child (ht : t.Placed) (hi : i < t.scopes.length)
    (h : (t.child i share none).LeftWith t.scopes.length vars t') :
    t.LeftWith i (if share then vars else t.bindings i) t' := by
  refine ⟨h.placed, (older_child t i share none).trans h.older, fun j hj => ?_⟩
  have hnew : j < (t.child i share none).scopes.length :=
    Nat.lt_of_lt_of_le hj (older_child t i share none).length_le
  -- an older scope shares with the child if it shares with the parent and the parent shares with the
  -- child
  rw [h.bindings j hnew, shares_child_new ht hi hj, bindings_child ht hj]
  cases hshares : t.shares i j with
  | false => rw [Bool.and_false, if_neg Bool.false_ne_true, if_neg Bool.false_ne_true]
  | true =>
    rw [Bool.and_true, if_pos rfl]
    cases share with
    | true => rfl
    | false => exact (bindings_eq_of_shares hshares).symm

/-- The child is there. -/
theorem lt_length_child (hi : i < t.scopes.length) :
    t.scopes.length < (t.child i share none).scopes.length := by
  rw [length_child hi]
  exact Nat.lt_succ_self _

/-- What the child hands back. -/
theorem LeftWith.resolve?_child (hi : i < t.scopes.length)
    (h : (t.child i share none).LeftWith t.scopes.length vars t') :
    t'.resolve? t.scopes.length Variables.returnName = vars.returned? := by
  unfold resolve?
  rw [h.bindings_self (lt_length_child hi)]
  rfl

/-- A parent and its child share their variables if they were told to. -/
theorem LeftWith.shares_child (ht : t.Placed) (hi : i < t.scopes.length)
    (h : (t.child i share none).LeftWith t.scopes.length vars t') :
    t'.shares i t.scopes.length = share := by
  have hnew : t.scopes.length < (t.child i share none).scopes.length := lt_length_child hi
  rw [h.shares_eq (Nat.lt_trans hi hnew) hnew, shares_comm, shares_child_new ht hi hi, shares_self hi,
    Bool.and_true]

/-- **What a parent takes over** from a child of its own making.  Where the two share their variables
    there is nothing to take over. -/
theorem LeftWith.takeReturn_child (ht : t.Placed) (hi : i < t.scopes.length)
    (h : (t.child i share none).LeftWith t.scopes.length vars t') :
    t.LeftWith i ((if share then vars else t.bindings i).receive vars.returned?)
      (t'.takeReturn i t.scopes.length) := by
  have hleft := LeftWith.of_child ht hi h
  unfold takeReturn
  rw [h.resolve?_child hi, h.shares_child ht hi]
  -- nothing is handed back, or a value is, to a parent that has it already or not
  cases hv : vars.returned? with
  | none => exact hleft
  | some v =>
    cases share with
    | true =>
      have hsame : vars.receive (some v) = vars := by
        rw [← hv]
        exact vars.receive_returned?
      rw [if_pos rfl, hsame]
      exact hleft
    | false => exact hleft.update hi (Assoc.insert · Variables.returnName v)

end ScopeTree

/-! ## Realizing -/

/-- A run in a scope has left this state, as the scope sees it. -/
structure SharedState.LeftAs (s : SharedState) (i : Nat) (u : RunState) (s' : SharedState) : Prop where
  table : s'.table = u.table
  tree : s.tree.LeftWith i u.bindings s'.tree
  output : s'.output = u.output

/-- The scope sees what was left. -/
theorem SharedState.LeftAs.own_eq {s s' : SharedState} {i : Nat} {u : RunState} (h : s.LeftAs i u s')
    (hi : i < s.tree.scopes.length) : s'.own i = u := by
  unfold SharedState.own
  rw [h.table, h.tree.bindings_self hi, h.output]

namespace ScopedAction

variable {α β : Type}

/-- In every scope of every tree a run ends as the action does on the variables of this scope, and leaves
    what the action leaves. -/
def Realizes (act : ScopedAction α) (own : Action α) : Prop :=
  ∀ i f s, s.tree.Placed → i < s.tree.scopes.length →
    (act i f s).1 = (own f (s.own i)).1 ∧ s.LeftAs i (own f (s.own i)).2 (act i f s).2

namespace Realizes

/-- An action that is run in a scope. -/
theorem inScope (own : Action α) : Realizes own.inScope own := by
  intro i f s ht hi
  have hleft := (ScopeTree.LeftWith.refl ht i).update hi fun _ => (own f (s.own i)).2.bindings
  exact ⟨rfl, rfl, hleft, rfl⟩

/-- An answer leaves everything as it is. -/
theorem pure (a : α) : Realizes (Pure.pure a) (Pure.pure a) := by
  intro i f s ht hi
  exact ⟨rfl, rfl, .refl ht i, rfl⟩

/-- So does an error. -/
theorem throw (e : Interrupt) :
    Realizes (MonadExcept.throw e : ScopedAction α) (MonadExcept.throw e) := by
  intro i f s ht hi
  exact ⟨rfl, rfl, .refl ht i, rfl⟩

/-- One after the other: the second starts with the variables that the first has left in the scope. -/
theorem bind {act : ScopedAction α} {own : Action α} {k : α → ScopedAction β} {k' : α → Action β}
    (h : Realizes act own) (hk : ∀ a, Realizes (k a) (k' a)) : Realizes (act >>= k) (own >>= k') := by
  intro i f s ht hi
  obtain ⟨hend, hleft⟩ := h i f s ht hi
  rw [bind_apply, Action.bind_apply]
  rcases hact : act i f s with ⟨r, s'⟩
  rcases hown : own f (s.own i) with ⟨r', u⟩
  rw [hact, hown] at hend hleft
  obtain rfl : r = r' := hend
  -- an error ends both, with what was left so far
  cases r with
  | error e => exact ⟨rfl, hleft⟩
  | ok a =>
    obtain ⟨hend', hleft'⟩ := hk a i f s' hleft.tree.placed (hleft.tree.lt_length hi)
    rw [hleft.own_eq hi] at hend' hleft'
    exact ⟨hend', hleft'.table, hleft.tree.trans hleft'.tree hi, hleft'.output⟩

/-- An abort ends both, an error passes through both. -/
theorem untilAbort {act : ScopedAction Unit} {own : Action Unit} (h : Realizes act own) :
    Realizes act.untilAbort own.untilAbort := by
  intro i f s ht hi
  obtain ⟨hend, hleft⟩ := h i f s ht hi
  unfold ScopedAction.untilAbort Action.untilAbort
  rcases hact : act i f s with ⟨r, s'⟩
  rcases hown : own f (s.own i) with ⟨r', u⟩
  rw [hact, hown] at hend hleft
  obtain rfl : r = r' := hend
  rcases r with e | a
  · cases e <;> exact ⟨rfl, hleft⟩
  · exact ⟨rfl, hleft⟩

/-- **Nested bodies do what scopes that share do.**  A body in a new child of the scope of its caller ends
    as one that is handed the variables of its caller, or none. -/
theorem inChild {act : ScopedAction α} {own : Action α} (h : Realizes act own) (g : Frame) (share : Bool) :
    Realizes (act.inChild g share) (Action.nestedReturn g share own) := by
  intro i f s ht hi
  obtain ⟨hend, hleft⟩ := h s.tree.scopes.length g ⟨s.table, s.tree.child i share none, ""⟩
    (ScopeTree.child_placed ht i share none) (ScopeTree.lt_length_child hi)
  -- the child starts with the variables that the nested body is handed
  have hstart : SharedState.own ⟨s.table, s.tree.child i share none, ""⟩ s.tree.scopes.length =
      ⟨(s.own i).table, if share then (s.own i).bindings else [], ""⟩ := by
    unfold SharedState.own
    rw [ScopeTree.bindings_child_new hi]
  rw [hstart] at hend hleft
  unfold ScopedAction.inChild
  rw [Action.nestedReturn_apply]
  rcases hact : act s.tree.scopes.length g ⟨s.table, s.tree.child i share none, ""⟩ with ⟨r, s'⟩
  rcases hown : own g ⟨(s.own i).table, if share then (s.own i).bindings else [], ""⟩ with ⟨r', u⟩
  rw [hact, hown] at hend hleft
  obtain rfl : r = r' := hend
  cases r with
  | error e => exact ⟨rfl, hleft.table, ScopeTree.LeftWith.of_child ht hi hleft.tree, rfl⟩
  | ok a =>
    refine ⟨?_, hleft.table, ScopeTree.LeftWith.takeReturn_child ht hi hleft.tree, rfl⟩
    dsimp only
    rw [hleft.tree.resolve?_child hi, hleft.output]

/-- In a tree of its own, with one scope, nothing is left of the tree but this scope. -/
theorem alone_eq {act : ScopedAction α} {own : Action α} (h : Realizes act own) : act.alone = own := by
  funext f s
  -- the one scope points at the one place
  have hplaced : ScopeTree.Placed ⟨[⟨0, none⟩], [s.bindings]⟩ := by
    intro a ha
    obtain rfl := List.mem_singleton.1 ha
    exact Nat.zero_lt_one
  obtain ⟨hend, hleft⟩ := h 0 f ⟨s.table, ⟨[⟨0, none⟩], [s.bindings]⟩, s.output⟩ hplaced Nat.zero_lt_one
  have hown : SharedState.own ⟨s.table, ⟨[⟨0, none⟩], [s.bindings]⟩, s.output⟩ 0 = s := rfl
  rw [hown] at hend hleft
  exact Prod.ext hend (hleft.own_eq Nat.zero_lt_one)

end Realizes

end ScopedAction

end Tabletop
