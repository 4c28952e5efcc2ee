import Mathlib.Data.List.Induction
import Mathlib.Logic.Relation
import Tabletop.Proofs.Scopes.Tree

/-
  What scopes share is decided by how they were made.

  1. **Histories** — `Step`: a child is made, or a variable is set or taken out, by way of one scope.
     A history is possible if every step goes by way of a scope that was there (`Possible`).

  2. **What the history says** — `Connected`: two scopes are joined by links from parents to children
     that were made to share.  `Latest`: the latest value that a group of scopes was given under a name.
     `SubjectOf`: the nearest subject that was given on the way up to the first scope.  None of them
     looks at places or variables.

  3. **Sharing** — `shares_iff_connected`.  From left to right by induction on the history, for a new
     scope shares with nobody but those that its parent shares with.  From right to left all links are
     between scopes that share, and sharing is an equivalence.

  4. **Values** — `resolve?_run`, for groups of scopes that share; sharing is the same after a step as
     before it, which is why the group may be taken from the end of the history.

  5. **Subjects** — `subject_run_iff`, and the flag for sharing does not matter (`subject_unshared`).
-/
namespace Tabletop.ScopeTree

/-- One step among scopes. -/
inductive Step where
  | child (parent : Nat) (share : Bool) (subject : Option (Option TokenId))
  | bind (scope : Nat) (name : String) (v : Value)
  | unbind (scope : Nat) (name : String)

namespace Step

/-- The scope that a step goes by way of. -/
def scope : Step → Nat
  | .child parent _ _ => parent
  | .bind scope _ _ => scope
  | .unbind scope _ => scope

/-- The number of scopes that a step adds. -/
def added : Step → Nat
  | .child _ _ _ => 1
  | _ => 0

/-- The step sets the variable or takes it out. -/
def Touches (name : String) : Step → Prop
  | .child _ _ _ => False
  | .bind _ x _ => x = name
  | .unbind _ x => x = name

/-- The step without its flag for sharing. -/
def unshared : Step → Step
  | .child parent _ subject => .child parent false subject
  | step => step

def apply (t : ScopeTree) : Step → ScopeTree
  | .child parent share subject => t.child parent share subject
  | .bind scope name v => t.bind scope name v
  | .unbind scope name => t.unbind scope name

end Step

/-- The scopes after a history that starts from one scope. -/
def run (subject : Option TokenId) (steps : List Step) : ScopeTree :=
  steps.foldl Step.apply (root subject)

/-- The number of scopes after a history. -/
def scopeCount : List Step → Nat
  | [] => 1
  | step :: steps => scopeCount steps + step.added

/-- Every step goes by way of a scope that was there. -/
def Possible (steps : List Step) : Prop :=
  ∀ before step after, steps = before ++ step :: after → step.scope < scopeCount before

/-- The scope of a number was made as a child of another. -/
def Made (steps : List Step) (made parent : Nat) (share : Bool) (subject : Option (Option TokenId)) :
    Prop :=
  ∃ before after, steps = before ++ .child parent share subject :: after ∧ made = scopeCount before

/-- The second scope was made as a child of the first that shares its variables. -/
def Link (steps : List Step) (parent made : Nat) : Prop :=
  ∃ subject, Made steps made parent true subject

/-- A path of links joins two scopes. -/
def Connected (steps : List Step) : Nat → Nat → Prop := Relation.EqvGen (Link steps)

/-- The latest step that touched a variable by way of a scope of the group set it to the value. -/
def Latest (group : Nat → Prop) (name : String) (v : Value) (steps : List Step) : Prop :=
  ∃ before scope after, steps = before ++ .bind scope name v :: after ∧ group scope ∧
    ∀ step ∈ after, step.Touches name → ¬ group step.scope

/-- The nearest subject that was given on the way from a scope up to the first one. -/
inductive SubjectOf (subject : Option TokenId) (steps : List Step) : Nat → Option TokenId → Prop
  | root : SubjectOf subject steps 0 subject
  | given {made parent : Nat} {share : Bool} {s : Option TokenId}
      (h : Made steps made parent share (some s)) : SubjectOf subject steps made s
  | kept {made parent : Nat} {share : Bool} {s : Option TokenId}
      (h : Made steps made parent share none) (hparent : SubjectOf subject steps parent s) :
      SubjectOf subject steps made s

variable {subject : Option TokenId} {steps : List Step} {step : Step} {i j : Nat}

/-! ## Histories, from their end -/

/-- A history with one more step falls apart before the last step or at it. -/
theorem concat_eq_append_cons {α : Type} {l before after : List α} {last x : α} :
    l ++ [last] = before ++ x :: after ↔
      (l = before ∧ last = x ∧ after = []) ∨
        ∃ init, after = init ++ [last] ∧ l = before ++ x :: init := by
  rcases List.eq_nil_or_concat after with rfl | ⟨init, y, rfl⟩
  · -- nothing follows `x`: it is the last element
    constructor
    · intro h
      obtain ⟨hl, hx⟩ := List.append_inj' h rfl
      exact Or.inl ⟨hl, List.head_eq_of_cons_eq hx, rfl⟩
    · rintro (⟨rfl, rfl, -⟩ | ⟨init, hinit, -⟩)
      · rfl
      · exact absurd hinit.symm (List.append_ne_nil_of_right_ne_nil _ (List.cons_ne_nil _ _))
  · -- something follows `x`, and the last element is the last of that
    rw [List.concat_eq_append]
    constructor
    · intro h
      rw [← List.cons_append, ← List.append_assoc] at h
      obtain ⟨hl, hy⟩ := List.append_inj' h rfl
      rw [List.head_eq_of_cons_eq hy]
      exact Or.inr ⟨init, rfl, hl⟩
    · rintro (⟨-, -, hnil⟩ | ⟨init', hinit, rfl⟩)
      · exact absurd hnil (List.append_ne_nil_of_right_ne_nil _ (List.cons_ne_nil _ _))
      · rw [hinit, ← List.cons_append, ← List.append_assoc]

/-- The last step is applied last. -/
theorem run_concat : run subject (steps ++ [step]) = step.apply (run subject steps) :=
  List.foldl_append

/-- The first scope is always there. -/
theorem scopeCount_pos (steps : List Step) : 0 < scopeCount steps := by
  induction steps with
  | nil => exact Nat.zero_lt_one
  | cons step steps ih =>
    rw [scopeCount]
    omega

/-- The first scope is counted once only, though both parts begin with one. -/
theorem scopeCount_append (before after : List Step) :
    scopeCount (before ++ after) + 1 = scopeCount before + scopeCount after := by
  induction before with
  | nil => exact Nat.add_comm _ 1
  | cons step before ih =>
    rw [List.cons_append, scopeCount, scopeCount]
    omega

/-- The last step adds what it adds. -/
theorem scopeCount_concat : scopeCount (steps ++ [step]) = scopeCount steps + step.added := by
  have happend := scopeCount_append steps [step]
  have hlast : scopeCount [step] = 1 + step.added := rfl
  omega

/-- What comes before the last step is possible too. -/
theorem Possible.init (h : Possible (steps ++ [step])) : Possible steps := by
  intro before x after hsteps
  refine h before x (after ++ [step]) ?_
  rw [hsteps, List.append_assoc]
  rfl

/-- The last step goes by way of a scope that is there before it. -/
theorem Possible.scope_last_lt (h : Possible (steps ++ [step])) : step.scope < scopeCount steps :=
  h steps step [] rfl

/-- So does every step, and scopes do not vanish. -/
theorem Possible.scope_lt (h : Possible steps) (hstep : step ∈ steps) :
    step.scope < scopeCount steps := by
  obtain ⟨before, after, rfl⟩ := List.append_of_mem hstep
  have hlt := h before step after rfl
  have happend := scopeCount_append before (step :: after)
  have hpos := scopeCount_pos (step :: after)
  omega

/-- Nothing has to be there for no steps. -/
theorem possible_nil : Possible [] := by
  intro before x after hnil
  exact absurd hnil.symm (List.append_ne_nil_of_right_ne_nil before (List.cons_ne_nil x after))

/-- One more step is possible if its scope is there. -/
theorem possible_concat (h : Possible steps) (hstep : step.scope < scopeCount steps) :
    Possible (steps ++ [step]) := by
  intro before x after hsplit
  rcases concat_eq_append_cons.1 hsplit with ⟨rfl, rfl, -⟩ | ⟨init, -, hsteps⟩
  · exact hstep
  · exact h before x init hsteps

section Made

variable {made parent : Nat} {share : Bool} {s : Option (Option TokenId)}

/-- Nothing was made before the first step. -/
theorem not_made_nil : ¬ Made [] made parent share s := by
  rintro ⟨before, after, hnil, -⟩
  exact List.append_ne_nil_of_right_ne_nil before (List.cons_ne_nil _ after) hnil.symm

/-- A scope was made before the last step or by it. -/
theorem made_concat : Made (steps ++ [step]) made parent share s ↔
    Made steps made parent share s ∨ (step = .child parent share s ∧ made = scopeCount steps) := by
  constructor
  · rintro ⟨before, after, hsplit, hmade⟩
    rcases concat_eq_append_cons.1 hsplit with ⟨rfl, hstep, -⟩ | ⟨init, -, hsteps⟩
    · exact Or.inr ⟨hstep, hmade⟩
    · exact Or.inl ⟨before, init, hsteps, hmade⟩
  · rintro (⟨before, after, hsteps, hmade⟩ | ⟨rfl, hmade⟩)
    · exact ⟨before, after ++ [step], concat_eq_append_cons.2 (Or.inr ⟨after, rfl, hsteps⟩), hmade⟩
    · exact ⟨steps, [], rfl, hmade⟩

/-- Parents are made before their children. -/
theorem Possible.lt_of_made (h : Possible steps) (hmade : Made steps made parent share s) :
    parent < made ∧ made < scopeCount steps := by
  obtain ⟨before, after, rfl, rfl⟩ := hmade
  have hparent := h before _ after rfl
  have happend := scopeCount_append before (.child parent share s :: after)
  have hmade : scopeCount (.child parent share s :: after) = scopeCount after + 1 := rfl
  have hpos := scopeCount_pos after
  refine ⟨hparent, ?_⟩
  omega

end Made

/-- More steps cut no connection. -/
theorem connected_concat (h : Connected steps i j) : Connected (steps ++ [step]) i j := by
  refine Relation.EqvGen.mono (fun parent made hlink => ?_) i j h
  obtain ⟨s, hmade⟩ := hlink
  exact ⟨s, made_concat.2 (Or.inl hmade)⟩

section Latest

variable {group other : Nat → Prop} {name : String} {v : Value}

/-- Nothing was set before the first step. -/
theorem not_latest_nil : ¬ Latest group name v [] := by
  rintro ⟨before, scope, after, hnil, -⟩
  exact List.append_ne_nil_of_right_ne_nil before (List.cons_ne_nil _ after) hnil.symm

/-- The latest value is set by the last step, or the last step leaves it. -/
theorem latest_concat : Latest group name v (steps ++ [step]) ↔
    (∃ scope, step = .bind scope name v ∧ group scope) ∨
      ¬ (step.Touches name ∧ group step.scope) ∧ Latest group name v steps := by
  constructor
  · rintro ⟨before, scope, after, hsplit, hscope, hafter⟩
    -- the step that set the value is the last one, or it stands in what is before
    rcases concat_eq_append_cons.1 hsplit with ⟨-, hstep, -⟩ | ⟨init, rfl, hsteps⟩
    · exact Or.inl ⟨scope, hstep, hscope⟩
    · refine Or.inr ⟨fun h => hafter step (List.mem_concat_self ..) h.1 h.2, ?_⟩
      exact ⟨before, scope, init, hsteps, hscope,
        fun x hx => hafter x (List.mem_append_left _ hx)⟩
  · rintro (⟨scope, rfl, hscope⟩ | ⟨hstep, before, scope, after, hsteps, hscope, hafter⟩)
    · exact ⟨steps, scope, [], rfl, hscope, fun x hx => absurd hx (List.not_mem_nil)⟩
    · refine ⟨before, scope, after ++ [step], concat_eq_append_cons.2 (Or.inr ⟨after, rfl, hsteps⟩),
        hscope, fun x hx htouches hgroup => ?_⟩
      rcases List.mem_append.1 hx with hx | hx
      · exact hafter x hx htouches hgroup
      · obtain rfl := List.mem_singleton.1 hx
        exact hstep ⟨htouches, hgroup⟩

/-- Groups may be exchanged that agree about the scopes of the steps. -/
theorem Latest.imp (h : Latest group name v steps)
    (hgroup : ∀ step ∈ steps, group step.scope ↔ other step.scope) : Latest other name v steps := by
  obtain ⟨before, scope, after, rfl, hscope, hafter⟩ := h
  have hbind := hgroup (.bind scope name v) (List.mem_append_right _ List.mem_cons_self)
  refine ⟨before, scope, after, rfl, hbind.1 hscope, fun step hstep htouches h => ?_⟩
  have hmem := List.mem_append_right before (List.mem_cons_of_mem (.bind scope name v) hstep)
  exact hafter step hstep htouches ((hgroup step hmem).2 h)

/-- Only the scopes count that steps went by way of. -/
theorem latest_congr (hgroup : ∀ step ∈ steps, group step.scope ↔ other step.scope) :
    Latest group name v steps ↔ Latest other name v steps :=
  ⟨fun h => h.imp hgroup, fun h => h.imp fun step hstep => (hgroup step hstep).symm⟩

end Latest

/-! ## One step -/

section Apply

variable {t : ScopeTree}

/-- A step adds the scopes that it counts for. -/
theorem length_apply (h : step.scope < t.scopes.length) :
    (step.apply t).scopes.length = t.scopes.length + step.added := by
  cases step with
  | child parent share s => exact length_child h share s
  | bind scope name v => exact length_update
  | unbind scope name => exact length_update

/-- All steps keep the places in order. -/
theorem apply_placed (ht : t.Placed) (step : Step) : (step.apply t).Placed := by
  cases step with
  | child parent share s => exact child_placed ht parent share s
  | bind scope name v => exact update_placed ht scope _
  | unbind scope name => exact update_placed ht scope _

/-- No step changes what older scopes share. -/
theorem shares_apply (hi : i < t.scopes.length) (hj : j < t.scopes.length) :
    (step.apply t).shares i j = t.shares i j := by
  cases step with
  | child parent share s => exact shares_child hi hj
  | bind scope name v => exact shares_update
  | unbind scope name => exact shares_update

/-- No step changes the subject of an older scope. -/
theorem subject_apply (hj : j < t.scopes.length) : (step.apply t).subject j = t.subject j := by
  have hscope : (step.apply t).scope? j = t.scope? j := by
    cases step with
    | child parent share s => exact scope?_child hj
    | bind scope name v => exact scope?_update j
    | unbind scope name => exact scope?_update j
  unfold ScopeTree.subject
  rw [hscope]

/-- A child has the subject that it was given, or that of its parent. -/
theorem subject_child_new (hi : i < t.scopes.length) (share : Bool) (s : Option (Option TokenId)) :
    (t.child i share s).subject t.scopes.length = s.getD (t.subject i) := by
  obtain ⟨a, ha⟩ := scope?_eq_some_of_lt hi
  unfold ScopeTree.subject
  rw [scope?_child_new ha, ha]
  rfl

/-- The subjects after a step depend on the subjects before it, and not on the flag for sharing. -/
theorem subjects_apply {t' : ScopeTree} (h : t.scopes.map Scope.subject = t'.scopes.map Scope.subject) :
    (step.apply t).scopes.map Scope.subject = (step.unshared.apply t').scopes.map Scope.subject := by
  cases step with
  | child parent share s =>
    have hparent : (t.scope? parent).map Scope.subject = (t'.scope? parent).map Scope.subject := by
      unfold scope?
      rw [← List.getElem?_map, ← List.getElem?_map, h]
    show (t.child parent share s).scopes.map Scope.subject =
      (t'.child parent false s).scopes.map Scope.subject
    -- the parent is in both trees or in neither
    cases ha : t.scope? parent with
    | none =>
      rw [ha] at hparent
      have hb : t'.scope? parent = none := Option.map_eq_none_iff.1 hparent.symm
      unfold child
      rw [ha, hb]
      exact h
    | some a =>
      rw [ha] at hparent
      obtain ⟨b, hb, hsubject⟩ := Option.map_eq_some_iff.1 hparent.symm
      rw [child_eq ha, child_eq hb]
      cases share <;> simp [h, hsubject]
  | bind scope name v =>
    show (t.update scope _).scopes.map Scope.subject = (t'.update scope _).scopes.map Scope.subject
    rw [scopes_update, scopes_update, h]
  | unbind scope name =>
    show (t.update scope _).scopes.map Scope.subject = (t'.update scope _).scopes.map Scope.subject
    rw [scopes_update, scopes_update, h]

end Apply

/-! ## Sharing -/

/-- After a possible history there are as many scopes as it counts. -/
theorem length_run (subject : Option TokenId) (h : Possible steps) :
    (run subject steps).scopes.length = scopeCount steps := by
  induction steps using List.reverseRecOn with
  | nil => rfl
  | append_singleton steps step ih =>
    have hlength := ih h.init
    rw [run_concat, scopeCount_concat, length_apply (by rw [hlength]; exact h.scope_last_lt), hlength]

/-- After any history every scope points at variables that are there. -/
theorem run_placed (subject : Option TokenId) (steps : List Step) : (run subject steps).Placed := by
  induction steps using List.reverseRecOn with
  | nil => exact root_placed subject
  | append_singleton steps step ih =>
    rw [run_concat]
    exact apply_placed ih step

/-- A scope that is there after a history was there before its last step, or the last step made it. -/
theorem lt_or_made (hi : i < scopeCount (steps ++ [step])) :
    i < scopeCount steps ∨
      i = scopeCount steps ∧ ∃ parent share s, step = .child parent share s := by
  rw [scopeCount_concat] at hi
  cases step with
  | child parent share s =>
    have hadded : (Step.child parent share s).added = 1 := rfl
    rw [hadded] at hi
    rcases Nat.lt_or_eq_of_le (Nat.le_of_lt_succ hi) with hi | hi
    · exact Or.inl hi
    · exact Or.inr ⟨hi, parent, share, s, rfl⟩
  | bind scope name v => exact Or.inl hi
  | unbind scope name => exact Or.inl hi

/-- A parent and a child that was made to share do share, and go on doing so. -/
theorem shares_of_link {parent made : Nat} (h : Possible steps) (hlink : Link steps parent made) :
    (run subject steps).shares parent made = true := by
  obtain ⟨s, hmade⟩ := hlink
  induction steps using List.reverseRecOn with
  | nil =>
    exact absurd hmade not_made_nil
  | append_singleton steps step ih =>
    have hlength := length_run subject h.init
    rw [run_concat]
    -- the link is older than the last step, or it is the last step
    rcases made_concat.1 hmade with hold | ⟨rfl, rfl⟩
    · obtain ⟨hparent, hlt⟩ := h.init.lt_of_made hold
      rw [shares_apply (by omega) (by omega)]
      exact ih h.init hold
    · have hparent : parent < (run subject steps).scopes.length := by
        rw [hlength]
        exact h.scope_last_lt
      show ((run subject steps).child parent true s).shares parent (scopeCount steps) = true
      rw [shares_comm, ← hlength, shares_child_new (run_placed subject steps) hparent hparent,
        shares_self hparent]
      rfl

/-- Along a path of links everything is shared, as sharing is an equivalence on the scopes that are
    there. -/
theorem eq_or_shares_of_connected (subject : Option TokenId) (h : Possible steps)
    (hij : Connected steps i j) : i = j ∨ (run subject steps).shares i j = true := by
  induction hij with
  | rel i j hlink => exact Or.inr (shares_of_link h hlink)
  | refl i => exact Or.inl rfl
  -- sharing is an equivalence, and so the path may be taken in pieces
  | symm i j _ ih =>
    rcases ih with rfl | hshares
    · exact Or.inl rfl
    · rw [shares_comm]
      exact Or.inr hshares
  | trans i j k _ _ hij hjk =>
    rcases hij with rfl | hij
    · exact hjk
    · rcases hjk with rfl | hjk
      · exact Or.inr hij
      · exact Or.inr (shares_trans hij hjk)

/-- A scope that shares with the new child of a history is one that its parent shares with. -/
theorem shares_made_iff {parent : Nat} {share : Bool} {s : Option (Option TokenId)}
    (h : Possible (steps ++ [.child parent share s])) (hi : i < scopeCount steps) :
    (run subject (steps ++ [.child parent share s])).shares i (scopeCount steps) = true ↔
      share = true ∧ (run subject steps).shares i parent = true := by
  have hlength := length_run subject h.init
  have hparent : parent < scopeCount steps := h.scope_last_lt
  have hnew : ((run subject steps).child parent share s).shares (run subject steps).scopes.length i =
      (share && (run subject steps).shares parent i) :=
    shares_child_new (run_placed subject steps) (hlength ▸ hparent) (hlength ▸ hi)
  rw [run_concat, shares_comm, ← hlength, shares_comm _ i parent, ← Bool.and_eq_true_iff, ← hnew]
  rfl

/-- Scopes that share are connected, by induction on the history.  Two scopes that were there before the
    last step share as before.  A scope that the last step made shares with nobody but those that its
    parent shares with, and to the parent there is a link. -/
theorem connected_of_shares (h : Possible steps) (hi : i < scopeCount steps) (hj : j < scopeCount steps)
    (hshares : (run subject steps).shares i j = true) : Connected steps i j := by
  induction steps using List.reverseRecOn generalizing i j with
  | nil =>
    obtain rfl : i = 0 := Nat.lt_one_iff.1 hi
    obtain rfl : j = 0 := Nat.lt_one_iff.1 hj
    exact Relation.EqvGen.refl 0
  | append_singleton steps step ih =>
    have hlength := length_run subject h.init
    -- an older scope and the one that the last step made
    have hnew {k : Nat} (hk : k < scopeCount steps) (hmade : ∃ parent share s,
        step = .child parent share s)
        (hshares : (run subject (steps ++ [step])).shares k (scopeCount steps) = true) :
        Connected (steps ++ [step]) k (scopeCount steps) := by
      obtain ⟨parent, share, s, rfl⟩ := hmade
      obtain ⟨rfl, hold⟩ := (shares_made_iff h hk).1 hshares
      have hlink : Link (steps ++ [.child parent true s]) parent (scopeCount steps) :=
        ⟨s, made_concat.2 (Or.inr ⟨rfl, rfl⟩)⟩
      -- older scope, parent, child
      exact .trans _ _ _ (connected_concat (ih h.init hk h.scope_last_lt hold)) (.rel _ _ hlink)
    -- each of the two is an older scope, or the one that was made last
    rcases lt_or_made hi with hi | ⟨rfl, hmade⟩
    · rcases lt_or_made hj with hj | ⟨rfl, hmade⟩
      · rw [run_concat, shares_apply (by omega) (by omega)] at hshares
        exact connected_concat (ih h.init hi hj hshares)
      · exact hnew hi hmade hshares
    · rcases lt_or_made hj with hj | ⟨rfl, -⟩
      · rw [shares_comm] at hshares
        exact .symm _ _ (hnew hj hmade hshares)
      · exact Relation.EqvGen.refl _

/-- Two scopes share their variables if the history connects them, and only then. -/
theorem shares_iff_connected (h : Possible steps) (hi : i < scopeCount steps)
    (hj : j < scopeCount steps) :
    (run subject steps).shares i j = true ↔ Connected steps i j := by
  constructor
  · exact connected_of_shares h hi hj
  · intro hij
    rcases eq_or_shares_of_connected subject h hij with rfl | hshares
    · exact shares_self (by rw [length_run subject h]; exact hi)
    · exact hshares

/-! ## Values -/

section Values

variable {name : String} {v : Value}

/-- A scope that has just been made finds what its parent finds, or nothing. -/
theorem resolve?_child_new {t : ScopeTree} (hi : i < t.scopes.length) (share : Bool)
    (s : Option (Option TokenId)) :
    (t.child i share s).resolve? t.scopes.length name = if share then t.resolve? i name else none := by
  unfold resolve?
  rw [bindings_child_new hi]
  cases share <;> rfl

/-- A change of one variable by way of a scope is found by those that share with it. -/
theorem resolve?_update {t : ScopeTree} (ht : t.Placed) (hi : i < t.scopes.length)
    (hj : j < t.scopes.length) {f : Variables → Variables} {x : String} {w : Option Value}
    (hf : ∀ vars : Variables, Assoc.get? (f vars) name = if x = name then w else Assoc.get? vars name) :
    (t.update i f).resolve? j name =
      if x = name ∧ t.shares i j = true then w else t.resolve? j name := by
  unfold resolve?
  rw [bindings_update ht hi hj]
  by_cases hshares : t.shares i j = true
  · rw [if_pos hshares, hf]
    by_cases hx : x = name
    · rw [if_pos hx, if_pos ⟨hx, hshares⟩]
    · rw [if_neg hx, if_neg fun h => hx h.1]
  · rw [if_neg hshares, if_neg fun h => hshares h.2]

/-- What a scope that was there finds after a step: what the step set by way of a scope that shares with
    it, or what it found before if the step did not touch that. -/
theorem resolve?_apply {t : ScopeTree} (ht : t.Placed) (hstep : step.scope < t.scopes.length)
    (hj : j < t.scopes.length) :
    (step.apply t).resolve? j name = some v ↔
      (∃ scope, step = .bind scope name v ∧ t.shares scope j = true) ∨
        ¬ (step.Touches name ∧ t.shares step.scope j = true) ∧ t.resolve? j name = some v := by
  cases step with
  | child parent share s =>
    -- a child touches nothing, so what is found is what was found before
    have hsame : (t.child parent share s).resolve? j name = t.resolve? j name := by
      unfold resolve?
      rw [bindings_child ht hj]
    constructor
    · intro hv
      exact Or.inr ⟨fun h => h.1, hsame.symm.trans hv⟩
    · rintro (⟨scope, hstep, -⟩ | ⟨-, hv⟩)
      · cases hstep
      · exact hsame.trans hv
  | bind scope x w =>
    -- a value is set where the variables are shared, and left elsewhere
    have hset : (t.bind scope x w).resolve? j name =
        if x = name ∧ t.shares scope j = true then some w else t.resolve? j name :=
      resolve?_update ht hstep hj fun vars => Assoc.get?_insert vars x name w
    show (t.bind scope x w).resolve? j name = some v ↔ _
    rw [hset, ite_eq_iff]
    refine or_congr ?_ Iff.rfl
    constructor
    · rintro ⟨⟨rfl, hshares⟩, hv⟩
      obtain rfl := Option.some.inj hv
      exact ⟨scope, rfl, hshares⟩
    · rintro ⟨i, hstep, hshares⟩
      cases hstep
      exact ⟨⟨rfl, hshares⟩, rfl⟩
  | unbind scope x =>
    -- nothing is found any more where the variables are shared
    have hunset : (t.unbind scope x).resolve? j name =
        if x = name ∧ t.shares scope j = true then none else t.resolve? j name :=
      resolve?_update ht hstep hj fun vars => Assoc.get?_erase vars x name
    show (t.unbind scope x).resolve? j name = some v ↔ _
    rw [hunset, ite_eq_iff]
    refine or_congr ?_ Iff.rfl
    constructor
    · rintro ⟨-, hv⟩
      cases hv
    · rintro ⟨i, hstep, -⟩
      cases hstep

/-- A scope that has just been made was given what its parent was given, or nothing. -/
theorem latest_made_iff {parent : Nat} {share : Bool} {s : Option (Option TokenId)}
    (h : Possible (steps ++ [.child parent share s])) :
    Latest (fun i => (run subject (steps ++ [.child parent share s])).shares i (scopeCount steps) = true)
        name v (steps ++ [.child parent share s]) ↔
      Latest (fun i => share = true ∧ (run subject steps).shares i parent = true) name v steps := by
  rw [latest_concat]
  constructor
  · rintro (⟨i, hstep, -⟩ | ⟨-, hlatest⟩)
    · cases hstep
    · exact hlatest.imp fun x hx => shares_made_iff h (h.init.scope_lt hx)
  · intro hlatest
    refine Or.inr ⟨fun h => h.1, hlatest.imp fun x hx => ?_⟩
    exact (shares_made_iff h (h.init.scope_lt hx)).symm

/-- One more step, for a scope that was there: what the step did counts if it went by way of a scope that
    shares. -/
theorem resolve?_concat_of_lt (h : Possible (steps ++ [step])) (hj : j < scopeCount steps)
    (ih : (run subject steps).resolve? j name = some v ↔
      Latest (fun i => (run subject steps).shares i j = true) name v steps) :
    (run subject (steps ++ [step])).resolve? j name = some v ↔
      Latest (fun i => (run subject (steps ++ [step])).shares i j = true) name v (steps ++ [step]) := by
  have hlength := length_run subject h.init
  have hscope : step.scope < (run subject steps).scopes.length := hlength ▸ h.scope_last_lt
  have hkept (i : Nat) (hi : i < scopeCount steps) :
      (run subject (steps ++ [step])).shares i j = (run subject steps).shares i j := by
    rw [run_concat]
    exact shares_apply (hlength ▸ hi) (hlength ▸ hj)
  rw [run_concat, resolve?_apply (run_placed subject steps) hscope (hlength ▸ hj), ih, ← latest_concat]
  refine latest_congr fun x hx => ?_
  rw [← run_concat, hkept x.scope]
  rcases List.mem_append.1 hx with hx | hx
  · exact h.init.scope_lt hx
  · obtain rfl := List.mem_singleton.1 hx
    exact h.scope_last_lt

/-- The scope that the last step made starts with what its parent finds, or with nothing. -/
theorem resolve?_concat_made {parent : Nat} {share : Bool} {s : Option (Option TokenId)}
    (h : Possible (steps ++ [.child parent share s]))
    (ih : (run subject steps).resolve? parent name = some v ↔
      Latest (fun i => (run subject steps).shares i parent = true) name v steps) :
    (run subject (steps ++ [.child parent share s])).resolve? (scopeCount steps) name = some v ↔
      Latest (fun i => (run subject (steps ++ [.child parent share s])).shares i (scopeCount steps) = true)
        name v (steps ++ [.child parent share s]) := by
  have hlength := length_run subject h.init
  have hfound : (run subject (steps ++ [.child parent share s])).resolve? (scopeCount steps) name =
      if share then (run subject steps).resolve? parent name else none := by
    rw [run_concat, ← hlength]
    exact resolve?_child_new (hlength ▸ h.scope_last_lt) share s
  rw [latest_made_iff h, hfound]
  cases share with
  | true =>
    rw [if_pos rfl, ih]
    exact latest_congr fun x _ => (and_iff_right rfl).symm
  | false =>
    -- nobody else shares with it, so no step went by way of its group
    rw [if_neg Bool.false_ne_true]
    constructor
    · intro hv
      cases hv
    · rintro ⟨before, scope, after, -, hgroup, -⟩
      exact absurd hgroup.1 Bool.false_ne_true

/-- A scope finds the latest value that was set by way of a scope that shares its variables. -/
theorem resolve?_run (h : Possible steps) (hj : j < scopeCount steps) :
    (run subject steps).resolve? j name = some v ↔
      Latest (fun i => (run subject steps).shares i j = true) name v steps := by
  induction steps using List.reverseRecOn generalizing j with
  | nil =>
    obtain rfl : j = 0 := Nat.lt_one_iff.1 hj
    constructor
    · intro hv
      cases hv
    · intro hlatest
      exact absurd hlatest not_latest_nil
  | append_singleton steps step ih =>
    rcases lt_or_made hj with hj | ⟨rfl, parent, share, s, rfl⟩
    · exact resolve?_concat_of_lt h hj (ih h.init hj)
    · exact resolve?_concat_made h (ih h.init h.scope_last_lt)

/-- What is set or taken out by way of a scope is not seen where the variables are not shared. -/
theorem resolve?_apply_of_not_shares {t : ScopeTree} (ht : t.Placed)
    (hstep : step.scope < t.scopes.length) (hj : j < t.scopes.length)
    (hshares : t.shares step.scope j = false) : (step.apply t).resolve? j name = t.resolve? j name := by
  refine Option.ext fun v => ?_
  rw [resolve?_apply ht hstep hj]
  constructor
  · rintro (⟨scope, rfl, hscope⟩ | ⟨-, hv⟩)
    · exact absurd (hshares.symm.trans hscope) Bool.false_ne_true
    · exact hv
  · intro hv
    exact Or.inr ⟨fun h => Bool.false_ne_true (hshares.symm.trans h.2), hv⟩

end Values

/-! ## Subjects -/

/-- A scope has the subject that it was made with, or else that of its parent. -/
theorem subject_of_made {made parent : Nat} {share : Bool} {s : Option (Option TokenId)}
    (h : Possible steps) (hmade : Made steps made parent share s) :
    (run subject steps).subject made = s.getD ((run subject steps).subject parent) := by
  induction steps using List.reverseRecOn with
  | nil =>
    exact absurd hmade not_made_nil
  | append_singleton steps step ih =>
    have hlength := length_run subject h.init
    rw [run_concat]
    rcases made_concat.1 hmade with hold | ⟨rfl, rfl⟩
    · -- it was made before, and the last step changes no subject
      obtain ⟨hparent, hlt⟩ := h.init.lt_of_made hold
      rw [subject_apply (by omega), subject_apply (by omega)]
      exact ih h.init hold
    · -- the last step made the scope
      have hparent : parent < (run subject steps).scopes.length := by
        rw [hlength]
        exact h.scope_last_lt
      rw [subject_apply hparent, ← hlength]
      exact subject_child_new hparent share s

/-- The first scope keeps the subject of the run. -/
theorem subject_first (h : Possible steps) : (run subject steps).subject 0 = subject := by
  induction steps using List.reverseRecOn with
  | nil => rfl
  | append_singleton steps step ih =>
    have hlength := length_run subject h.init
    have hpos := scopeCount_pos steps
    rw [run_concat, subject_apply (by omega)]
    exact ih h.init

/-- More steps change no subject. -/
theorem SubjectOf.concat {s : Option TokenId} (h : SubjectOf subject steps j s) :
    SubjectOf subject (steps ++ [step]) j s := by
  induction h with
  | root => exact .root
  | given hmade => exact .given (made_concat.2 (Or.inl hmade))
  | kept hmade _ ih => exact .kept (made_concat.2 (Or.inl hmade)) ih

/-- Every scope has a nearest subject on the way up, by induction on the history. -/
theorem subjectOf_run (h : Possible steps) (hj : j < scopeCount steps) :
    SubjectOf subject steps j ((run subject steps).subject j) := by
  induction steps using List.reverseRecOn generalizing j with
  | nil =>
    obtain rfl : j = 0 := Nat.lt_one_iff.1 hj
    exact .root
  | append_singleton steps step ih =>
    have hlength := length_run subject h.init
    rcases lt_or_made hj with hj | ⟨rfl, parent, share, s, rfl⟩
    · rw [run_concat, subject_apply (by omega)]
      exact (ih h.init hj).concat
    · have hmade : Made (steps ++ [.child parent share s]) (scopeCount steps) parent share s :=
        made_concat.2 (Or.inr ⟨rfl, rfl⟩)
      have hparent : parent < scopeCount steps := h.scope_last_lt
      rw [subject_of_made h hmade]
      -- a subject was given, or the way goes on to the parent
      cases s with
      | some s => exact .given hmade
      | none =>
        refine .kept hmade ?_
        rw [run_concat, Option.getD_none, subject_apply (by omega)]
        exact (ih h.init hparent).concat

/-- The subject of a scope is the nearest one that was given on the way up. -/
theorem subject_run_iff (h : Possible steps) (hj : j < scopeCount steps) {s : Option TokenId} :
    (run subject steps).subject j = s ↔ SubjectOf subject steps j s := by
  constructor
  · rintro rfl
    exact subjectOf_run h hj
  · intro hs
    induction hs with
    | root => exact subject_first h
    | given hmade => exact subject_of_made h hmade
    | kept hmade _ ih =>
      rw [subject_of_made h hmade]
      exact ih (Nat.lt_trans (h.lt_of_made hmade).1 hj)

/-- Histories that differ only in what is shared give all scopes the same subjects. -/
theorem subjects_run {steps' : List Step} (h : steps'.map Step.unshared = steps.map Step.unshared) :
    (run subject steps').scopes.map Scope.subject = (run subject steps).scopes.map Scope.subject := by
  have hunshared (steps : List Step) : (run subject steps).scopes.map Scope.subject =
      (run subject (steps.map Step.unshared)).scopes.map Scope.subject := by
    induction steps using List.reverseRecOn with
    | nil => rfl
    | append_singleton steps step ih =>
      rw [List.map_append, List.map_singleton, run_concat, run_concat]
      exact subjects_apply ih
  rw [hunshared steps', h, ← hunshared]

/-- The subject of a scope is read off the list of all subjects. -/
theorem subject_eq (t : ScopeTree) (j : Nat) : t.subject j = (t.scopes.map Scope.subject)[j]?.join := by
  unfold ScopeTree.subject scope?
  rw [List.getElem?_map]
  cases t.scopes[j]? <;> rfl

/-! ## All of it -/

/-- **Scopes share as they were made.**  After any possible history, two scopes share their variables if
    the history connects them, and only then.  A scope finds under a name the latest value that was set
    by way of a scope connected with it, and nothing that is done by way of another one is seen in it.
    Its subject is the nearest one that was given on the way up, whatever is shared. -/
theorem shares_as_made (subject : Option TokenId) {steps : List Step} (h : Possible steps) :
    (run subject steps).scopes.length = scopeCount steps ∧
    (∀ i j, i < scopeCount steps → j < scopeCount steps →
      ((run subject steps).shares i j = true ↔ Connected steps i j)) ∧
    (∀ j, j < scopeCount steps → ∀ name v,
      ((run subject steps).resolve? j name = some v ↔
        Latest (Connected steps · j) name v steps)) ∧
    (∀ step, step.scope < scopeCount steps → ∀ j, j < scopeCount steps →
      ¬ Connected steps step.scope j → ∀ name,
      (run subject (steps ++ [step])).resolve? j name = (run subject steps).resolve? j name) ∧
    (∀ j, j < scopeCount steps → ∀ s,
      ((run subject steps).subject j = s ↔ SubjectOf subject steps j s)) ∧
    ∀ steps' : List Step, steps'.map Step.unshared = steps.map Step.unshared →
      ∀ j, (run subject steps').subject j = (run subject steps).subject j := by
  have hlength := length_run subject h
  refine ⟨hlength, fun i j hi hj => shares_iff_connected h hi hj, ?_, ?_,
    fun j hj s => subject_run_iff h hj, ?_⟩
  · -- the group of the scopes that share is that of the connected ones
    intro j hj name v
    rw [resolve?_run h hj]
    exact latest_congr fun x hx => shares_iff_connected h (h.scope_lt hx) hj
  · intro step hstep j hj hapart name
    -- a scope that is not connected does not share
    have hshares : (run subject steps).shares step.scope j = false :=
      Bool.eq_false_iff.2 fun hs => hapart ((shares_iff_connected h hstep hj).1 hs)
    rw [run_concat]
    exact resolve?_apply_of_not_shares (run_placed subject steps) (hlength ▸ hstep) (hlength ▸ hj)
      hshares
  · intro steps' hsame j
    rw [subject_eq, subject_eq, subjects_run hsame]

/-- A guest shares with the host; somebody who comes with the guest does not, but keeps the subject. -/
def household : List Step :=
  [.child 0 true (some (some ⟨7⟩)), .child 1 false none, .bind 1 "x" (.text "a"),
    .bind 2 "x" (.text "b"), .unbind 2 "x"]

/-- The household shares as it was made. -/
theorem shares_as_made_household :
    Possible household ∧ Connected household 1 0 ∧ ¬ Connected household 2 0 ∧
      Latest (Connected household · 0) "x" (.text "a") household ∧
      SubjectOf none household 2 (some ⟨7⟩) := by
  have hpossible : Possible household :=
    possible_concat (possible_concat (possible_concat (possible_concat (possible_concat possible_nil
      (by decide)) (by decide)) (by decide)) (by decide)) (by decide)
  obtain ⟨-, hshares, hfound, -, hsubject, -⟩ := shares_as_made none hpossible
  have hcount : scopeCount household = 3 := by decide
  rw [hcount] at hshares hfound hsubject
  refine ⟨hpossible, (hshares 1 0 (by decide) (by decide)).1 (by decide +kernel), ?_,
    (hfound 0 (by decide) "x" (.text "a")).1 rfl,
    (hsubject 2 (by decide) _).1 (by decide +kernel)⟩
  intro hconnected
  have hapart : (run none household).shares 2 0 = false := by decide +kernel
  exact Bool.false_ne_true (hapart.symm.trans ((hshares 2 0 (by decide) (by decide)).2 hconnected))

end Tabletop.ScopeTree
