import Tabletop.Proofs.Authority.Course
import Tabletop.Proofs.Calls.Equations
import Tabletop.Macro.Run

/-
  Actions that stay within the authority of their frame.

  `Action.Lawful f act` says that all that `act` does to the table in the frame `f` is a course of the
  authority of `f`, from every state and however it ends.  The lemmas here follow the ways in which
  actions are put together, so that the proof for a function follows its text:

  1. **No change** — actions that only look at the table, or change variables and text.

  2. **One after the other** — `bind`; and `bind_of`, where what follows may rely on the answer.

  3. **Trust** — behind `requireTrust` the frame is trusted.

  4. **Nested bodies** — `nested` runs an action in another frame of the same authority.
-/
namespace Tabletop

/-! ## What happens at a table -/

namespace TableM

variable {α β : Type} {a : Authority}

/-- The end of what happens at a table is within an authority. -/
def Lawful (a : Authority) (act : TableM α) : Prop := ∀ t, Table.Course a t (act t).2

namespace Lawful

theorem pure (x : α) : Lawful a (Pure.pure x : TableM α) := fun t => .nothing a t

theorem fail (e : MacroError) : Lawful a (TableM.fail e : TableM α) := fun t => .nothing a t

theorem ofExcept (r : Except MacroError α) : Lawful a (TableM.ofExcept r) := by
  cases r with
  | ok x => exact pure x
  | error e => exact fail e

theorem campaign : Lawful a TableM.campaign := fun t => .nothing a t

/-- What happens first makes its course, and what follows goes on from there. -/
theorem bind {act : TableM α} {k : α → TableM β} (h : Lawful a act) (hk : ∀ x, Lawful a (k x)) :
    Lawful a (act >>= k) := by
  intro t
  rw [bind_apply]
  have ht := h t
  rcases hact : act t with ⟨r, t'⟩
  rw [hact] at ht
  cases r with
  | error i => exact ht
  | ok x => exact ht.trans (hk x t')

/-- An attempt leaves the table that was left when the error came up. -/
theorem attempt {act : TableM α} (h : Lawful a act) : Lawful a (TableM.attempt act) := by
  intro t
  have ht := h t
  unfold TableM.attempt
  rcases hact : act t with ⟨r, t'⟩
  rw [hact] at ht
  rcases r with i | x
  · cases i <;> exact ht
  · exact ht

end Lawful

end TableM

/-! ## What a macro does -/

namespace Action

variable {α β : Type} {f : Frame}

/-- What an action does to the table in a frame is within the authority of the frame. -/
def Lawful (f : Frame) (act : Action α) : Prop :=
  ∀ s, Table.Course f.authority s.table (act f s).2.table

/-- The state behind an action whose answer is thrown away. -/
theorem bind_pure_state (act : Action α) (b : β) (f : Frame) (s : RunState) :
    ((act >>= fun _ => pure b) f s).2 = (act f s).2 := by
  rw [bind_apply]
  rcases act f s with ⟨r, s'⟩
  cases r <;> rfl

/-- The table behind a nested action is the one that the action leaves. -/
@[simp] theorem nested_table (g : Frame) (share : Bool) (act : Action α) (f : Frame) (s : RunState) :
    (Action.nested g share act f s).2.table =
      (act g ⟨s.table, if share then s.bindings else [], ""⟩).2.table := by
  unfold Action.nested
  rcases act g ⟨s.table, if share then s.bindings else [], ""⟩ with ⟨r, t⟩
  cases r <;> rfl

/-- An abort changes how an action ends, and not its state. -/
@[simp] theorem untilAbort_state (act : Action Unit) (f : Frame) (s : RunState) :
    (Action.untilAbort act f s).2 = (act f s).2 := by
  unfold Action.untilAbort
  rcases act f s with ⟨r, t⟩
  rcases r with i | u
  · cases i <;> rfl
  · rfl

namespace Lawful

/-! ## No change -/

/-- An action that leaves the table as it is. -/
theorem of_table_eq {act : Action α} (h : ∀ s, (act f s).2.table = s.table) : Lawful f act := by
  intro s
  rw [h s]
  exact .nothing _ _

theorem pure (a : α) : Lawful f (Pure.pure a : Action α) := of_table_eq fun _ => rfl

theorem throw (i : Interrupt) : Lawful f (MonadExcept.throw i : Action α) := of_table_eq fun _ => rfl

theorem fail (e : MacroError) : Lawful f (Action.fail e : Action α) := of_table_eq fun _ => rfl

theorem failEvaluation (e : EvaluationFault) : Lawful f (Action.failEvaluation e : Action α) :=
  of_table_eq fun _ => rfl

theorem ofExcept (r : Except MacroError α) : Lawful f (Action.ofExcept r) := by
  cases r with
  | ok a => exact pure a
  | error e => exact throw _

theorem ofEvaluation (r : Except EvaluationFault α) : Lawful f (Action.ofEvaluation r) := by
  cases r with
  | ok a => exact pure a
  | error e => exact failEvaluation e

theorem frame : Lawful f Action.frame := of_table_eq fun _ => rfl

theorem get : Lawful f (MonadState.get : Action RunState) := of_table_eq fun _ => rfl

theorem campaign : Lawful f Action.campaign := of_table_eq fun _ => rfl

theorem lookup? (name : String) : Lawful f (Action.lookup? name) := of_table_eq fun _ => rfl

theorem emit (text : String) : Lawful f (Action.emit text) := of_table_eq fun _ => rfl

theorem modifyVariables (g : Variables → Variables) : Lawful f (Action.modifyVariables g) :=
  of_table_eq fun _ => rfl

theorem bindVariable (name : String) (v : Value) : Lawful f (Action.bindVariable name v) :=
  modifyVariables _

/-- What is handed on goes to a variable. -/
theorem passReturn (n : Nested α) : Lawful f (Action.passReturn n) := by
  unfold Action.passReturn
  split
  · exact bindVariable _ _
  · exact pure ()

/-! ## One change -/

/-- A change of the table by a function, where the function makes a lawful change. -/
theorem modify {g : RunState → RunState}
    (h : ∀ s, Table.Course f.authority s.table (g s).table) : Lawful f (MonadState.modifyGet fun s => ((), g s)) :=
  h

/-- A change of the campaign, where it makes a lawful change. -/
theorem modifyCampaign {g : Campaign → Campaign}
    (h : ∀ t, Table.Course f.authority t { t with campaign := g t.campaign }) :
    Lawful f (Action.modifyCampaign g) :=
  fun s => h s.table

/-- What happens at the table, within the authority of the frame. -/
theorem atTable {act : TableM α} (h : act.Lawful f.authority) : Lawful f (Action.atTable act) :=
  fun s => h s.table

/-! ## One after the other -/

/-- What follows may rely on how the answer came about. -/
theorem bind_of {act : Action α} {k : α → Action β} (h : Lawful f act)
    (hk : ∀ s a s', act f s = (.ok a, s') → Lawful f (k a)) : Lawful f (act >>= k) := by
  intro s
  rw [bind_apply]
  have hs := h s
  rcases hact : act f s with ⟨r, s'⟩
  rw [hact] at hs
  cases r with
  | error i => exact hs
  | ok a => exact hs.trans (hk s a s' hact s')

/-- What follows does not have to know how the answer came about. -/
theorem bind {act : Action α} {k : α → Action β} (h : Lawful f act) (hk : ∀ a, Lawful f (k a)) :
    Lawful f (act >>= k) :=
  bind_of h fun _ a _ _ => hk a

/-- What follows is told the frame that runs. -/
theorem frame_bind {k : Frame → Action α} (h : Lawful f (k f)) : Lawful f (Action.frame >>= k) :=
  h

/-! ## Trust -/

/-- The check itself changes nothing. -/
theorem requireTrust (function : String) : Lawful f (Action.requireTrust function) := by
  refine bind frame fun g => ?_
  split
  · exact pure ()
  · exact fail _

/-- Behind the check the frame is trusted. -/
theorem requireTrust_bind {function : String} {k : Unit → Action α}
    (hk : f.trusted = true → Lawful f (k ())) : Lawful f (Action.requireTrust function >>= k) := by
  refine bind_of (requireTrust function) fun s _ s' hs => hk ?_
  rw [requireTrust_apply] at hs
  split at hs
  · assumption
  · cases hs

/-! ## Nested bodies -/

/-- A nested body makes a course of its own frame, which has the same authority. -/
theorem nested {g : Frame} {share : Bool} {act : Action α} (hg : g.authority = f.authority)
    (h : Lawful g act) : Lawful f (Action.nested g share act) := by
  intro s
  have hs := h ⟨s.table, if share then s.bindings else [], ""⟩
  rw [hg] at hs
  rw [nested_table]
  exact hs

theorem untilAbort {act : Action Unit} (h : Lawful f act) : Lawful f (Action.untilAbort act) := by
  intro s
  rw [untilAbort_state]
  exact h s

end Lawful

end Action

end Tabletop
