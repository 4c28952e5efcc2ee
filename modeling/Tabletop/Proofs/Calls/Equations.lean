import Tabletop.Macro.Action

/-
  What the steps of a run come to.

  A run takes a frame and a state, and answers with a result and the next state.  Each step that actions
  are made of has one equation here, from left to right: `simp` runs an action with them as far as its
  steps are known, and `rw` runs it by one step.
-/
namespace Tabletop

namespace TableM

variable {α β : Type}

@[simp] theorem pure_apply (a : α) (t : Table) : (pure a : TableM α) t = (.ok a, t) := rfl

/-- An error leaves the table as it is. -/
@[simp] theorem fail_apply (e : MacroError) (t : Table) :
    (TableM.fail e : TableM α) t = (.error (.error e), t) := rfl

@[simp] theorem get_apply (t : Table) : (get : TableM Table) t = (.ok t, t) := rfl

/-- The campaign is looked at. -/
@[simp] theorem campaign_apply (t : Table) : TableM.campaign t = (.ok t.campaign, t) := rfl

/-- What happens first and what follows it: an interrupt leaves the rest alone. -/
@[simp] theorem bind_apply (act : TableM α) (k : α → TableM β) (t : Table) :
    (act >>= k) t =
      match act t with
      | (.ok a, t') => k a t'
      | (.error i, t') => (.error i, t') := by
  show (ExceptT.bindCont k (act t).1) (act t).2 = _
  rcases act t with ⟨r, t'⟩
  cases r <;> rfl

end TableM

namespace Action

variable {α β : Type}

@[simp] theorem pure_apply (a : α) (f : Frame) (s : RunState) : (pure a : Action α) f s = (.ok a, s) := rfl

/-- An error leaves the state as it is, and so the text that is there. -/
@[simp] theorem fail_apply (e : MacroError) (f : Frame) (s : RunState) :
    (Action.fail e : Action α) f s = (.error (.error e), s) := rfl

@[simp] theorem failEvaluation_apply (e : EvaluationFault) (f : Frame) (s : RunState) :
    (Action.failEvaluation e : Action α) f s = (.error (.error (.evaluation e)), s) := rfl

/-- A computation that went well is its answer. -/
@[simp] theorem ofExcept_ok (a : α) (f : Frame) (s : RunState) :
    Action.ofExcept (.ok a) f s = (.ok a, s) := rfl

/-- And one that did not is its error. -/
@[simp] theorem ofExcept_error (e : MacroError) (f : Frame) (s : RunState) :
    (Action.ofExcept (.error e) : Action α) f s = (.error (.error e), s) := rfl

@[simp] theorem ofEvaluation_ok (a : α) (f : Frame) (s : RunState) :
    Action.ofEvaluation (.ok a) f s = (.ok a, s) := rfl

@[simp] theorem ofEvaluation_error (e : EvaluationFault) (f : Frame) (s : RunState) :
    (Action.ofEvaluation (.error e) : Action α) f s = (.error (.error (.evaluation e)), s) := rfl

/-- An action and what follows it: an interrupt leaves the rest alone. -/
@[simp] theorem bind_apply (act : Action α) (k : α → Action β) (f : Frame) (s : RunState) :
    (act >>= k) f s =
      match act f s with
      | (.ok a, s') => k a f s'
      | (.error i, s') => (.error i, s') := by
  show (ExceptT.bindCont (k · f) (act f s).1) (act f s).2 = _
  rcases act f s with ⟨r, s'⟩
  cases r <;> rfl

/-! ## What an action looks at -/

/-- The frame is looked at. -/
@[simp] theorem frame_apply (f : Frame) (s : RunState) : Action.frame f s = (.ok f, s) := rfl

/-- The whole state is looked at. -/
@[simp] theorem get_apply (f : Frame) (s : RunState) : (get : Action RunState) f s = (.ok s, s) := rfl

@[simp] theorem campaign_apply (f : Frame) (s : RunState) :
    Action.campaign f s = (.ok s.table.campaign, s) := rfl

/-- The check for trust: nothing in a trusted frame, and an error in any other. -/
@[simp] theorem requireTrust_apply (function : String) (f : Frame) (s : RunState) :
    Action.requireTrust function f s =
      if f.trusted then (.ok (), s) else (.error (.error (.permission function)), s) := by
  unfold requireTrust
  -- the frame is the one that the macro runs in
  rw [bind_apply]
  show (if f.trusted then pure () else fail _ : Action Unit) f s = _
  split <;> rfl

/-- The check for a subject: its token, or an error if the macro runs for nobody. -/
@[simp] theorem requireSubject_apply (function : String) (f : Frame) (s : RunState) :
    Action.requireSubject function f s =
      match f.subject with
      | some id => (.ok id, s)
      | none => (.error (.error (.noSubject function)), s) := by
  rcases f with ⟨subject, _, _, _, _, _⟩
  cases subject <;> rfl

/-! ## What an action changes -/

/-- Text is added behind the text that is there. -/
@[simp] theorem emit_apply (text : String) (f : Frame) (s : RunState) :
    Action.emit text f s = (.ok (), { s with output := s.output ++ text }) := rfl

/-- Variables are changed all at once. -/
@[simp] theorem modifyVariables_apply (g : Variables → Variables) (f : Frame) (s : RunState) :
    Action.modifyVariables g f s = (.ok (), { s with bindings := g s.bindings }) := rfl

/-- One variable is set. -/
@[simp] theorem bindVariable_apply (name : String) (v : Value) (f : Frame) (s : RunState) :
    Action.bindVariable name v f s =
      (.ok (), { s with bindings := Assoc.insert s.bindings name v }) := rfl

end Action

end Tabletop
