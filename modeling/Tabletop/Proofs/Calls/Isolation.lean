import Tabletop.Proofs.Calls.Outcome
import Tabletop.Proofs.Scopes.Run
import Tabletop.Table.Session

/-
  Calls whose bodies have variables of their own.

  1. **The calls** — a user-defined function with fresh variables, the built-in function `execMacro`,
     and a macro by its name.  `IsolatedCall.run` makes one of them.

  2. **The body** — `IsolatedCall.callee`: which body such a call starts, in which frame and with which
     variables.  It is found from the call, the frame of the caller and the campaign; the variables and
     the text of the caller are not asked.

  3. **The equation** — `IsolatedCall.run_apply`: the call is the run of that body and what the caller
     receives of it.  So the caller's variables are out of reach for the body in both directions:
     nothing in it can change them, and nothing in it can see them.

  4. **Among scopes** — `IsolatedCall.runAmong`: the same call in a tree of scopes, where the variables of
     all scopes are within reach.  It realizes the call (`IsolatedCall.runAmong_realizes`), so what holds
     of variables that are handed around holds of variables that are pointed at.
-/
namespace Tabletop

/-- A call whose body has variables of its own. -/
inductive IsolatedCall where
  | function (g : UserFunction) (fresh : g.definition.freshVariables = true) (args : List Value)
  /-- The built-in function `execMacro` with its argument. -/
  | text (source : Value)
  | named (name arguments : String)

/-- A body and what it starts with. -/
structure Callee where
  body : String
  frame : Frame
  bindings : Variables

namespace IsolatedCall

/-- Makes the call.  The value of a macro by its name is its text. -/
def run (calls : Calls) : IsolatedCall → Action Value
  | function g _ args => invoke calls.evaluate g args
  | text source => Registry.builtins.call calls "execMacro" [source]
  | named name arguments => do return .text (← runNamed calls.evaluate name arguments)

/-- The body that the call starts, unless it is refused. -/
def callee (f : Frame) (c : Campaign) : IsolatedCall → Except MacroError Callee
  | function g _ args => .ok ⟨g.definition.body, g.frame f, Variables.bindArguments [] args⟩
  | text source =>
    if f.trusted then .ok ⟨source.display, f, []⟩ else .error (.permission "execMacro")
  | named name arguments =>
    (c.locate name f.subject f.location).map fun m =>
      let r := f.request m arguments
      ⟨m.body, r.frame (c.trusts r.origin), r.bindings⟩

/-- The call has a value when its body ended like this.  Text takes its caller along when it aborts. -/
def completes : IsolatedCall → Except Interrupt Unit → Bool
  | _, .ok _ => true
  | text _, .error _ => false
  | _, .error (.abort _) => true
  | _, .error _ => false

/-- The value of the call when its body has left `u`. -/
def valueOf (u : RunState) : IsolatedCall → Value
  | function g _ _ => g.valueOf u
  | text _ => (Value.ofOutput u.output).coerced
  | named _ _ => .text u.output

/-- How the call ends when its body ended like this and has left `u`. -/
def answer (c : IsolatedCall) (u : RunState) (end_ : Except Interrupt Unit) :
    Except Interrupt Value :=
  if c.completes end_ then .ok (c.valueOf u) else end_.map fun _ => c.valueOf u

/-- What the caller receives when the body ended like this and has left `u`. -/
def handedBack (c : IsolatedCall) (u : RunState) (end_ : Except Interrupt Unit) : Option Value :=
  if c.completes end_ then Variables.returned? u.bindings else none

/-- **An isolated call** is the run of its body.  It leaves the table of the body and the text of the
    caller, whose variables have received what the body handed back. -/
theorem run_apply (calls : Calls) (c : IsolatedCall) (f : Frame) (s : RunState) :
    c.run calls f s =
      match c.callee f s.table.campaign with
      | .error e => (.error (.error e), s)
      | .ok b =>
        match calls.evaluate b.body b.frame ⟨s.table, b.bindings, ""⟩ with
        | (end_, u) =>
          (c.answer u end_, ⟨u.table, s.bindings.receive (c.handedBack u end_), s.output⟩) := by
  cases c with
  | function g fresh args =>
    -- a function with fresh variables starts with its arguments alone
    have hstart : g.start args s = ⟨s.table, Variables.bindArguments [] args, ""⟩ := by
      unfold UserFunction.start
      rw [fresh]
      rfl
    -- and its caller has its own variables behind it
    have hafter (u : RunState) : g.variablesAfter s u = s.bindings := by
      unfold UserFunction.variablesAfter
      rw [fresh]
      rfl
    show invoke calls.evaluate g args f s = _
    rw [invoke_apply, hstart]
    simp only [hafter]
    dsimp only [callee, Action.untilAbort]
    rcases calls.evaluate g.definition.body (g.frame f) ⟨s.table, Variables.bindArguments [] args, ""⟩
      with ⟨r, u⟩
    rcases r with i | a
    · -- an abort completes the body, an error does not
      cases i <;> rfl
    · rfl
  | text source =>
    show Registry.builtins.call calls "execMacro" [source] f s = _
    rw [Registry.call_execMacro]
    -- text may only be run in a trusted frame
    cases hf : f.trusted with
    | false => simp only [callee, hf, Bool.false_eq_true, if_false]
    | true =>
      simp only [callee, hf, if_true]
      rcases calls.evaluate source.display f ⟨s.table, [], ""⟩ with ⟨r, u⟩
      cases r <;> rfl
  | named name arguments =>
    show (runNamed calls.evaluate name arguments >>= fun text => pure (Value.text text)) f s = _
    rw [Action.bind_apply, runNamed_apply]
    dsimp only [callee, Action.untilAbort]
    -- a macro must be found first
    cases s.table.campaign.locate name f.subject f.location with
    | error e => rfl
    | ok m =>
      dsimp only [Except.map]
      rcases calls.evaluate m.body ((f.request m arguments).frame
        (s.table.campaign.trusts (f.request m arguments).origin))
        ⟨s.table, (f.request m arguments).bindings, ""⟩ with ⟨r, u⟩
      rcases r with i | a
      · cases i <;> rfl
      · rfl

/-- A call without a value is one whose body was stopped by an interrupt that stops the caller too. -/
theorem exists_error_of_not_completes {c : IsolatedCall} {end_ : Except Interrupt Unit}
    (h : c.completes end_ = false) : ∃ stop, end_ = .error stop := by
  cases end_ with
  | ok a => cases c <;> cases h
  | error stop => exact ⟨stop, rfl⟩

/-- A body that completes has a value. -/
theorem answer_of_completes {c : IsolatedCall} {end_ : Except Interrupt Unit}
    (h : c.completes end_ = true) (u : RunState) : c.answer u end_ = .ok (c.valueOf u) := if_pos h

/-- And hands back what it has set. -/
theorem handedBack_of_completes {c : IsolatedCall} {end_ : Except Interrupt Unit}
    (h : c.completes end_ = true) (u : RunState) :
    c.handedBack u end_ = Variables.returned? u.bindings := if_pos h

/-- A body that does not stops the call. -/
theorem answer_of_not_completes {c : IsolatedCall} {stop : Interrupt}
    (h : c.completes (.error stop) = false) (u : RunState) :
    c.answer u (.error stop) = .error stop := by
  unfold answer
  rw [h]
  rfl

/-- And hands back nothing. -/
theorem handedBack_of_not_completes {c : IsolatedCall} {end_ : Except Interrupt Unit}
    (h : c.completes end_ = false) (u : RunState) : c.handedBack u end_ = none := by
  unfold handedBack
  rw [h]
  rfl

/-- How an isolated call ends, what table it leaves and what it hands back do not depend on the
    variables and the text of the caller.  A call without a value hands nothing back. -/
theorem exists_run_eq (calls : Calls) (c : IsolatedCall) (f : Frame) (t : Table) :
    ∃ (r : Except Interrupt Value) (t' : Table) (returned : Option Value),
      (∀ stop, r = .error stop → returned = none) ∧
      ∀ (vars : Variables) (out : String),
        c.run calls f ⟨t, vars, out⟩ = (r, ⟨t', vars.receive returned, out⟩) := by
  -- nothing is run if there is nothing to be run
  cases hb : c.callee f t.campaign with
  | error e =>
    refine ⟨.error (.error e), t, none, fun _ _ => rfl, fun vars out => ?_⟩
    rw [run_apply]
    dsimp only
    rw [hb]
    rfl
  | ok b =>
    rcases he : calls.evaluate b.body b.frame ⟨t, b.bindings, ""⟩ with ⟨end_, u⟩
    refine ⟨c.answer u end_, u.table, c.handedBack u end_, fun stop hstop => ?_, fun vars out => ?_⟩
    · refine handedBack_of_not_completes ?_ u
      cases hc : c.completes end_ with
      | false => rfl
      | true =>
        rw [answer_of_completes hc] at hstop
        cases hstop
    · rw [run_apply]
      dsimp only
      rw [hb]
      dsimp only
      rw [he]

/-! ## Among scopes -/

/-- Makes the call in a scope among others. -/
def runAmong (calls : ScopedCalls) : IsolatedCall → ScopedAction Value
  | function g _ args => Scoped.invoke calls.evaluate g args
  | text source => Scoped.callBuiltin calls "execMacro" [source]
  | named name arguments => do return .text (← Scoped.runNamed calls.evaluate name arguments)

/-- **An isolated call among scopes** does what the call does on the variables of its scope. -/
theorem runAmong_realizes {calls : ScopedCalls} {own : Calls} (h : calls.Realizes own) (c : IsolatedCall) :
    (c.runAmong calls).Realizes (c.run own) := by
  cases c with
  | function g fresh args => exact Scoped.invoke_realizes h.evaluate g args
  | text source => exact Scoped.callBuiltin_realizes h "execMacro" [source]
  | named name arguments => exact .bind (Scoped.runNamed_realizes h.evaluate name arguments) fun _ => .pure _

/-- The call among scopes, at the depth of an interpreter. -/
theorem runAmong_realizes_run {i : Interpreter} (h : i.registry = .builtins) (c : IsolatedCall) :
    (c.runAmong (Scoped.calls i.depth)).Realizes (c.run i.calls) := by
  have hcalls : i.calls = Calls.ofDepth .builtins i.depth := by
    unfold Interpreter.calls
    rw [h]
  rw [hcalls]
  exact c.runAmong_realizes (Scoped.calls_realize i.depth)

/-! ## What the body can do to the caller's variables -/

/-- If the body came to its end, or aborted in a function or in a macro by its name, the call has a value
    and the caller receives what the body handed back, if it did.  If not, the call ends as the body. -/
def Received (calls : Calls) (c : IsolatedCall) (f : Frame) (s : RunState) : Prop :=
  match c.callee f s.table.campaign with
  | .error e => c.run calls f s = (.error (.error e), s)
  | .ok b =>
    match calls.evaluate b.body b.frame ⟨s.table, b.bindings, ""⟩ with
    | (end_, u) =>
      if c.completes end_ then
        (c.run calls f s).1 = .ok (c.valueOf u) ∧
          (c.run calls f s).2.bindings = s.bindings.receive u.bindings.returned?
      else ∃ stop, end_ = .error stop ∧ (c.run calls f s).1 = .error stop ∧
          (c.run calls f s).2.bindings = s.bindings

/-- What an isolated call leaves of the caller's variables. -/
structure LeavesCaller (i : Interpreter) (c : IsolatedCall) (f : Frame) (s : RunState) : Prop where
  /-- The variable for returned values is the only one that can be another one. -/
  others : ∀ x, x ≠ Variables.returnName →
    Assoc.get? (c.run i.calls f s).2.bindings x = Assoc.get? s.bindings x
  /-- A call without a value leaves all variables as they were. -/
  stopped : ∀ stop, (c.run i.calls f s).1 = .error stop → (c.run i.calls f s).2.bindings = s.bindings
  received : c.Received i.calls f s
  /-- Among scopes, a call that is made in the scope `k` ends in the same way.  The scopes that share with
      `k` receive what the caller does, and all others keep their variables. -/
  among : i.registry = .builtins → ∀ (t : ScopeTree) (k : Nat), t.Placed → k < t.scopes.length →
    t.bindings k = s.bindings →
      (c.runAmong (Scoped.calls i.depth) k f ⟨s.table, t, s.output⟩).1 = (c.run i.calls f s).1 ∧
      ∀ j, j < t.scopes.length →
        (c.runAmong (Scoped.calls i.depth) k f ⟨s.table, t, s.output⟩).2.tree.bindings j =
          if t.shares k j then (c.run i.calls f s).2.bindings else t.bindings j

/-- The caller receives what is handed back, and nothing if the call is stopped. -/
theorem run_received (calls : Calls) (c : IsolatedCall) (f : Frame) (s : RunState) :
    c.Received calls f s := by
  unfold Received
  rw [run_apply]
  cases c.callee f s.table.campaign with
  | error e => rfl
  | ok b =>
    dsimp only
    rcases calls.evaluate b.body b.frame ⟨s.table, b.bindings, ""⟩ with ⟨end_, u⟩
    dsimp only
    cases hc : c.completes end_ with
    | true =>
      rw [answer_of_completes hc, handedBack_of_completes hc]
      exact ⟨rfl, rfl⟩
    | false =>
      obtain ⟨stop, rfl⟩ := exists_error_of_not_completes hc
      rw [answer_of_not_completes hc, handedBack_of_not_completes hc, if_neg Bool.false_ne_true]
      exact ⟨stop, rfl, rfl, rfl⟩

/-- Among scopes, the caller's scope and those that share with it receive what the caller does. -/
theorem runAmong_of_bindings {i : Interpreter} (h : i.registry = .builtins) (c : IsolatedCall) (f : Frame)
    (s : RunState) {t : ScopeTree} {k : Nat} (ht : t.Placed) (hk : k < t.scopes.length)
    (hs : t.bindings k = s.bindings) :
    (c.runAmong (Scoped.calls i.depth) k f ⟨s.table, t, s.output⟩).1 = (c.run i.calls f s).1 ∧
    ∀ j, j < t.scopes.length →
      (c.runAmong (Scoped.calls i.depth) k f ⟨s.table, t, s.output⟩).2.tree.bindings j =
        if t.shares k j then (c.run i.calls f s).2.bindings else t.bindings j := by
  have hown : SharedState.own ⟨s.table, t, s.output⟩ k = s := by
    unfold SharedState.own
    rw [hs]
  obtain ⟨hend, hleft⟩ := c.runAmong_realizes_run h k f ⟨s.table, t, s.output⟩ ht hk
  rw [hown] at hend hleft
  exact ⟨hend, hleft.tree.bindings⟩

/-- **Nothing but a returned value reaches the caller's variables.**  The variable for returned values
    is the only one that can be another one after an isolated call.  If the body came to its end, or
    aborted in a function or in a macro by its name, the call has a value and the caller receives what
    the body handed back, if it did; in all other cases, and whenever the call has no value, the
    variables are as they were.  It is the same where the body could reach all variables: in a tree of
    scopes no scope but the caller's, and those that share with it, sees anything of the call. -/
theorem run_bindings (i : Interpreter) (c : IsolatedCall) (f : Frame) (s : RunState) :
    c.LeavesCaller i f s := by
  obtain ⟨r, t', returned, hstopped, hrun⟩ := c.exists_run_eq i.calls f s.table
  have hcall : c.run i.calls f s = (r, ⟨t', s.bindings.receive returned, s.output⟩) :=
    hrun s.bindings s.output
  refine {
    others := fun x hx => ?_
    stopped := fun stop hstop => ?_
    received := c.run_received i.calls f s
    among := fun hi t k ht hk hs => c.runAmong_of_bindings hi f s ht hk hs }
  · rw [hcall]
    exact Variables.get?_receive_of_ne _ _ hx
  · rw [hcall] at hstop ⊢
    rw [hstopped stop hstop]
    rfl

/-! ## What the body can see of the caller -/

/-- What two callers have in common that run in the same frame at the same table. -/
structure SameForCallers (i : Interpreter) (c : IsolatedCall) (f : Frame) (t : Table)
    (vars vars' : Variables) (out out' : String) : Prop where
  /-- The call ends the same way, with the same value or the same interrupt. -/
  answer : (c.run i.calls f ⟨t, vars, out⟩).1 = (c.run i.calls f ⟨t, vars', out'⟩).1
  table : (c.run i.calls f ⟨t, vars, out⟩).2.table = (c.run i.calls f ⟨t, vars', out'⟩).2.table
  /-- Among scopes the trees can be any two trees, and the callers can run in any of their scopes. -/
  among : i.registry = .builtins → ∀ (tree tree' : ScopeTree) (k k' : Nat), tree.Placed → tree'.Placed →
    k < tree.scopes.length → k' < tree'.scopes.length →
      (c.runAmong (Scoped.calls i.depth) k f ⟨t, tree, out⟩).1 =
          (c.runAmong (Scoped.calls i.depth) k' f ⟨t, tree', out'⟩).1 ∧
        (c.runAmong (Scoped.calls i.depth) k f ⟨t, tree, out⟩).2.table =
          (c.runAmong (Scoped.calls i.depth) k' f ⟨t, tree', out'⟩).2.table

/-- **The body of an isolated call sees nothing of the caller's variables.**  Two callers that run in the
    same frame at the same table can differ in their variables and in the text so far: the call ends the
    same way in both, with the same value or the same interrupt, and leaves the same table.  In a tree of
    scopes it sees nothing of any variables that are there. -/
theorem run_unseen (i : Interpreter) (c : IsolatedCall) (f : Frame) (t : Table)
    (vars vars' : Variables) (out out' : String) : c.SameForCallers i f t vars vars' out out' := by
  obtain ⟨r, t', returned, -, hrun⟩ := c.exists_run_eq i.calls f t
  constructor
  case answer => rw [hrun vars out, hrun vars' out']
  case table => rw [hrun vars out, hrun vars' out']
  case among =>
    intro hi tree tree' k k' htree htree' hk hk'
    obtain ⟨hend, hleft⟩ := c.runAmong_realizes_run hi k f ⟨t, tree, out⟩ htree hk
    obtain ⟨hend', hleft'⟩ := c.runAmong_realizes_run hi k' f ⟨t, tree', out'⟩ htree' hk'
    have hown : c.run i.calls f (SharedState.own ⟨t, tree, out⟩ k) =
        (r, ⟨t', (tree.bindings k).receive returned, out⟩) := hrun (tree.bindings k) out
    have hown' : c.run i.calls f (SharedState.own ⟨t, tree', out'⟩ k') =
        (r, ⟨t', (tree'.bindings k').receive returned, out'⟩) := hrun (tree'.bindings k') out'
    rw [hend, hend', hleft.table, hleft'.table, hown, hown']
    exact ⟨rfl, rfl⟩

end IsolatedCall

end Tabletop
