import Tabletop.Proofs.Authority.Lawful
import Tabletop.Proofs.Function.Names
import Tabletop.Builtin.Catalog

/-
  What a call comes to, in terms of the body that it runs.

  A call picks a body, starts it in a frame of its own, and makes an answer of what the body leaves
  behind.  The lemmas here say so with one equation for each way of calling, so that nothing below has
  to take a call apart again.

  1. **Receiving** — `Variables.receive`: what a caller's variables become when a body hands a value
     back, and when it hands none back.  `nestedReturn` is what functions and text have in common.

  2. **Functions** — `invoke_apply`: the body starts from `UserFunction.start`; an abort is the end of
     the body and not of the caller.

  3. **Text and macros by name** — `runText_apply`, `runNamed_apply`: an abort of text is an abort of
     the caller, an abort of a macro that was found is not.

  4. **Built-in functions** — `Registry.call_execMacro`: the one check that stands before the text of
     `execMacro` runs.
-/
namespace Tabletop

/-- The variables of a caller to which a body has handed a value back, or none. -/
def Variables.receive (vars : Variables) (returned : Option Value) : Variables :=
  match returned with
  | some v => Assoc.insert vars returnName v
  | none => vars

namespace Variables

/-- Only the variable for returned values can be another one afterwards. -/
theorem get?_receive_of_ne (vars : Variables) (returned : Option Value) {x : String}
    (hx : x ≠ returnName) : Assoc.get? (vars.receive returned) x = Assoc.get? vars x := by
  cases returned with
  | none => rfl
  | some v => exact Assoc.get?_insert_of_ne vars v (Ne.symm hx)

/-- Variables that hold a returned value already. -/
@[simp] theorem receive_returned? (vars : Variables) : vars.receive vars.returned? = vars := by
  cases h : vars.returned? with
  | none => rfl
  | some v => exact Assoc.insert_eq_self h

end Variables

namespace Action

variable {α : Type}

@[simp] theorem passReturn_apply (n : Nested α) (f : Frame) (s : RunState) :
    Action.passReturn n f s = (.ok (), { s with bindings := s.bindings.receive n.returned }) := by
  obtain ⟨value, output, returned⟩ := n
  cases returned <;> rfl

/-- A nested action runs on variables of its own, or on those of the caller, and on an empty text. -/
theorem nested_apply (g : Frame) (share : Bool) (act : Action α) (f : Frame) (s : RunState) :
    Action.nested g share act f s =
      match act g ⟨s.table, if share then s.bindings else [], ""⟩ with
      | (.ok a, u) => (.ok ⟨a, u.output, Variables.returned? u.bindings⟩,
          ⟨u.table, if share then u.bindings else s.bindings, s.output⟩)
      | (.error i, u) => (.error i, ⟨u.table, if share then u.bindings else s.bindings, s.output⟩) := by
  unfold Action.nested
  rcases act g ⟨s.table, if share then s.bindings else [], ""⟩ with ⟨r, u⟩
  cases r <;> rfl

/-- Runs a nested body and hands on the value that it hands back. -/
def nestedReturn (g : Frame) (share : Bool) (act : Action α) : Action (Nested α) := do
  let n ← Action.nested g share act
  Action.passReturn n
  pure n

theorem nestedReturn_apply (g : Frame) (share : Bool) (act : Action α) (f : Frame) (s : RunState) :
    nestedReturn g share act f s =
      match act g ⟨s.table, if share then s.bindings else [], ""⟩ with
      | (.ok a, u) => (.ok ⟨a, u.output, Variables.returned? u.bindings⟩,
          ⟨u.table, (if share then u.bindings else s.bindings).receive
            (Variables.returned? u.bindings), s.output⟩)
      | (.error i, u) =>
        (.error i, ⟨u.table, if share then u.bindings else s.bindings, s.output⟩) := by
  unfold nestedReturn
  rw [bind_apply, nested_apply]
  -- what the body hands back is bound in the caller, if it is anything
  rcases act g ⟨s.table, if share then s.bindings else [], ""⟩ with ⟨r, u⟩
  cases r with
  | error i => rfl
  | ok a =>
    dsimp only
    rw [bind_apply, passReturn_apply]
    rfl

end Action

/-! ## Functions -/

/-- A user-defined function comes before a built-in one. -/
theorem Calls.call_apply (calls : Calls) (name : String) (args : List Value) (f : Frame)
    (s : RunState) :
    calls.call name args f s =
      match s.table.functions.get? name with
      | .some g => invoke calls.evaluate g args f s
      | .none => calls.builtin name args f s := by
  unfold Calls.call
  rw [Action.bind_apply, Action.get_apply]
  dsimp only
  cases s.table.functions.get? name <;> rfl

namespace UserFunction

/-- The frame in which the body of the function runs. -/
def frame (g : UserFunction) (caller : Frame) : Frame :=
  { caller with name := g.name, location := g.definition.location, function := some g }

/-- The state in which the body of the function starts. -/
def start (g : UserFunction) (args : List Value) (s : RunState) : RunState :=
  let vars := if g.definition.freshVariables then [] else s.bindings
  ⟨s.table, Variables.bindArguments (Assoc.erase vars Variables.returnName) args, ""⟩

/-- The variables of the caller when the body of the function has left `u`. -/
def variablesAfter (g : UserFunction) (s u : RunState) : Variables :=
  if g.definition.freshVariables then s.bindings else u.bindings

/-- The value of a call whose body has left `u`. -/
def valueOf (g : UserFunction) (u : RunState) : Value :=
  g.definition.result ⟨(), u.output, Variables.returned? u.bindings⟩

/-- What a call of the function does inside: it clears the way for a returned value, binds the
    arguments and runs the body. -/
def prepared (g : UserFunction) (evaluate : String → Action Unit) (args : List Value) :
    Action Unit := do
  Action.modifyVariables (Assoc.erase · Variables.returnName)
  Action.modifyVariables (Variables.bindArguments · args)
  Action.untilAbort (evaluate g.definition.body)

theorem prepared_apply (g : UserFunction) (evaluate : String → Action Unit) (args : List Value)
    (f : Frame) (s : RunState) :
    g.prepared evaluate args f
        ⟨s.table, if !g.definition.freshVariables then s.bindings else [], ""⟩ =
      Action.untilAbort (evaluate g.definition.body) f (g.start args s) := by
  unfold start
  cases g.definition.freshVariables <;> rfl

end UserFunction

variable {evaluate : String → Action Unit}

/-- A call of a function is a nested body whose value is made of what it left behind. -/
theorem invoke_eq_nestedReturn (g : UserFunction) (args : List Value) (f : Frame) (s : RunState) :
    invoke evaluate g args f s =
      (Action.nestedReturn (g.frame f) (!g.definition.freshVariables) (g.prepared evaluate args) >>=
        fun n => pure (g.definition.result n)) f s := by
  unfold Action.nestedReturn
  simp only [bind_assoc, pure_bind]
  rfl

/-- **A call of a function.**  It fails if the body does.  If the body comes to its end or aborts, the
    call has a value, and the caller goes on with what it receives. -/
theorem invoke_apply (evaluate : String → Action Unit) (g : UserFunction) (args : List Value)
    (f : Frame) (s : RunState) :
    invoke evaluate g args f s =
      match Action.untilAbort (evaluate g.definition.body) (g.frame f) (g.start args s) with
      | (.ok _, u) => (.ok (g.valueOf u),
          ⟨u.table, (g.variablesAfter s u).receive (Variables.returned? u.bindings), s.output⟩)
      | (.error i, u) => (.error i, ⟨u.table, g.variablesAfter s u, s.output⟩) := by
  have hvariables (u : RunState) :
      (if !g.definition.freshVariables then u.bindings else s.bindings) = g.variablesAfter s u := by
    unfold UserFunction.variablesAfter
    cases g.definition.freshVariables <;> rfl
  rw [invoke_eq_nestedReturn, Action.bind_apply, Action.nestedReturn_apply, g.prepared_apply]
  -- an abort ends the body, an error ends the call
  rcases Action.untilAbort (evaluate g.definition.body) (g.frame f) (g.start args s) with ⟨r, u⟩
  cases r with
  | error i => simp only [hvariables]
  | ok a =>
    dsimp only
    rw [hvariables]
    rfl

/-- **An abort ends the function and not its caller**: the call has a value all the same. -/
theorem invoke_of_abort {g : UserFunction} {args : List Value} {f : Frame} {s u : RunState}
    {m : Option String}
    (h : evaluate g.definition.body (g.frame f) (g.start args s) = (.error (.abort m), u)) :
    invoke evaluate g args f s = (.ok (g.valueOf u),
      ⟨u.table, (g.variablesAfter s u).receive (Variables.returned? u.bindings), s.output⟩) := by
  have huntil : Action.untilAbort (evaluate g.definition.body) (g.frame f) (g.start args s) =
      (.ok (), u) := by
    unfold Action.untilAbort
    rw [h]
  rw [invoke_apply, huntil]

/-! ## Text -/

/-- Text is a nested body, too. -/
theorem runText_eq_nestedReturn (text : String) (share : Bool) (f : Frame) (s : RunState) :
    runText evaluate text share f s =
      (Action.nestedReturn f share (evaluate text) >>= fun n => pure (Value.ofOutput n.output)) f s := by
  unfold Action.nestedReturn
  simp only [bind_assoc, pure_bind]
  rfl

/-- **Text that runs in the place of its caller.**  The call ends as the text does. -/
theorem runText_apply (evaluate : String → Action Unit) (text : String) (share : Bool) (f : Frame)
    (s : RunState) :
    runText evaluate text share f s =
      match evaluate text f ⟨s.table, if share then s.bindings else [], ""⟩ with
      | (.ok _, u) => (.ok (.ofOutput u.output),
          ⟨u.table, (if share then u.bindings else s.bindings).receive (Variables.returned? u.bindings),
            s.output⟩)
      | (.error i, u) => (.error i, ⟨u.table, if share then u.bindings else s.bindings, s.output⟩) := by
  rw [runText_eq_nestedReturn, Action.bind_apply, Action.nestedReturn_apply]
  rcases evaluate text f ⟨s.table, if share then s.bindings else [], ""⟩ with ⟨r, u⟩
  cases r <;> rfl

/-! ## Macros by name -/

/-- The request with which a frame starts a macro that was found. -/
def Frame.request (f : Frame) (m : LocatedMacro) (arguments : String) : RunRequest :=
  .ofLocated m f.player f.subject arguments

/-- **A macro by name.**  It has to be found; then it runs as a macro of its own, and an abort ends it
    without an error. -/
theorem runNamed_apply (evaluate : String → Action Unit) (name arguments : String) (f : Frame)
    (s : RunState) :
    runNamed evaluate name arguments f s =
      match s.table.campaign.locate name f.subject f.location with
      | .error e => (.error (.error e), s)
      | .ok m =>
        let r := f.request m arguments
        match Action.untilAbort (evaluate m.body)
            (r.frame (s.table.campaign.trusts r.origin)) ⟨s.table, r.bindings, ""⟩ with
        | (.ok _, u) => (.ok u.output,
            ⟨u.table, s.bindings.receive (Variables.returned? u.bindings), s.output⟩)
        | (.error i, u) => (.error i, ⟨u.table, s.bindings, s.output⟩) := by
  unfold runNamed
  simp only [Action.bind_apply, Action.frame_apply, Action.campaign_apply]
  cases s.table.campaign.locate name f.subject f.location with
  | error e => rfl
  | ok m =>
    rw [Action.ofExcept_ok]
    dsimp only [Action.atTable, runLocated, runBody, Action.untilAbort, Frame.request]
    rcases evaluate m.body ((RunRequest.ofLocated m f.player f.subject arguments).frame
      (s.table.campaign.trusts (RunRequest.ofLocated m f.player f.subject arguments).origin))
      ⟨s.table, (RunRequest.ofLocated m f.player f.subject arguments).bindings, ""⟩ with ⟨r, u⟩
    rcases r with i | a
    · cases i with
      | abort message =>
        dsimp only
        -- an abort hands back what was set so far
        cases u.bindings.returned? <;> rfl
      | error e => rfl
      | exhausted => rfl
    · dsimp only
      cases u.bindings.returned? <;> rfl

/-! ## Built-in functions -/

namespace Registry

/-- No function of the catalog takes a name away from another one. -/
theorem entries_builtins : Registry.builtins.entries = Builtin.all := by
  rfl

/-- The function of a name is looked for in the catalog. -/
theorem find?_builtins (name : String) :
    Registry.builtins.find? name = Builtin.all.find? fun b => b.descriptor.hasName name := by
  have hconsistent : Registry.builtins.Consistent := ofList_consistent Builtin.all
  rw [hconsistent.find?_eq, entries_builtins]

theorem find?_execMacro : Registry.builtins.find? "execMacro" = some Builtin.execMacro :=
  (find?_builtins _).trans rfl

/-- A call of a function for trusted macros whose arguments are accepted in number. -/
theorem call_of_trusted {r : Registry Behaviour} {name : String} {b : Builtin} {args : List Value}
    (hb : r.find? name = some b) (harity : b.descriptor.arity.accepts args.length = true)
    (htrusted : b.descriptor.trusted = true) (calls : Calls) :
    r.call calls name args = (do
      Action.requireTrust name
      let v ← b.function.run calls name args
      pure v.coerced) := by
  unfold Registry.call
  rw [hb]
  dsimp only
  rw [if_pos harity, if_pos htrusted]

/-- A call of a function for everyone whose arguments are accepted in number. -/
theorem call_of_untrusted {r : Registry Behaviour} {name : String} {b : Builtin} {args : List Value}
    (hb : r.find? name = some b) (harity : b.descriptor.arity.accepts args.length = true)
    (hfree : b.descriptor.trusted = false) (calls : Calls) :
    r.call calls name args = (b.function.run calls name args >>= fun v => pure v.coerced) := by
  unfold Registry.call
  rw [hb]
  dsimp only
  rw [if_pos harity, hfree]
  rfl

/-- The call of such a function comes to what the function does, and coerces its value. -/
theorem call_of_run {r : Registry Behaviour} {name : String} {b : Builtin} {args : List Value}
    (hb : r.find? name = some b) (harity : b.descriptor.arity.accepts args.length = true)
    (hfree : b.descriptor.trusted = false) {calls : Calls} {f : Frame} {s : RunState}
    {result : Except Interrupt Value × RunState} (hrun : b.function.run calls name args f s = result) :
    r.call calls name args f s = (result.1.map Value.coerced, result.2) := by
  rw [call_of_untrusted hb harity hfree, Action.bind_apply, hrun]
  rcases result with ⟨_ | _, _⟩ <;> rfl

/-- What is left of the dispatch where everyone may call the function and its value depends on the
    arguments alone: the value, as the number that it writes if it writes one. -/
theorem call_of_computes {r : Registry Behaviour} {name : String} {b : Builtin} {args : List Value}
    {g : String → List Value → Except MacroError Value} {v : Value} (hb : r.find? name = some b)
    (harity : b.descriptor.arity.accepts args.length = true) (hfree : b.descriptor.trusted = false)
    (hcomputes : b.function = .computes g) (hv : g name args = .ok v) (calls : Calls) (f : Frame)
    (s : RunState) : r.call calls name args f s = (.ok v.coerced, s) := by
  have hrun : b.function.run calls name args f s = (.ok v, s) := by
    rw [hcomputes, Behaviour.run, hv]
    rfl
  exact call_of_run hb harity hfree hrun

/-- **`execMacro`** needs a trusted frame.  It runs its text with variables of its own. -/
theorem call_execMacro (calls : Calls) (source : Value) (f : Frame) (s : RunState) :
    Registry.builtins.call calls "execMacro" [source] f s =
      if f.trusted then
        match calls.evaluate source.display f ⟨s.table, [], ""⟩ with
        | (.ok _, u) => (.ok (Value.ofOutput u.output).coerced,
            ⟨u.table, s.bindings.receive (Variables.returned? u.bindings), s.output⟩)
        | (.error i, u) => (.error i, ⟨u.table, s.bindings, s.output⟩)
      else (.error (.error (.permission "execMacro")), s) := by
  rw [call_of_trusted find?_execMacro rfl rfl, Action.bind_apply, Action.requireTrust_apply]
  cases f.trusted with
  | false => rfl
  | true =>
    show (runText calls.evaluate source.display false >>= fun v => pure v.coerced) f s = _
    rw [Action.bind_apply, runText_apply]
    simp only [Bool.false_eq_true, if_false, if_true]
    rcases calls.evaluate source.display f ⟨s.table, [], ""⟩ with ⟨r, u⟩
    cases r <;> rfl

end Registry

end Tabletop
