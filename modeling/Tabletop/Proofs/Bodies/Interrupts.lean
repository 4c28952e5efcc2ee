import Tabletop.Proofs.Bodies.Sequence
import Tabletop.Proofs.Bodies.SilentBuiltins
import Tabletop.Proofs.Calls.Outcome

/-
  Where an interrupt cuts a body.

  1. **The cut** — `StopsAt`: some segments run to their end, and the next one is stopped, at whatever
     depth the interrupt was raised.  What stands behind it is not looked at (`StopsAt.runSegments_eq`),
     and the text is the text of the segments before it (`StopsAt.output_eq`): a segment shows its value
     last, so one that is stopped has shown nothing.

  2. **Macros** — the two interrupts are told apart where the macro was started: an abort is an end with
     the text so far, an error is handed on.

  3. **Functions** — here an abort is an end of the function only.  The call has a value, and its caller
     goes on with the next segment (`runSegments_call`).
-/
namespace Tabletop

/-- From `s` the segments `before` run to their end in `u`, and the next segment is stopped in `v`. -/
structure StopsAt (calls : Calls) (f : Frame) (s : RunState) (before : List Segment) (x : Segment)
    (stop : Interrupt) (u v : RunState) : Prop where
  reaches : runSegments calls before f s = (.ok (), u)
  stops : runSegment calls x f u = (.error stop, v)

/-- The interrupt in which something ended, if it did. -/
def interrupt? {α : Type} : Except Interrupt α → Option Interrupt
  | .ok _ => none
  | .error i => some i

namespace StopsAt

variable {calls : Calls} {f : Frame} {s u v : RunState} {before : List Segment} {x : Segment}
  {stop : Interrupt}

/-- A cut can be found by running: it is left to see how the next segment ends. -/
theorem of_interrupt? (hbefore : runSegments calls before f s = (.ok (), u))
    (hx : interrupt? (runSegment calls x f u).1 = some stop) :
    StopsAt calls f s before x stop u (runSegment calls x f u).2 := by
  refine ⟨hbefore, ?_⟩
  rcases hrun : runSegment calls x f u with ⟨r, v⟩
  rw [hrun] at hx
  cases r with
  | ok a => cases hx
  | error i =>
    obtain rfl : i = stop := Option.some.inj hx
    rfl

/-- The segments behind the one that is stopped have no part in the run. -/
theorem runSegments_eq (h : StopsAt calls f s before x stop u v) (after : List Segment) :
    runSegments calls (before ++ x :: after) f s = (.error stop, v) := by
  simp [runSegments_append, runSegments, h.reaches, h.stops]

/-- The text of a body that is stopped is the text of the segments before. -/
theorem output_eq (h : StopsAt calls f s before x stop u v) (hsilent : calls.Silent) :
    v.output = u.output :=
  output_of_runSegment_error hsilent h.stops

/-- A body that is cut into these segments. -/
theorem evaluateBody_eq (h : StopsAt calls f s before x stop u v) {body : String}
    {after : List Segment} (hbody : Segment.ofBody body = .ok (before ++ x :: after)) :
    evaluateBody calls body f s = (.error stop, v) := by
  rw [Tabletop.evaluateBody_eq calls hbody, h.runSegments_eq]

end StopsAt

/-! ## Macros -/

section Bodies

variable {evaluate : String → Action Unit}

/-- An abort is an end of the macro, with the text so far. -/
theorem runBody_of_abort {body : String} {r : RunRequest} {t : Table} {m : Option String} {v : RunState}
    (h : evaluate body (r.frame (t.campaign.trusts r.origin)) ⟨t, r.bindings, ""⟩ =
      (.error (.abort m), v)) :
    runBody evaluate body r t =
      (.ok ⟨v.output, true, Variables.returned? v.bindings⟩, v.table) := by
  unfold runBody
  rw [h]

/-- An error in a macro is an error of its caller. -/
theorem runBody_of_error {body : String} {r : RunRequest} {t : Table} {e : MacroError} {v : RunState}
    (h : evaluate body (r.frame (t.campaign.trusts r.origin)) ⟨t, r.bindings, ""⟩ =
      (.error (.error e), v)) :
    runBody evaluate body r t = (.error (.error e), v.table) := by
  unfold runBody
  rw [h]

end Bodies

/-! ## Functions -/

/-- A segment that is nothing but a call of a user-defined function.  If the call has a value, the
    segments behind it run from where the call left off. -/
theorem runSegments_call {calls : Calls} {options : BracketOptions} {source name : String}
    {xs : List Expr} {args : List Value} {g : UserFunction} {f : Frame} {s₀ s w : RunState} {v : Value}
    (hparse : Expr.parse source = .ok [.call name xs]) (hplain : options.macroName = none)
    (hargs : evaluateArguments calls.call xs f s₀ = (.ok args, s))
    (hg : s.table.functions.get? name = some g)
    (hcall : invoke calls.evaluate g args f s = (.ok v, w)) (rest : List Segment) :
    runSegments calls (.expression options source :: rest) f s₀ =
      runSegments calls rest f
        { w with output := w.output ++ options.output.written source v.display } := by
  -- the table has the function under this name
  have hcallee : calls.call name args f s = (.ok v, w) := by
    rw [Calls.call_apply, hg]
    exact hcall
  -- so the expression has the value of the call
  have hvalue : evaluateSource calls.call source f s₀ = (.ok v, w) := by
    unfold evaluateSource
    rw [hparse]
    show (evaluateExpr calls.call (.call name xs) >>= fun v => pure v) f s₀ = _
    rw [Action.bind_apply, evaluateExpr, Action.bind_apply, hargs]
    dsimp only
    rw [hcallee]
    rfl
  have hsegments : runSegments calls (.expression options source :: rest) =
      (do runSegment calls (.expression options source); runSegments calls rest) := rfl
  rw [hsegments, Action.bind_apply, runSegment_expression, Action.bind_apply]
  unfold shownText
  rw [Action.bind_apply, hvalue, hplain]
  rfl

/-- What comes of two bodies whose segments are the same up to a segment `x` that is stopped, when the
    segments before it have come to their end in `u` and `x` is stopped in `v`. -/
structure Interpreter.StoppedAlike (config : Config) (depth : Nat) (body body' : String)
    (before : List Segment) (x : Segment) : Prop where
  /-- As macros that are stopped by an abort, both leave the table of `v` and have the text of `u`. -/
  aborts : ∀ (r : RunRequest) (t : Table) (m : Option String) (u v : RunState),
    StopsAt (Calls.ofDepth .builtins depth) (r.frame (t.campaign.trusts r.origin)) ⟨t, r.bindings, ""⟩
        before x (.abort m) u v →
      Interpreter.run ⟨config, .builtins, depth + 1⟩ body r t =
          (.ok ⟨u.output, true, Variables.returned? v.bindings⟩, v.table) ∧
        Interpreter.run ⟨config, .builtins, depth + 1⟩ body' r t =
          (.ok ⟨u.output, true, Variables.returned? v.bindings⟩, v.table)
  /-- As macros that are stopped by an error, both leave the table of `v` and end with this error. -/
  fails : ∀ (r : RunRequest) (t : Table) (e : MacroError) (u v : RunState),
    StopsAt (Calls.ofDepth .builtins depth) (r.frame (t.campaign.trusts r.origin)) ⟨t, r.bindings, ""⟩
        before x (.error e) u v →
      Interpreter.run ⟨config, .builtins, depth + 1⟩ body r t = (.error (.error e), v.table) ∧
        Interpreter.run ⟨config, .builtins, depth + 1⟩ body' r t = (.error (.error e), v.table)
  /-- As the body of a function that is stopped by an abort, the first gives the call a value.  It is made
      of the text of `u` and of what was to be handed back in `v`. -/
  answers : ∀ (g : UserFunction) (args : List Value) (f : Frame) (s : RunState) (m : Option String)
      (u v : RunState), g.definition.body = body →
    StopsAt (Calls.ofDepth .builtins depth) (g.frame f) (g.start args s) before x (.abort m) u v →
      invoke (Calls.ofDepth .builtins (depth + 1)).evaluate g args f s =
        (.ok (g.definition.result ⟨(), u.output, Variables.returned? v.bindings⟩),
          ⟨v.table, (g.variablesAfter s v).receive (Variables.returned? v.bindings), s.output⟩)
  /-- A caller that made this call in a segment of its own goes on with the segments behind it. -/
  goesOn : ∀ (g : UserFunction) (args : List Value) (f : Frame) (s : RunState) (m : Option String)
      (u v : RunState), g.definition.body = body →
    StopsAt (Calls.ofDepth .builtins depth) (g.frame f) (g.start args s) before x (.abort m) u v →
    ∀ (options : BracketOptions) (source name : String) (xs : List Expr) (s₀ : RunState)
        (rest : List Segment),
      Expr.parse source = .ok [.call name xs] → options.macroName = none →
      evaluateArguments (Calls.ofDepth .builtins (depth + 1)).call xs f s₀ = (.ok args, s) →
      s.table.functions.get? name = some g →
        runSegments (Calls.ofDepth .builtins (depth + 1)) (.expression options source :: rest) f s₀ =
          runSegments (Calls.ofDepth .builtins (depth + 1)) rest f
            ⟨v.table, (g.variablesAfter s v).receive (Variables.returned? v.bindings),
              s.output ++ options.output.written source
                (g.definition.result ⟨(), u.output, Variables.returned? v.bindings⟩).display⟩

/-- **An interrupt cuts a body at one point.**  Of two bodies whose segments are the same up to a segment
    `x`, neither goes on behind `x` if `x` is stopped: they have the text of the segments before `x`, and
    they leave what `x` left.  A macro swallows an abort and hands an error on, and a function swallows an
    abort too, so that its caller goes on. -/
theorem Interpreter.run_of_stopsAt (config : Config) (depth : Nat) {body body' : String}
    {before after after' : List Segment} {x : Segment}
    (hbody : Segment.ofBody body = .ok (before ++ x :: after))
    (hbody' : Segment.ofBody body' = .ok (before ++ x :: after')) :
    Interpreter.StoppedAlike config depth body body' before x := by
  have hsilent : (Calls.ofDepth .builtins depth).Silent := Calls.ofDepth_silent depth
  -- the call has a value, whatever its caller does with it
  have hcall (g : UserFunction) (args : List Value) (f : Frame) (s : RunState) (m : Option String)
      (u v : RunState) (hg : g.definition.body = body)
      (h : StopsAt (Calls.ofDepth .builtins depth) (g.frame f) (g.start args s) before x (.abort m) u v) :
      invoke (Calls.ofDepth .builtins (depth + 1)).evaluate g args f s =
        (.ok (g.definition.result ⟨(), u.output, Variables.returned? v.bindings⟩),
          ⟨v.table, (g.variablesAfter s v).receive (Variables.returned? v.bindings), s.output⟩) := by
    subst hg
    rw [← h.output_eq hsilent]
    exact invoke_of_abort (h.evaluateBody_eq hbody)
  refine {
    aborts := fun r t m u v h => ?_
    fails := fun r t e u v h => ?_
    answers := hcall
    goesOn := fun g args f s m u v hg h options source name xs s₀ rest hparse hplain hargs hfound => ?_ }
  · rw [← h.output_eq hsilent]
    exact ⟨runBody_of_abort (h.evaluateBody_eq hbody), runBody_of_abort (h.evaluateBody_eq hbody')⟩
  · exact ⟨runBody_of_error (h.evaluateBody_eq hbody), runBody_of_error (h.evaluateBody_eq hbody')⟩
  · exact runSegments_call hparse hplain hargs hfound (hcall g args f s m u v hg h) rest

/-- What was parsed is one call without arguments. -/
def isPlainCall (name : String) : Except SyntaxFault (List Expr) → Bool
  | .ok [.call n []] => n == name
  | _ => false

theorem eq_of_isPlainCall {name : String} {r : Except SyntaxFault (List Expr)}
    (h : isPlainCall name r = true) : r = .ok [.call name []] := by
  unfold isPlainCall at h
  split at h
  · rw [eq_of_beq h]
  · cases h

/-- A function that aborts on its way. -/
def halting : UserFunction := ⟨"stop", ⟨"before[h: abort(0)]after", false, true, "chat"⟩, []⟩

/-- A table at which this function is defined. -/
def haltingTable : Table :=
  { Table.ofCampaign (Campaign.new "Stage") ⟨0⟩ with
    functions := FunctionTable.empty.define "stop" halting.definition }

/-- A frame of text from chat at this table. -/
def haltingFrame : Frame := (RunRequest.ofText (.unattached true) "Gina" none).frame true

/-- The function is stopped by its second segment, and its caller goes on.  A macro ends with the text
    before an abort, and with the error of an assertion. -/
theorem run_of_stopsAt_halting :
    let i : Interpreter := ⟨.default, .builtins, 3⟩
    let r : RunRequest := .ofText (.unattached true) "Gina" none
    (∃ v : RunState,
      i.run "before[h: abort(0)]after" r haltingTable =
        (.ok ⟨"before", true, Variables.returned? v.bindings⟩, v.table) ∧
      i.run "before[h: abort(0)]{HP}" r haltingTable =
        (.ok ⟨"before", true, Variables.returned? v.bindings⟩, v.table)) ∧
    (i.run "before[h: assert(0, 'bad roll')]after" r haltingTable).1 =
      .error (.error (.assertionFailed "Macro-defined error: bad roll")) ∧
    (runSegments i.calls [.expression ⟨.result, none⟩ " stop()", .text "|"] haltingFrame
      ⟨haltingTable, [], ""⟩).2.output = "before|" := by
  intro i r
  have habort := Interpreter.run_of_stopsAt .default 2
    (show Segment.ofBody "before[h: abort(0)]after" =
      .ok ([.text "before"] ++ .expression ⟨.hidden, none⟩ " abort(0)" :: [.text "after"]) by rfl)
    (show Segment.ofBody "before[h: abort(0)]{HP}" =
      .ok ([.text "before"] ++ .expression ⟨.hidden, none⟩ " abort(0)" ::
        [.expression ⟨.tooltip, none⟩ "HP"]) by rfl)
  have hassert := Interpreter.run_of_stopsAt .default 2
    (show Segment.ofBody "before[h: assert(0, 'bad roll')]after" =
      .ok ([.text "before"] ++ .expression ⟨.hidden, none⟩ " assert(0, 'bad roll')" ::
        [.text "after"]) by rfl)
    (show Segment.ofBody "before[h: assert(0, 'bad roll')]" =
      .ok ([.text "before"] ++ .expression ⟨.hidden, none⟩ " assert(0, 'bad roll')" :: []) by rfl)
  refine ⟨⟨_, habort.aborts r haltingTable (some "0") ⟨haltingTable, [], "before"⟩ _
    (.of_interrupt? rfl (by decide +kernel))⟩, ?_, ?_⟩
  · rw [(hassert.fails r haltingTable (.assertionFailed "Macro-defined error: bad roll")
      ⟨haltingTable, [], "before"⟩ _ (.of_interrupt? rfl (by decide +kernel))).1]
  · have hnext := habort.goesOn halting [] haltingFrame ⟨haltingTable, [], ""⟩ (some "0")
      ⟨haltingTable, (halting.start [] ⟨haltingTable, [], ""⟩).bindings, "before"⟩ _ rfl
      (.of_interrupt? rfl (by decide +kernel))
    have hcalls : i.calls = Calls.ofDepth .builtins (2 + 1) := rfl
    rw [hcalls, hnext ⟨.result, none⟩ " stop()" "stop" [] ⟨haltingTable, [], ""⟩ [.text "|"]
      (eq_of_isPlainCall (by decide +kernel)) rfl rfl (by decide +kernel)]
    have htext : (Value.ofOutput "before").display = "before" := by decide +kernel
    show "" ++ (Value.ofOutput "before").display ++ "|" = "before|"
    rw [htext]
    rfl

end Tabletop
