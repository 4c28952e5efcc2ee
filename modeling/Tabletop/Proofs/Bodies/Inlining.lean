import Tabletop.Proofs.Bodies.SilentBuiltins
import Tabletop.Proofs.Calls.Depth
import Tabletop.Table.Session

/-
  Text that is evaluated in the place of its caller.

  1. **Appending** — `Action.Appends`: a body adds to the text that is there and does not look at it.
     This is less than silence in that the text may grow, and more than a fact about the final text: the
     whole run is the same, whatever is written in front.  Expressions are silent, so it comes down to
     `emit`.

  2. **Inlining** — `evalMacro` runs its text in the frame that calls it, on the same variables and on an
     empty text.  With 1 this is the run of the text in its place, and what that shows is the value of the
     call (`Registry.call_evalMacro`, `Interpreter.evalMacro_inlines`).

  3. **Depth** — the text of the call nests one call deeper than the call itself.  A run that stays within
     the depth does not notice (`Proofs/Calls/Depth`).
-/
namespace Tabletop

namespace Action

variable {α β : Type}

/-- With another text in front the action does the same, and what it shows comes behind that text. -/
def Appends (act : Action α) : Prop :=
  ∀ f s front, act f (s.mapOutput (front ++ ·)) = ((act f s).1, (act f s).2.mapOutput (front ++ ·))

namespace Appends

/-- An action that shows nothing does not look at what is shown. -/
theorem of_silent {act : Action α} (h : Silent act) : Appends act := fun f s front => h f s (front ++ ·)

/-- Text goes behind what is there. -/
theorem emit (text : String) : Appends (Action.emit text) := by
  intro f s front
  show (Except.ok (), (⟨s.table, s.bindings, front ++ s.output ++ text⟩ : RunState)) =
    (Except.ok (), ⟨s.table, s.bindings, front ++ (s.output ++ text)⟩)
  rw [String.append_assoc]

/-- What each of the two adds, they add together. -/
theorem bind {act : Action α} {k : α → Action β} (h : Appends act) (hk : ∀ a, Appends (k a)) :
    Appends (act >>= k) := by
  intro f s front
  rw [bind_apply, bind_apply, h f s front]
  rcases act f s with ⟨r, u⟩
  cases r with
  | ok a => exact hk a f u front
  | error i => rfl

/-- Any run is the run on an empty text, with the text so far in front of what that one shows. -/
theorem apply_eq {act : Action α} (h : Appends act) (f : Frame) (s : RunState) :
    act f s = ((act f ⟨s.table, s.bindings, ""⟩).1,
      (act f ⟨s.table, s.bindings, ""⟩).2.mapOutput (s.output ++ ·)) := by
  have hs : s = (⟨s.table, s.bindings, ""⟩ : RunState).mapOutput (s.output ++ ·) := by
    show s = ⟨s.table, s.bindings, s.output ++ ""⟩
    rw [String.append_empty]
  conv => lhs; rw [hs]
  exact h f _ s.output

end Appends

end Action

open Tabletop.Action (Appends)

/-! ## Bodies -/

section Bodies

variable {calls : Calls}

/-- A segment adds its text. -/
theorem runSegment_appends (h : calls.Silent) (x : Segment) : Appends (runSegment calls x) := by
  cases x with
  | text s => exact .emit s
  | expression options source =>
    rw [runSegment_expression]
    exact .bind (.of_silent (shownText_silent h options source)) fun _ => .emit _

/-- Segments add theirs, in order. -/
theorem runSegments_appends (h : calls.Silent) (xs : List Segment) :
    Appends (runSegments calls xs) := by
  induction xs with
  | nil => exact .of_silent (.pure ())
  | cons x xs ih => exact .bind (runSegment_appends h x) fun _ => ih

/-- **A body only appends.** -/
theorem evaluateBody_appends (h : calls.Silent) (body : String) : Appends (evaluateBody calls body) := by
  unfold evaluateBody
  cases Segment.ofBody body with
  | error bracket => exact .of_silent (.failEvaluation _)
  | ok segments => exact runSegments_appends h segments

/-- A body adds its text, at every depth. -/
theorem Calls.evaluate_appends (n : Nat) (body : String) :
    Appends ((Calls.ofDepth .builtins n).evaluate body) := by
  cases n with
  | zero => exact .of_silent (.throw _)
  | succ n => exact evaluateBody_appends (Calls.ofDepth_silent n) body

end Bodies

/-! ## The call -/

/-- What was read from output is coerced already. -/
@[simp] theorem Value.coerced_ofOutput (s : String) : (Value.ofOutput s).coerced = Value.ofOutput s := by
  unfold Value.ofOutput
  cases Json.parseTree? s with
  | some j => rfl
  | none => exact Value.coerced_coerce s

namespace Registry

/-- `evalMacro` is a built-in function. -/
theorem find?_evalMacro : Registry.builtins.find? "evalMacro" = some Builtin.evalMacro :=
  (find?_builtins _).trans rfl

/-- **`evalMacro`** in a trusted frame runs its text on the variables of its caller.  The caller goes on
    with whatever they have become, a returned value among them, and with the text that it had. -/
theorem call_evalMacro (calls : Calls) (source : Value) {f : Frame} (hf : f.trusted = true)
    (s : RunState) :
    Registry.builtins.call calls "evalMacro" [source] f s =
      match calls.evaluate source.display f ⟨s.table, s.bindings, ""⟩ with
      | (end_, u) => (end_.map fun _ => .ofOutput u.output, ⟨u.table, u.bindings, s.output⟩) := by
  rw [call_of_trusted find?_evalMacro rfl rfl, Action.bind_apply, Action.requireTrust_apply, hf,
    if_pos rfl]
  show (runText calls.evaluate source.display true >>= fun v => pure v.coerced) f s = _
  rw [Action.bind_apply, runText_apply]
  simp only [if_true, Variables.receive_returned?]
  rcases calls.evaluate source.display f ⟨s.table, s.bindings, ""⟩ with ⟨r, u⟩
  cases r with
  | error i => rfl
  | ok a =>
    show (Except.ok (Value.ofOutput u.output).coerced, _) = _
    rw [Value.coerced_ofOutput]
    rfl

end Registry

/-- **`evalMacro` is inlining.**  In a trusted frame a call of `evalMacro` leaves the table and the
    variables that its text leaves when it is evaluated in the place of the call, and ends with the same
    interrupt if there is one.  The call shows nothing: it has the value that stands for what the text has
    shown in its place.  The text in the call runs one call deeper than the call; if it is not exhausted,
    both runs are the same at every greater depth. -/
theorem Interpreter.evalMacro_inlines (config : Config) (n : Nat) {f : Frame} (hf : f.trusted = true)
    (s : RunState) (text : String) :
    let direct (m : Nat) := (Interpreter.calls ⟨config, .builtins, m⟩).evaluate text f s
    let call (m : Nat) := (Interpreter.calls ⟨config, .builtins, m⟩).builtin "evalMacro" [.text text] f s
    (∃ shown, (direct n).2.output = s.output ++ shown ∧
      call (n + 1) = ((direct n).1.map fun _ => Value.ofOutput shown,
        ⟨(direct n).2.table, (direct n).2.bindings, s.output⟩)) ∧
    ((direct n).1 ≠ .error .exhausted →
      ∀ m, n ≤ m → direct m = direct n ∧ call (m + 1) = call (n + 1)) := by
  intro direct call
  have hcall (m : Nat) : ∃ shown, (direct m).2.output = s.output ++ shown ∧
      call (m + 1) = ((direct m).1.map fun _ => Value.ofOutput shown,
        ⟨(direct m).2.table, (direct m).2.bindings, s.output⟩) := by
    -- both are the run of the text on an empty text so far
    have hdirect := (Calls.evaluate_appends m text).apply_eq f s
    have hrun := Registry.call_evalMacro (Calls.ofDepth .builtins m) (.text text) hf s
    refine ⟨((Calls.ofDepth .builtins m).evaluate text f ⟨s.table, s.bindings, ""⟩).2.output,
      ?_, ?_⟩
    · exact congrArg (fun r => r.2.output) hdirect
    · have hdirect : direct m = _ := hdirect
      rw [hdirect]
      exact hrun
  refine ⟨hcall n, fun hends m hnm => ?_⟩
  have hdirect : direct m = direct n :=
    (Calls.evaluate_ofDepth_refines text hnm).apply_eq hends
  obtain ⟨shown, hshown, hn⟩ := hcall n
  obtain ⟨shown', hshown', hm⟩ := hcall m
  have hsame : shown' = shown := by
    rw [hdirect, hshown] at hshown'
    exact (String.append_right_inj s.output).1 hshown'.symm
  exact ⟨hdirect, by rw [hm, hn, hdirect, hsame]⟩

/-- A text that counts on, hands the count back and shows it. -/
def tally : String := "it's [h: x = x + 1][h: macro.return = x]now [r: x]"

/-- A trusted frame in the middle of a line. -/
def tallyFrame : Frame := (RunRequest.ofText (.unattached true) "Gina" none).frame true

/-- The state in the middle of the line. -/
def tallyState : RunState :=
  ⟨Table.ofCampaign (Campaign.new "Stage") ⟨0⟩, [("x", .ofInt 2)], "So far: "⟩

/-- The same text in the line and in a call: the line goes on, and the call has a value. -/
theorem evalMacro_inlines_tally :
    let direct := (Interpreter.calls ⟨.default, .builtins, 3⟩).evaluate tally tallyFrame tallyState
    let call := (Interpreter.calls ⟨.default, .builtins, 4⟩).builtin "evalMacro" [.text tally]
      tallyFrame tallyState
    tallyFrame.trusted = true ∧ direct.2.output = "So far: " ++ "it's now 3" ∧
    call = (direct.1.map fun _ => .ofOutput "it's now 3",
      ⟨direct.2.table, direct.2.bindings, "So far: "⟩) ∧
    (Assoc.get? call.2.bindings "macro.return").map Value.display = some "3" := by
  have houtput : ((Interpreter.calls ⟨.default, .builtins, 3⟩).evaluate tally tallyFrame
      tallyState).2.output = "So far: " ++ "it's now 3" := by decide +kernel
  obtain ⟨⟨shown, hshown, hcall⟩, -⟩ :=
    Interpreter.evalMacro_inlines .default 3 (f := tallyFrame) rfl tallyState tally
  dsimp only at hshown hcall
  rw [houtput] at hshown
  have hvalue : "it's now 3" = shown := (String.append_right_inj "So far: ").1 hshown
  rw [← hvalue] at hcall
  exact ⟨rfl, houtput, hcall, by decide +kernel⟩

end Tabletop
