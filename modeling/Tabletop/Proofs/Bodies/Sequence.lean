import Tabletop.Proofs.Authority.Lawful
import Tabletop.Table.Session

/-
  Bodies that are written one behind the other.

  1. **Scanning** — the scan of a body carries two things from one character to the next: the spans
     that are done, to which it only adds (`foldl_step_behind`), and, outside of brackets, plain text
     that is not done yet.  Quotes and closing signs leave no trace there.

  2. **The join** — so the spans of a text behind another one are the spans that it has by itself,
     except that plain text on both sides of the join is one span.  Showing a text at once or in two
     pieces comes to the same (`emit_append`), so nobody can tell (`exists_runSpans`: the induction is
     on the second text and ends at its first bracket).

  3. **Bodies** — two bodies in one do what they do one after the other, and the first one still stops
     the second.
-/
namespace Tabletop

/-! ## Showing text -/

namespace Action

/-- Showing nothing is doing nothing. -/
theorem emit_empty : emit "" = pure () := by
  funext f s
  show (Except.ok (), { s with output := s.output ++ "" }) = (Except.ok (), s)
  rw [String.append_empty]

/-- A text may be shown in two pieces. -/
theorem emit_append (a b : String) : emit (a ++ b) = (do emit a; emit b) := by
  funext f s
  show (Except.ok (), { s with output := s.output ++ (a ++ b) }) =
    (Except.ok (), { s with output := s.output ++ a ++ b })
  rw [String.append_assoc]

end Action

/-! ## Running segments -/

/-- Segments behind others run when these have run. -/
theorem runSegments_append (calls : Calls) (xs ys : List Segment) :
    runSegments calls (xs ++ ys) = (do runSegments calls xs; runSegments calls ys) := by
  induction xs with
  | nil => exact (pure_bind _ _).symm
  | cons x xs ih =>
    show (do runSegment calls x; runSegments calls (xs ++ ys)) = _
    rw [ih]
    exact (bind_assoc _ _ _).symm

/-- Runs the segments of spans. -/
def runSpans (calls : Calls) (spans : List Span) : Action Unit :=
  runSegments calls (spans.map Segment.ofSpan)

theorem runSpans_append (calls : Calls) (xs ys : List Span) :
    runSpans calls (xs ++ ys) = (do runSpans calls xs; runSpans calls ys) := by
  unfold runSpans
  rw [List.map_append, runSegments_append]

/-! ## Scanning -/

namespace Scan

/-- The scan as it is when `old` was done before it began. -/
def behind (old : List Span) (s : Scan) : Scan := { s with done := s.done ++ old }

theorem withText_behind (done old : List Span) (text : List Char) :
    withText (done ++ old) text = withText done text ++ old := by
  unfold withText
  split <;> rfl

/-- What was done before has no part in a step. -/
theorem step_behind (old : List Span) (s : Scan) (c : Char) :
    (s.behind old).step c = (s.step c).behind old := by
  obtain ⟨done, mode⟩ := s
  cases mode with
  | outside text =>
    simp only [behind, step]
    cases closerOf? c with
    | none => rfl
    | some closer => simp only [withText_behind]
  | inside opener closer depth quoting inner =>
    simp only [behind, step]
    split
    · rfl
    · split
      · rfl
      · split
        · cases depth <;> rfl
        · rfl

theorem foldl_step_behind (old : List Span) (cs : List Char) (s : Scan) :
    cs.foldl step (s.behind old) = (cs.foldl step s).behind old := by
  induction cs generalizing s with
  | nil => rfl
  | cons c cs ih => rw [List.foldl_cons, List.foldl_cons, step_behind, ih]

theorem finish_behind (old : List Span) (s : Scan) :
    (s.behind old).finish = s.finish.map (old.reverse ++ ·) := by
  obtain ⟨done, mode⟩ := s
  cases mode with
  | outside text =>
    simp only [behind, finish, Except.map, withText_behind, List.reverse_append]
  | inside opener closer depth quoting inner => rfl

/-- A scan that comes to an end is outside of brackets then. -/
theorem finish_eq_ok {s : Scan} {xs : List Span} (h : s.finish = .ok xs) :
    ∃ text, s.mode = .outside text ∧ xs = (withText s.done text).reverse := by
  obtain ⟨done, mode⟩ := s
  cases mode with
  | outside text => exact ⟨text, rfl, (Except.ok.inj h).symm⟩
  | inside opener closer depth quoting inner => cases h

/-- Text that is not done yet is shown behind what is done. -/
theorem runSpans_withText (calls : Calls) (done : List Span) (text : List Char) :
    runSpans calls (withText done text).reverse =
      (do runSpans calls done.reverse; Action.emit (String.ofList text.reverse)) := by
  cases text with
  | nil =>
    show runSpans calls done.reverse = (do runSpans calls done.reverse; Action.emit "")
    rw [Action.emit_empty]
    exact (bind_pure _).symm
  | cons c cs =>
    show runSpans calls (Span.text (c :: cs).reverse :: done).reverse = _
    rw [List.reverse_cons, runSpans_append]
    rfl

/-- **The join.**  A text is scanned behind spans `old` and plain text `front`, and by itself; `text`
    is the plain text that both scans have read of it so far.  The first scan ends if the second one
    does, and runs to the same effect behind what was there before. -/
theorem exists_runSpans (calls : Calls) (old : List Span) (front : List Char) :
    ∀ (b text : List Char) {ys : List Span},
      (b.foldl step ⟨[], .outside text⟩).finish = .ok ys →
      ∃ zs, (b.foldl step ⟨old, .outside (text ++ front)⟩).finish = .ok zs ∧
        runSpans calls zs = (do
          runSpans calls old.reverse
          Action.emit (String.ofList front.reverse)
          runSpans calls ys)
  | [], text, ys, h => by
    obtain rfl : (withText [] text).reverse = ys := Except.ok.inj h
    refine ⟨(withText old (text ++ front)).reverse, rfl, ?_⟩
    rw [runSpans_withText, runSpans_withText, List.reverse_append, String.ofList_append,
      Action.emit_append]
    rfl
  | c :: cs, text, ys, h => by
    rw [List.foldl_cons] at h ⊢
    cases hc : closerOf? c with
    | none =>
      have hstep (done : List Span) (t : List Char) :
          step ⟨done, .outside t⟩ c = ⟨done, .outside (c :: t)⟩ := by simp only [step, hc]
      rw [hstep] at h ⊢
      exact exists_runSpans calls old front cs (c :: text) h
    | some closer =>
      -- from the first bracket on, the two scans differ in what was done before it only
      have hstep (done : List Span) (t : List Char) : step ⟨done, .outside t⟩ c =
          behind (withText done t) ⟨[], .inside c closer 0 .plain []⟩ := by
        simp only [step, hc, behind, List.nil_append]
      rw [hstep, foldl_step_behind, finish_behind] at h ⊢
      cases hrest : (cs.foldl step ⟨[], .inside c closer 0 .plain []⟩).finish with
      | error e => rw [hrest] at h; cases h
      | ok ws =>
        rw [hrest] at h
        obtain rfl : (withText [] text).reverse ++ ws = ys := Except.ok.inj h
        refine ⟨(withText old (text ++ front)).reverse ++ ws, rfl, ?_⟩
        rw [runSpans_append, runSpans_append, runSpans_withText, runSpans_withText,
          List.reverse_append, String.ofList_append, Action.emit_append]
        simp only [bind_assoc]
        rfl

end Scan

/-! ## Bodies -/

/-- The spans of a text behind another one, and what they do. -/
theorem exists_runSpans_append (calls : Calls) {a b : List Char} {xs ys : List Span}
    (ha : Span.ofBody a = .ok xs) (hb : Span.ofBody b = .ok ys) :
    ∃ zs, Span.ofBody (a ++ b) = .ok zs ∧
      runSpans calls zs = (do runSpans calls xs; runSpans calls ys) := by
  obtain ⟨front, hmode, rfl⟩ := Scan.finish_eq_ok ha
  have hscan : a.foldl Scan.step .start =
      ⟨(a.foldl Scan.step .start).done, .outside ([] ++ front)⟩ := by
    rw [List.nil_append, ← hmode]
  obtain ⟨zs, hzs, hrun⟩ :=
    Scan.exists_runSpans calls (a.foldl Scan.step .start).done front b [] hb
  refine ⟨zs, ?_, ?_⟩
  · unfold Span.ofBody
    rw [List.foldl_append, hscan]
    exact hzs
  · rw [hrun, Scan.runSpans_withText]
    exact (bind_assoc _ _ _).symm

/-- A body that can be cut into segments runs them. -/
theorem evaluateBody_eq (calls : Calls) {body : String} {segments : List Segment}
    (h : Segment.ofBody body = .ok segments) :
    evaluateBody calls body = runSegments calls segments := by
  unfold evaluateBody
  rw [h]

/-- Two bodies in one can be cut into segments if both can, and run one after the other. -/
theorem evaluateBody_append (calls : Calls) {a b : String} {xs ys : List Segment}
    (ha : Segment.ofBody a = .ok xs) (hb : Segment.ofBody b = .ok ys) :
    (∃ zs, Segment.ofBody (a ++ b) = .ok zs) ∧
      evaluateBody calls (a ++ b) = (do evaluateBody calls a; evaluateBody calls b) := by
  cases hxs : Span.ofBody a.toList with
  | error e => unfold Segment.ofBody at ha; rw [hxs] at ha; cases ha
  | ok xs' =>
    cases hys : Span.ofBody b.toList with
    | error e => unfold Segment.ofBody at hb; rw [hys] at hb; cases hb
    | ok ys' =>
      -- the segments are those of the spans
      have ha' : Segment.ofBody a = .ok (xs'.map Segment.ofSpan) := by
        unfold Segment.ofBody; rw [hxs]; rfl
      have hb' : Segment.ofBody b = .ok (ys'.map Segment.ofSpan) := by
        unfold Segment.ofBody; rw [hys]; rfl
      obtain ⟨zs, hzs, hrun⟩ := exists_runSpans_append calls hxs hys
      have hab : Segment.ofBody (a ++ b) = .ok (zs.map Segment.ofSpan) := by
        unfold Segment.ofBody; rw [String.toList_append, hzs]; rfl
      refine ⟨⟨_, hab⟩, ?_⟩
      rw [evaluateBody_eq calls hab, evaluateBody_eq calls ha', evaluateBody_eq calls hb']
      exact hrun

/-- **Bodies compose.**  If two texts can be cut into segments, so can the one behind the other, and to
    evaluate it is to evaluate the first and, unless that is interrupted, the second in the same frame
    and on the state that the first one leaves. -/
theorem Interpreter.evaluate_append (i : Interpreter) {a b : String} {xs ys : List Segment}
    (ha : Segment.ofBody a = .ok xs) (hb : Segment.ofBody b = .ok ys) :
    (∃ zs, Segment.ofBody (a ++ b) = .ok zs) ∧
      ∀ (f : Frame) (s : RunState), i.calls.evaluate (a ++ b) f s =
        match i.calls.evaluate a f s with
        | (.ok _, u) => i.calls.evaluate b f u
        | (.error e, u) => (.error e, u) := by
  obtain ⟨config, registry, depth⟩ := i
  cases depth with
  | zero => exact ⟨(evaluateBody_append (.none registry) ha hb).1, fun f s => rfl⟩
  | succ n =>
    obtain ⟨hcut, hrun⟩ := evaluateBody_append (Calls.ofDepth registry n) ha hb
    have hcalls : (Interpreter.calls ⟨config, registry, n + 1⟩).evaluate =
        evaluateBody (Calls.ofDepth registry n) := rfl
    refine ⟨hcut, fun f s => ?_⟩
    rw [hcalls, hrun, Action.bind_apply]
    rcases evaluateBody (Calls.ofDepth registry n) a f s with ⟨r, u⟩
    cases r <;> rfl

/-- A text that ends in plain text with a quote and a closing bracket. -/
def openQuote : String := "it's [h: x = ']'] done ]'"

/-- A text that begins with plain text and ends inside of nothing. -/
def closingQuote : String := "' \x7d is [r: x + 1]"

theorem evaluate_append_openQuote :
    ∃ xs ys, Segment.ofBody openQuote = .ok xs ∧ Segment.ofBody closingQuote = .ok ys ∧
      (∃ zs, Segment.ofBody (openQuote ++ closingQuote) = .ok zs) ∧
      ∀ (f : Frame) (s : RunState),
        (Interpreter.standard .default).calls.evaluate (openQuote ++ closingQuote) f s =
          match (Interpreter.standard .default).calls.evaluate openQuote f s with
          | (.ok _, u) => (Interpreter.standard .default).calls.evaluate closingQuote f u
          | (.error e, u) => (.error e, u) := by
  have ha : Segment.ofBody openQuote = .ok [.text "it's ",
      .expression ⟨.hidden, none⟩ " x = ']'", .text " done ]'"] := by rfl
  have hb : Segment.ofBody closingQuote = .ok [.text "' \x7d is ",
      .expression ⟨.result, none⟩ " x + 1"] := by rfl
  exact ⟨_, _, ha, hb, Interpreter.evaluate_append (Interpreter.standard .default) ha hb⟩

end Tabletop
