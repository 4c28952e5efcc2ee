import Mathlib.Data.List.Induction
import Mathlib.Logic.Function.Iterate
import Tabletop.Proofs.Calls.Outcome
import Tabletop.Macro.Engine

/-
  Redefined functions, and what `oldFunction` calls in them.

  1. **Histories** — a function is put in the place of the one that its name has, or all functions are
     taken out (`Change`).  `made` reads from the history the definitions of a name since all functions
     were last taken out, newest first.  The table holds exactly these (`get?_after`), whatever was
     handed in as the definitions before.

  2. **In the frame of a function** — evaluation looks at calls in its own frame only
     (`evaluateBody_congr`).  Since the frame holds on to the function, `oldFunction` means one and the
     same function while the body runs, whatever the body does to the table (`evaluateBody_within`).

  3. **Descent** — a call of `oldFunction` runs a body in a frame that holds one definition less
     (`Frame.older?`).  So a chain of such calls goes down the definitions that were there when the
     outermost function was called, and below the last one there is only the built-in function.
-/
namespace Tabletop

namespace UserFunction

/-- A function holds on to the definitions that it was made of. -/
theorem named_ofChain? (l : List (String × Definition)) : ((ofChain? l).map named).getD [] = l := by
  cases l with
  | nil => rfl
  | cons e l => rfl

/-- The function before it is made of all but the newest one. -/
theorem older?_ofChain? (l : List (String × Definition)) :
    (ofChain? l).bind older? = ofChain? l.tail := by
  cases l with
  | nil => rfl
  | cons e l => rfl

/-- Going back some definitions. -/
theorem iterate_older?_ofChain? (k : Nat) (l : List (String × Definition)) :
    (fun o : Option UserFunction => o.bind older?)^[k] (ofChain? l) = ofChain? (l.drop k) := by
  induction k generalizing l with
  | zero => rfl
  | succ k ih =>
    rw [Function.iterate_succ_apply, older?_ofChain?, ih, List.drop_tail]

/-- There is no function without a definition. -/
theorem ofChain?_eq_none_iff (l : List (String × Definition)) : ofChain? l = none ↔ l = [] := by
  cases l with
  | nil => exact iff_of_true rfl rfl
  | cons e l => exact iff_of_false (fun h => Option.some_ne_none _ h) (List.cons_ne_nil e l)

end UserFunction

/-! ## Histories -/

namespace FunctionTable

/-- What happens to a table of functions. -/
inductive Change where
  | define (f : UserFunction)
  | clear

namespace Change

/-- What a change does to the table. -/
def apply (t : FunctionTable) : Change → FunctionTable
  | .define f => t.submit f
  | .clear => t.clear

/-- A function is defined, and the table is not cleared. -/
def isDefine : Change → Bool
  | .define _ => true
  | .clear => false

/-- The definition that a name is given. -/
def definition? (name : String) : Change → Option Definition
  | .define f => if f.name = name then some f.definition else none
  | .clear => none

end Change

/-- The table after a history. -/
def after (history : List Change) : FunctionTable := history.foldl Change.apply empty

/-- The definitions that a name was given since all functions were last taken out, newest first. -/
def made (name : String) (history : List Change) : List Definition :=
  (history.reverse.takeWhile Change.isDefine).filterMap (Change.definition? name)

variable {history : List Change} {name : String}

/-- The last change is made last. -/
theorem after_concat (c : Change) : after (history ++ [c]) = c.apply (after history) :=
  List.foldl_append

/-- No definition is left when all are taken out. -/
theorem made_clear : made name (history ++ [.clear]) = [] := by
  unfold made
  rw [List.reverse_append, List.reverse_singleton, List.singleton_append,
    List.takeWhile_cons_of_neg Bool.false_ne_true]
  rfl

/-- A definition goes in front of the older ones of its name. -/
theorem made_define (f : UserFunction) : made name (history ++ [.define f]) =
    if f.name = name then f.definition :: made name history else made name history := by
  unfold made
  rw [List.reverse_append, List.reverse_singleton, List.singleton_append,
    List.takeWhile_cons_of_pos rfl, List.filterMap_cons]
  by_cases h : f.name = name
  · have hdefinition : Change.definition? name (.define f) = some f.definition := if_pos h
    rw [hdefinition, if_pos h]
  · have hdefinition : Change.definition? name (.define f) = none := if_neg h
    rw [hdefinition, if_neg h]

/-- A function that is defined holds on to the one that was there under its name. -/
theorem get?_submit (t : FunctionTable) (f : UserFunction) : (t.submit f).get? name =
    if f.name = name then
      some ⟨f.name, f.definition, ((t.get? f.name).map UserFunction.named).getD []⟩
    else t.get? name :=
  SortedMap.get?_insert t.functions f.name name _

/-- The function of a name is made of the definitions that the history gives it. -/
theorem get?_after (history : List Change) (name : String) :
    (after history).get? name =
      UserFunction.ofChain? ((made name history).map fun d => (name, d)) := by
  induction history using List.reverseRecOn with
  | nil => rfl
  | append_singleton history c ih =>
    rw [after_concat]
    -- the last change decides: a clearing, a definition of this name, or one of another
    cases c with
    | clear =>
      rw [made_clear]
      rfl
    | define f =>
      show ((after history).submit f).get? name = _
      rw [get?_submit, made_define]
      by_cases hname : f.name = name
      · rw [if_pos hname, if_pos hname, hname, ih, UserFunction.named_ofChain?]
        rfl
      · rw [if_neg hname, if_neg hname, ih]

/-- There is a function under a name if it was given a definition. -/
theorem get?_after_eq_none_iff : (after history).get? name = none ↔ made name history = [] := by
  rw [get?_after, UserFunction.ofChain?_eq_none_iff, List.map_eq_nil_iff]

/-- Going back from the function of a name leads through its definitions. -/
theorem iterate_older?_after (k : Nat) :
    (fun o : Option UserFunction => o.bind UserFunction.older?)^[k] ((after history).get? name) =
      UserFunction.ofChain? (((made name history).drop k).map fun d => (name, d)) := by
  rw [get?_after, UserFunction.iterate_older?_ofChain?, List.map_drop]

end FunctionTable

/-! ## Evaluation in one frame -/

namespace Action

variable {α β : Type} {f : Frame}

/-- Two actions that do the same in this frame, and so does what follows. -/
theorem bind_congr {act act' : Action α} {k k' : α → Action β} (h : act f = act' f)
    (hk : ∀ a, k a f = k' a f) : (act >>= k) f = (act' >>= k') f := by
  show (act f >>= fun a => k a f) = (act' f >>= fun a => k' a f)
  rw [h, funext hk]

end Action

section Expressions

variable {call call' : String → List Value → Action Value} {f : Frame}

mutual

/-- The value of an expression depends on the calls in the frame of the expression only. -/
theorem evaluateExpr_congr (h : ∀ name args, call name args f = call' name args f) :
    ∀ x : Expr, evaluateExpr call x f = evaluateExpr call' x f
  | .literal _ => rfl
  | .dice _ => rfl
  | .variable _ => rfl
  | .call name args => Action.bind_congr (evaluateArguments_congr h args) fun vs => h name vs
  | .assign _ x => Action.bind_congr (evaluateExpr_congr h x) fun _ => rfl
  | .unary _ x => Action.bind_congr (evaluateExpr_congr h x) fun _ => rfl
  | .binary op l r => by
    have hl := evaluateExpr_congr h l
    have hr := evaluateExpr_congr h r
    -- `and` and `or` may leave out their right side; the others evaluate both
    cases op with
    | and =>
      refine Action.bind_congr hl fun v => ?_
      cases v.isTrue with
      | true => exact Action.bind_congr hr fun _ => rfl
      | false => rfl
    | or =>
      refine Action.bind_congr hl fun v => ?_
      cases v.isTrue with
      | true => rfl
      | false => exact Action.bind_congr hr fun _ => rfl
    | _ => exact Action.bind_congr hl fun _ => Action.bind_congr hr fun _ => rfl

theorem evaluateArguments_congr (h : ∀ name args, call name args f = call' name args f) :
    ∀ xs : List Expr, evaluateArguments call xs f = evaluateArguments call' xs f
  | [] => rfl
  | x :: xs => Action.bind_congr (evaluateExpr_congr h x) fun _ =>
      Action.bind_congr (evaluateArguments_congr h xs) fun _ => rfl

end

/-- Statements, one after the other. -/
theorem evaluateStatements_congr (h : ∀ name args, call name args f = call' name args f) (v : Value)
    (xs : List Expr) : evaluateStatements call v xs f = evaluateStatements call' v xs f := by
  induction xs generalizing v with
  | nil => rfl
  | cons x xs ih => exact Action.bind_congr (evaluateExpr_congr h x) fun v => ih v

theorem evaluateSource_congr (h : ∀ name args, call name args f = call' name args f)
    (source : String) : evaluateSource call source f = evaluateSource call' source f := by
  unfold evaluateSource
  cases Expr.parse source with
  | error e => rfl
  | ok xs => exact evaluateStatements_congr h .empty xs

end Expressions

section Bodies

variable {calls calls' : Calls} {f : Frame}

/-- Two ways of calling that run the same bodies, and call the same built-in functions in a frame. -/
structure Calls.AgreeIn (f : Frame) (calls calls' : Calls) : Prop where
  evaluate : calls.evaluate = calls'.evaluate
  builtin : ∀ name args, calls.builtin name args f = calls'.builtin name args f

/-- Calls that agree in a frame agree about calls by name. -/
theorem Calls.AgreeIn.call (h : Calls.AgreeIn f calls calls') (name : String) (args : List Value) :
    calls.call name args f = calls'.call name args f := by
  refine Action.bind_congr rfl fun s => ?_
  cases s.table.functions.get? name with
  | some g =>
    show invoke calls.evaluate g args f = invoke calls'.evaluate g args f
    rw [h.evaluate]
  | none => exact h.builtin name args

/-- A segment runs in the frame of its body. -/
theorem runSegment_congr (h : Calls.AgreeIn f calls calls') (x : Segment) :
    runSegment calls x f = runSegment calls' x f := by
  cases x with
  | text s => rfl
  | expression options source =>
    refine Action.bind_congr (evaluateSource_congr h.call source) fun v => ?_
    cases options.macroName with
    | some name =>
      refine Action.bind_congr ?_ fun _ => rfl
      rw [h.evaluate]
    | none => rfl

/-- And so do all segments. -/
theorem runSegments_congr (h : Calls.AgreeIn f calls calls') (xs : List Segment) :
    runSegments calls xs f = runSegments calls' xs f := by
  induction xs with
  | nil => rfl
  | cons x xs ih => exact Action.bind_congr (runSegment_congr h x) fun _ => ih

/-- What a body does depends on the calls in the frame of the body only. -/
theorem evaluateBody_congr (h : Calls.AgreeIn f calls calls') (body : String) :
    evaluateBody calls body f = evaluateBody calls' body f := by
  unfold evaluateBody
  cases Segment.ofBody body with
  | error bracket => rfl
  | ok segments => exact runSegments_congr h segments

end Bodies

/-- A call of a function runs its body in the frame of the function and nowhere else. -/
theorem invoke_congr {evaluate evaluate' : String → Action Unit} {g : UserFunction} {f : Frame}
    (h : evaluate g.definition.body (g.frame f) = evaluate' g.definition.body (g.frame f))
    (args : List Value) : invoke evaluate g args f = invoke evaluate' g args f := by
  funext s
  have huntil (u : RunState) : Action.untilAbort (evaluate g.definition.body) (g.frame f) u =
      Action.untilAbort (evaluate' g.definition.body) (g.frame f) u := by
    unfold Action.untilAbort
    rw [h]
  rw [invoke_apply, invoke_apply, huntil]

/-! ## The function before -/

/-- The calls in which the built-in function `oldFunction` is the function before `g`, with the calls
    that are left to it. -/
def Calls.within (calls inner : Calls) (g : UserFunction) : Calls :=
  { calls with
    builtin := fun name args =>
      if name = "oldFunction" then Builtin.callOlder inner g args >>= fun v => pure v.coerced
      else calls.builtin name args }

section OldFunction

variable {r : Registry Behaviour} {f : Frame} {g : UserFunction}

/-- `oldFunction` is a built-in function. -/
theorem Registry.find?_oldFunction :
    Registry.builtins.find? "oldFunction" = some Builtin.oldFunction :=
  (find?_builtins _).trans rfl

variable (hr : r.find? "oldFunction" = some Builtin.oldFunction)
include hr

/-- In the frame of a function, `oldFunction` is the function before it. -/
theorem Registry.call_oldFunction (hf : f.function = some g) (calls : Calls) (args : List Value) :
    r.call calls "oldFunction" args f =
      (Builtin.callOlder calls g args >>= fun v => pure v.coerced) f := by
  have harity : Builtin.oldFunction.descriptor.arity.accepts args.length = true := rfl
  rw [Registry.call_of_untrusted hr harity rfl]
  refine Action.bind_congr (funext fun s => ?_) fun _ => rfl
  dsimp only [Builtin.oldFunction, Builtin.acting, Behaviour.run]
  simp [hf]

/-- Where nobody has defined `oldFunction`, a call of it is a call of the function before. -/
theorem Calls.call_oldFunction (hf : f.function = some g) (n : Nat) (args : List Value) {s : RunState}
    (hs : s.table.functions.get? "oldFunction" = .none) :
    (Calls.ofDepth r (n + 1)).call "oldFunction" args f s =
      (Builtin.callOlder (Calls.ofDepth r n) g args >>= fun v => pure v.coerced) f s := by
  rw [← Registry.call_oldFunction hr hf, Calls.call_apply, hs]
  rfl

/-- Before the first definition of a name there is its built-in function. -/
theorem Calls.call_oldFunction_of_first (hf : f.function = some g) (hfirst : g.older? = .none) (n : Nat)
    (args : List Value) {s : RunState} (hs : s.table.functions.get? "oldFunction" = .none) :
    (Calls.ofDepth r (n + 2)).call "oldFunction" args f s =
      (r.call (Calls.ofDepth r n) g.name args >>= fun v => pure v.coerced) f s := by
  rw [Calls.call_oldFunction hr hf (n + 1) args hs]
  unfold Builtin.callOlder
  rw [hfirst]
  rfl

/-- While a body runs in the frame of a function, `oldFunction` is the function before that one. -/
theorem agreeIn_within (hf : f.function = some g) (n : Nat) :
    Calls.AgreeIn f (Calls.ofDepth r (n + 1))
      ((Calls.ofDepth r (n + 1)).within (Calls.ofDepth r n) g) where
  evaluate := rfl
  builtin name args := by
    show _ = (if name = "oldFunction" then _ else _ : Action Value) f
    by_cases hname : name = "oldFunction"
    · rw [if_pos hname, hname]
      exact Registry.call_oldFunction hr hf (Calls.ofDepth r n) args
    · rw [if_neg hname]

/-- A whole body of a function is run with calls of the function before it. -/
theorem evaluateBody_within (hf : f.function = some g) (n : Nat) (body : String) :
    evaluateBody (Calls.ofDepth r (n + 1)) body f =
      evaluateBody ((Calls.ofDepth r (n + 1)).within (Calls.ofDepth r n) g) body f :=
  evaluateBody_congr (agreeIn_within hr hf n) body

end OldFunction

/-! ## Descent -/

/-- The frame in which `oldFunction` runs a body, if it runs one: that of the definition before. -/
def Frame.older? (f : Frame) : Option Frame :=
  (f.function.bind UserFunction.older?).map fun older => older.frame f

section Descent

variable {f f' : Frame} {l : List (String × Definition)}

/-- The frame before is a frame of the same call. -/
theorem Frame.older?_eq {g : UserFunction} (hf : f.function = some g) :
    f.older? = g.older?.map fun older => older.frame f := by
  unfold Frame.older?
  rw [hf, Option.bind_some]

/-- The frame before holds one definition less. -/
theorem Frame.function_older? (hf : f.function = UserFunction.ofChain? l) (h : f.older? = some f') :
    f'.function = UserFunction.ofChain? l.tail ∧ 1 < l.length := by
  unfold Frame.older? at h
  rw [hf, UserFunction.older?_ofChain?] at h
  obtain ⟨older, holder, rfl⟩ := Option.map_eq_some_iff.1 h
  refine ⟨holder.symm, ?_⟩
  have htail : l.tail ≠ [] := by
    intro hnil
    rw [hnil] at holder
    cases holder
  have hpos : 0 < l.tail.length := List.length_pos_of_ne_nil htail
  rw [List.length_tail] at hpos
  omega

/-- There is no frame before that of the oldest definition. -/
theorem Frame.older?_eq_none_iff (hf : f.function = UserFunction.ofChain? l) :
    f.older? = none ↔ l.length ≤ 1 := by
  unfold Frame.older?
  rw [hf, UserFunction.older?_ofChain?, Option.map_eq_none_iff, UserFunction.ofChain?_eq_none_iff,
    ← List.length_eq_zero_iff, List.length_tail]
  omega

/-- **A chain of calls of `oldFunction` goes down one by one**: its frames hold what is left of the
    definitions that the first one holds. -/
theorem Frame.function_of_isChain {frames : List Frame} (hf : f.function = UserFunction.ofChain? l)
    (hl : l ≠ []) (h : List.IsChain (fun a b => a.older? = some b) (f :: frames)) :
    frames.length < l.length ∧ ∀ k (hk : k < (f :: frames).length),
      (f :: frames)[k].function = UserFunction.ofChain? (l.drop k) := by
  induction frames generalizing f l with
  | nil =>
    refine ⟨List.length_pos_of_ne_nil hl, fun k hk => ?_⟩
    obtain rfl : k = 0 := Nat.lt_one_iff.1 hk
    exact hf
  | cons f' frames ih =>
    obtain ⟨hstep, hrest⟩ := List.isChain_cons_cons.1 h
    -- one step: the next frame has the chain without its newest definition
    obtain ⟨hfunction, hlength⟩ := Frame.function_older? hf hstep
    have htail : l.tail.length = l.length - 1 := List.length_tail
    have hne : l.tail ≠ [] := by
      apply List.ne_nil_of_length_pos
      omega
    obtain ⟨hlt, hframes⟩ := ih hfunction hne hrest
    refine ⟨?_, fun k hk => ?_⟩
    · rw [List.length_cons]
      omega
    · -- the first frame is `f` itself, the others are those of the shorter chain
      cases k with
      | zero => exact hf
      | succ k =>
        have hk' : k < (f' :: frames).length := Nat.lt_of_succ_lt_succ hk
        rw [List.getElem_cons_succ, hframes k hk', List.drop_tail]

end Descent

/-! ## All of it -/

section Main

variable {r : Registry Behaviour}

/-- What `oldFunction` means in a frame `f` that holds on to the function `g`, at a table at which nobody
    has defined `oldFunction`. -/
structure OldFunctionIn (r : Registry Behaviour) (f : Frame) (g : UserFunction) : Prop where
  /-- If there was a definition before, the frame before is that of this definition. -/
  frame : ∀ older, g.older? = some older → f.older? = some (older.frame f)
  /-- Then `oldFunction` calls this definition, whatever the table says of the name by now. -/
  calls : ∀ older, g.older? = some older → ∀ n args s, s.table.functions.get? "oldFunction" = none →
    (Calls.ofDepth r (n + 1)).call "oldFunction" args f s =
      (invoke (Calls.ofDepth r n).evaluate older args >>= fun v => pure v.coerced) f s
  /-- The body of this definition runs in the frame before, and the value is made of what it leaves. -/
  runs : ∀ older, g.older? = some older → ∀ (evaluate : String → Action Unit) args s u,
    Action.untilAbort (evaluate older.definition.body) (older.frame f) (older.start args s) = (.ok (), u) →
      invoke evaluate older args f s = (.ok (older.valueOf u),
        ⟨u.table, (older.variablesAfter s u).receive (Variables.returned? u.bindings), s.output⟩)
  /-- An error of the body is the error of the call. -/
  fails : ∀ older, g.older? = some older → ∀ (evaluate : String → Action Unit) args s i u,
    Action.untilAbort (evaluate older.definition.body) (older.frame f) (older.start args s) = (.error i, u) →
      invoke evaluate older args f s = (.error i, ⟨u.table, older.variablesAfter s u, s.output⟩)
  /-- Nothing but this body in this frame is run. -/
  runsOnly : ∀ older, g.older? = some older → ∀ evaluate evaluate' : String → Action Unit,
    evaluate older.definition.body (older.frame f) = evaluate' older.definition.body (older.frame f) →
      ∀ args, invoke evaluate older args f = invoke evaluate' older args f
  /-- If there was no definition before, there is no frame before. -/
  frameOfFirst : g.older? = none → f.older? = none
  /-- Then the built-in function of the name is called. -/
  callsBuiltin : g.older? = none → ∀ n args s, s.table.functions.get? "oldFunction" = none →
    (Calls.ofDepth r (n + 2)).call "oldFunction" args f s =
      (r.call (Calls.ofDepth r n) g.name args >>= fun v => pure v.coerced) f s
  /-- Without a built-in function of the name, this is an error. -/
  unknown : g.older? = none → r.find? g.name = none → ∀ n args s,
    s.table.functions.get? "oldFunction" = none →
      (Calls.ofDepth r (n + 2)).call "oldFunction" args f s =
        (.error (.error (.unknownFunction g.name)), s)
  /-- All of this holds while a whole body runs, whatever becomes of the table. -/
  within : ∀ n body, evaluateBody (Calls.ofDepth r (n + 1)) body f =
    evaluateBody ((Calls.ofDepth r (n + 1)).within (Calls.ofDepth r n) g) body f

/-- What `oldFunction` does is read off the function of the frame, which a call does not change. -/
theorem oldFunctionIn_of_function (hr : r.find? "oldFunction" = some Builtin.oldFunction) {f : Frame}
    {g : UserFunction} (hf : f.function = some g) : OldFunctionIn r f g := by
  refine {
    frame := fun older holder => ?_
    calls := fun older holder n args s hs => ?_
    runs := fun older _ evaluate args s u hrun => ?_
    fails := fun older _ evaluate args s i u hrun => ?_
    runsOnly := fun older _ _ _ h args => invoke_congr h args
    frameOfFirst := fun hfirst => ?_
    callsBuiltin := fun hfirst n args s hs => Calls.call_oldFunction_of_first hr hf hfirst n args hs
    unknown := fun hfirst hunknown n args s hs => ?_
    within := evaluateBody_within hr hf }
  · rw [Frame.older?_eq hf, holder, Option.map_some]
  · rw [Calls.call_oldFunction hr hf n args hs]
    unfold Builtin.callOlder
    rw [holder]
  · rw [invoke_apply, hrun]
  · rw [invoke_apply, hrun]
  · rw [Frame.older?_eq hf, hfirst, Option.map_none]
  · rw [Calls.call_oldFunction_of_first hr hf hfirst n args hs, Registry.call_of_find?_eq_none hunknown]
    rfl

/-- **Redefinition.**  What a history of a table makes of a name, and what `oldFunction` means in the
    bodies of the functions that it leads to. -/
structure Redefines (r : Registry Behaviour) (history : List FunctionTable.Change) (name : String) :
    Prop where
  /-- There is no function if the name was given no definition since all were last taken out. -/
  get?_eq_none_iff :
    (FunctionTable.after history).get? name = none ↔ FunctionTable.made name history = []
  /-- Else the definitions since then follow each other, newest first. -/
  iterate_older? : ∀ k, (fun o : Option UserFunction => o.bind UserFunction.older?)^[k]
      ((FunctionTable.after history).get? name) =
    UserFunction.ofChain? (((FunctionTable.made name history).drop k).map fun d => (name, d))
  /-- A call of the name runs the newest one in a frame that holds on to it. -/
  call : ∀ g, (FunctionTable.after history).get? name = some g →
    ∀ calls args caller s, s.table.functions = FunctionTable.after history →
      Calls.call calls name args caller s = invoke calls.evaluate g args caller s ∧
        (g.frame caller).function = some g
  oldFunction : ∀ (f : Frame) (g : UserFunction), f.function = some g → OldFunctionIn r f g
  /-- A chain of frames in which `oldFunction` was called is shorter than the list of definitions. -/
  length_lt : ∀ (f : Frame) (g : UserFunction) (frames : List Frame),
    (FunctionTable.after history).get? name = some g → f.function = some g →
    List.IsChain (fun a b => a.older? = some b) (f :: frames) →
      frames.length < (FunctionTable.made name history).length
  /-- It goes down these definitions one by one. -/
  descends : ∀ (f : Frame) (g : UserFunction) (frames : List Frame),
    (FunctionTable.after history).get? name = some g → f.function = some g →
    List.IsChain (fun a b => a.older? = some b) (f :: frames) → ∀ k (hk : k < (f :: frames).length),
      (f :: frames)[k].function = UserFunction.ofChain?
        (((FunctionTable.made name history).drop k).map fun d => (name, d))
  /-- It cannot go on exactly where the oldest of them runs. -/
  ends : ∀ (f : Frame) (g : UserFunction) (frames : List Frame),
    (FunctionTable.after history).get? name = some g → f.function = some g →
    List.IsChain (fun a b => a.older? = some b) (f :: frames) → ∀ k (hk : k < (f :: frames).length),
      ((f :: frames)[k].older? = none ↔ k + 1 = (FunctionTable.made name history).length)

/-- The definitions that a frame of the newest one holds. -/
theorem function_of_after {history : List FunctionTable.Change} {name : String} {f : Frame}
    {g : UserFunction} (hg : (FunctionTable.after history).get? name = some g)
    (hf : f.function = some g) :
    f.function = UserFunction.ofChain? ((FunctionTable.made name history).map fun d => (name, d)) ∧
      (FunctionTable.made name history).map (fun d => (name, d)) ≠ [] := by
  have hfunction : f.function = UserFunction.ofChain?
      ((FunctionTable.made name history).map fun d => (name, d)) := by
    rw [← FunctionTable.get?_after, hg, hf]
  refine ⟨hfunction, fun hnil => ?_⟩
  rw [hf, hnil] at hfunction
  cases hfunction

/-- **Chains of `oldFunction` descend**, after any history of a table. -/
theorem oldFunction_descends (hr : r.find? "oldFunction" = some Builtin.oldFunction)
    (history : List FunctionTable.Change) (name : String) : Redefines r history name := by
  refine {
    get?_eq_none_iff := FunctionTable.get?_after_eq_none_iff
    iterate_older? := FunctionTable.iterate_older?_after
    call := fun g hg calls args caller s hs => ⟨?_, rfl⟩
    oldFunction := fun f g hf => oldFunctionIn_of_function hr hf
    length_lt := fun f g frames hg hf hchain => ?_
    descends := fun f g frames hg hf hchain k hk => ?_
    ends := fun f g frames hg hf hchain k hk => ?_ }
  · rw [Calls.call_apply, hs, hg]
  · obtain ⟨hfunction, hne⟩ := function_of_after hg hf
    simpa using (Frame.function_of_isChain hfunction hne hchain).1
  · obtain ⟨hfunction, hne⟩ := function_of_after hg hf
    exact List.map_drop ▸ (Frame.function_of_isChain hfunction hne hchain).2 k hk
  · -- the frame has no older one if one definition is left in its chain
    obtain ⟨hfunction, hne⟩ := function_of_after hg hf
    obtain ⟨hlt, hframes⟩ := Frame.function_of_isChain hfunction hne hchain
    have hk' : k < frames.length + 1 := hk
    rw [List.length_map] at hlt
    rw [Frame.older?_eq_none_iff (hframes k hk), List.length_drop, List.length_map]
    omega

/-- What the players get for a level, and what they get later on. -/
def bonusAtFirst : Definition := ⟨"[r: arg(0) + 1]", false, true, "chat"⟩

/-- A definition that goes back to the one before it. -/
def bonusLater : Definition := ⟨"[r: oldFunction(arg(0)) * 10]", false, true, "chat"⟩

/-- The bonus is forgotten and made anew; a made-up past is handed in with it. -/
def renewals : List FunctionTable.Change :=
  [.define ⟨"bonus", bonusLater, []⟩, .clear,
    .define ⟨"bonus", bonusAtFirst, [("stray", bonusLater)]⟩,
    .define ⟨"malus", bonusAtFirst, []⟩, .define ⟨"bonus", bonusLater, []⟩]

/-- The bonus, and the frames in which its two bodies run. -/
def bonus : UserFunction := ⟨"bonus", bonusLater, [("bonus", bonusAtFirst)]⟩

/-- The frame in which the newest definition runs. -/
def bonusFrame : Frame := bonus.frame ((RunRequest.ofText (.unattached true) "Gina" none).frame true)

/-- The frame in which the first one runs. -/
def firstBonusFrame : Frame := UserFunction.frame ⟨"bonus", bonusAtFirst, []⟩ bonusFrame

/-- A state in which the bonus is not defined any more. -/
def forgetful : RunState := ⟨Table.ofCampaign (Campaign.new "Stage") ⟨0⟩, [], ""⟩

/-- The later bonus calls the first one though both are forgotten, and the first one calls nothing. -/
theorem oldFunction_descends_bonus :
    Registry.builtins.find? "oldFunction" = some Builtin.oldFunction ∧
      (FunctionTable.after renewals).get? "bonus" = some bonus ∧
      bonusFrame.older? = some firstBonusFrame ∧ firstBonusFrame.older? = none ∧
      (Calls.ofDepth .builtins 3).call "oldFunction" [.text "2"] bonusFrame forgetful =
        (invoke (Calls.ofDepth .builtins 2).evaluate ⟨"bonus", bonusAtFirst, []⟩ [.text "2"] >>=
          fun v => pure v.coerced) bonusFrame forgetful ∧
      (Calls.ofDepth .builtins 2).call "oldFunction" [] firstBonusFrame forgetful =
        (.error (.error (.unknownFunction "bonus")), forgetful) := by
  have hdescends := oldFunction_descends Registry.find?_oldFunction renewals "bonus"
  have hbonus : (FunctionTable.after renewals).get? "bonus" = some bonus := by
    rw [← Function.iterate_zero_apply (fun o : Option UserFunction => o.bind UserFunction.older?)
      ((FunctionTable.after renewals).get? "bonus"), hdescends.iterate_older? 0]
    rfl
  -- the frame of the newest definition, and that of the first
  have hlater := hdescends.oldFunction bonusFrame bonus rfl
  have hfirst := hdescends.oldFunction firstBonusFrame ⟨"bonus", bonusAtFirst, []⟩ rfl
  have hstep := hlater.frame _ rfl
  have hunknown : Registry.builtins.find? "bonus" = none := (Registry.find?_builtins _).trans rfl
  have hlast := (hdescends.ends bonusFrame bonus [firstBonusFrame] hbonus rfl
    (.cons_cons hstep (.singleton _)) 1 (by decide)).2 (by rfl)
  exact ⟨Registry.find?_oldFunction, hbonus, hstep, hlast, hlater.calls _ rfl 2 _ forgetful rfl,
    hfirst.unknown rfl hunknown 0 [] forgetful rfl⟩

end Main

end Tabletop
