import Tabletop.Proofs.Function.Alike
import Tabletop.Proofs.Values.Builtins
import Tabletop.Table.Interpreter

/-
  Trees in a run are arrays or objects.

  1. **Calls** — functions that agree are found under the same names, and their calls pass the same checks.

  2. **Depths** — watched calls do what calls do, by induction on the depth.

  3. **Bodies** — a body that starts with proper variables does the same whether it is watched or not
     (`values_proper_in_runs`).  The alarm and the arms for other shapes may do anything, and neither can be
     told from what a body does; so no run comes to them.
-/
namespace Tabletop

/-! ## Calls -/

namespace Registry

/-- **Calls of functions that agree** pass the same checks, and lead to a proper value if the functions
    do. -/
theorem call_agrees {fs gs : List Builtin} (h : List.Forall₂ (Alike Behaviour.Agrees) fs gs)
    {calls calls' : Calls} (hcalls : calls.Agrees calls') (name : String) {args : List Value}
    (hargs : ∀ v ∈ args, v.IsProper) :
    Action.Agrees Value.IsProper ((ofList fs).call calls name args)
      ((ofList gs).call calls' name args) := by
  unfold Registry.call
  -- the two registries have entries side by side
  have hfind := find?_ofList_alike h name
  generalize (ofList fs).find? name = b at hfind
  generalize (ofList gs).find? name = b' at hfind
  cases hfind with
  | none => exact .fail _
  | @some b b' hb =>
    have hrun : Action.Agrees Value.IsProper
        (b.function.run calls name args >>= fun v => pure v.coerced)
        (b'.function.run calls' name args >>= fun v => pure v.coerced) :=
      .bind (hb.2 calls calls' hcalls name args hargs) fun v hv => .pure hv.coerced
    dsimp only
    rw [hb.1]
    -- the arguments may be too few or too many; then the function may ask for trust
    split
    · split
      · exact .bind (.requireTrust _) fun _ _ => hrun
      · exact hrun
    · exact .fail _

end Registry

/-! ## The catalog -/

namespace Watch

open Registry Builtin

variable (w : Watch)

/-- Functions that keep to proper values, next to themselves. -/
theorem alike_of_keep {bs : List Builtin} (h : ∀ b ∈ bs, b.Keeps) :
    List.Forall₂ (Alike Behaviour.Agrees) bs bs :=
  List.forall₂_same.2 fun b hb => ⟨rfl, h b hb⟩

theorem alike_withArm {b : Builtin} (h : b.Keeps) : Alike Behaviour.Agrees b (w.withArm b) := by
  refine ⟨?_, w.withArm_agrees h⟩
  unfold withArm
  split <;> rfl

theorem alike_trees : List.Forall₂ (Alike Behaviour.Agrees) Builtin.trees w.trees := by
  have hkeep := trees_keep
  simp only [Builtin.trees, List.forall_mem_cons, List.not_mem_nil, false_imp_iff, implies_true,
    and_true] at hkeep
  obtain ⟨hget, hset, hlength, hfields, htype, hempty, hcontains, happend, hremove, hindent, hfromList,
    hfromStrProp, htoList, htoStrProp⟩ := hkeep
  refine .cons (w.alike_withArm hget) <| .cons ⟨rfl, w.jsonSetWithArm_agrees⟩ <|
    .cons (w.alike_withArm hlength) <| .cons (w.alike_withArm hfields) <| .cons ⟨rfl, htype⟩ <|
    .cons ⟨rfl, hempty⟩ <| .cons (w.alike_withArm hcontains) <| .cons ⟨rfl, happend⟩ <|
    .cons (w.alike_withArm hremove) <| .cons ⟨rfl, hindent⟩ <| .cons ⟨rfl, hfromList⟩ <|
    .cons ⟨rfl, hfromStrProp⟩ <| .cons ⟨rfl, htoList⟩ <| .cons ⟨rfl, htoStrProp⟩ .nil

/-- **Every built-in function** agrees with the one that stands in its place in a watched run. -/
theorem alike_builtins : List.Forall₂ (Alike Behaviour.Agrees) Builtin.all w.builtins := by
  have happend {fs gs fs' gs' : List Builtin} (h : List.Forall₂ (Alike Behaviour.Agrees) fs gs)
      (h' : List.Forall₂ (Alike Behaviour.Agrees) fs' gs') :
      List.Forall₂ (Alike Behaviour.Agrees) (fs ++ fs') (gs ++ gs') := List.rel_append h h'
  refine happend (happend (happend (happend (happend (happend (happend (happend (happend ?_ ?_)
    w.alike_trees) ?_) ?_) ?_) ?_) ?_) ?_) ?_
  · exact alike_of_keep propertyLists_keep
  · exact alike_of_keep stringLists_keep
  · exact alike_of_keep control_keep
  · exact alike_of_keep functions_keep
  · exact alike_of_keep links_keep
  · exact alike_of_keep tokens_keep
  · exact alike_of_keep chat_keep
  · exact alike_of_keep turnOrder_keep
  · exact alike_of_keep diceRolls_keep

/-! ## Depths -/

/-- **Watched calls** do what calls do, at every depth. -/
theorem calls_agree (depth : Nat) : (Calls.ofDepth .builtins depth).Agrees (w.calls depth) := by
  have hnames : Registry.contains (.ofList w.builtins) = Registry.builtins.contains :=
    contains_ofList_alike w.alike_builtins
  induction depth with
  | zero =>
    rw [Calls.ofDepth, Watch.calls, Calls.none, Calls.none, hnames]
    exact ⟨fun _ => .throw _, fun _ _ _ => .throw _, rfl⟩
  | succ n ih =>
    rw [Calls.ofDepth, Watch.calls, hnames]
    refine ⟨fun body => ?_, fun name args hargs => ?_, rfl⟩
    · exact .around (evaluateBody_agrees w ih body) w
    · exact .along (call_agrees w.alike_builtins ih name hargs) w hargs

end Watch

/-! ## Bodies -/

/-- **Trees in a run are arrays or objects.**  A body that starts with proper variables, a call that
    starts with proper arguments, too, and a macro with any arguments do the same whether they are watched
    or not, whatever the alarm and the arms for other shapes do.  The variables are proper behind a body,
    the answer of a call is, and so is what a macro hands back. -/
theorem values_proper_in_runs (w : Watch) (config : Config) (depth : Nat) :
    (∀ body f s, s.bindings.Proper →
      (w.calls depth).evaluate body f s = (Calls.ofDepth .builtins depth).evaluate body f s ∧
        ((Calls.ofDepth .builtins depth).evaluate body f s).2.bindings.Proper) ∧
    (∀ name args f s, (∀ v ∈ args, v.IsProper) → s.bindings.Proper →
      (w.calls depth).call name args f s = (Calls.ofDepth .builtins depth).call name args f s ∧
        OnlyAnswers Value.IsProper ((Calls.ofDepth .builtins depth).call name args f s).1) ∧
    ∀ body r t,
      runBody (w.calls depth).evaluate body r t =
          (⟨config, .builtins, depth⟩ : Interpreter).run body r t ∧
        OnlyAnswers (fun o => ∀ v ∈ o.returned, v.IsProper)
          ((⟨config, .builtins, depth⟩ : Interpreter).run body r t).1 := by
  have hcalls := w.calls_agree depth
  refine ⟨fun body f s hs => ?_, fun name args f s hargs hs => ?_, fun body r t => ?_⟩
  · obtain ⟨heq, hbehind, -⟩ := hcalls.evaluate body f s hs
    exact ⟨heq, hbehind⟩
  · obtain ⟨heq, -, hanswer⟩ := hcalls.call name hargs f s hs
    exact ⟨heq, hanswer⟩
  · exact runBody_agrees hcalls.evaluate body r t

/-- Ends a run with an alarm. -/
def Watch.loud : Watch where
  alarm _ s := (.abort (some "alarm"), s)
  arm _ _ := .ok (.text "alarm")

/-- A purse next to a number and a text. -/
def purse : RunState :=
  ⟨.ofCampaign (.new "Village") ⟨0⟩,
    [("coins", .tree (.object [])), ("gold", .number ⟨3, 0⟩), ("owner", .text "Pat")], ""⟩

/-- Puts gold into the purse, and hands it back. -/
def fillPurse : String :=
  "[h: coins = json.set(coins, 'gold', gold)][h: macro.return = coins][r: json.length(coins)]"

/-- A run that binds a tree, hands it back and passes it on, and a call with a tree. -/
theorem values_proper_in_runs_purse :
    purse.bindings.Proper ∧ (∀ v ∈ [Value.tree (.array [])], v.IsProper) ∧
    (((Calls.ofDepth .builtins 3).evaluate fillPurse default purse).2.output = "1" ∧
      (Variables.returned? ((Calls.ofDepth .builtins 3).evaluate fillPurse default purse).2.bindings).map
        Value.display = some "\x7b\"gold\":3\x7d") ∧
    ((Watch.loud.calls 3).evaluate fillPurse default purse =
        (Calls.ofDepth .builtins 3).evaluate fillPurse default purse ∧
      ((Calls.ofDepth .builtins 3).evaluate fillPurse default purse).2.bindings.Proper) ∧
    (Watch.loud.calls 3).call "json.type" [.tree (.array [])] default purse =
        (Calls.ofDepth .builtins 3).call "json.type" [.tree (.array [])] default purse ∧
      OnlyAnswers Value.IsProper
        ((Calls.ofDepth .builtins 3).call "json.type" [.tree (.array [])] default purse).1 :=
  ⟨by decide, by decide, by decide +kernel,
    (values_proper_in_runs .loud .default 3).1 fillPurse default purse (by decide),
    (values_proper_in_runs .loud .default 3).2.1 "json.type" [.tree (.array [])] default purse (by decide)
      (by decide)⟩

/-- With a number in the place of the purse the alarm is raised. -/
example :
    ((Watch.loud.calls 3).evaluate fillPurse default
      { purse with bindings := [("coins", .tree (.ofInt 3))] }).1 = .error (.abort (some "alarm")) := by
  decide +kernel

end Tabletop
