import Tabletop.Proofs.Authority.Builtins
import Tabletop.Proofs.Function.Names
import Tabletop.Table.Interpreter

/-
  Runs stay within the authority with which they start.

  1. **The registry** — a registration takes names away from earlier functions and changes nothing
     else about them, so what holds of every function of the catalog holds of every function that a
     name leads to.

  2. **The depth of calls** — the induction behind all runs: if calls of depth `n` are lawful, then
     bodies and functions are lawful that see them, and these are the calls of depth `n + 1`.

  3. **Runs** — `Interpreter.run_course`: whatever the body, however the run ends, the table at its end
     is reached from the table at its start by a course of the subject of the request, with the trust
     that its origin has at the start.
-/
namespace Tabletop

open Tabletop.Action (Lawful)

/-! ## The registry -/

namespace Registry

variable {φ : Type} {P : Registered φ → Prop}

/-- What holds of the functions that were registered, whatever names they are left with, holds of
    all entries. -/
theorem forall_mem_ofList (hnames : ∀ taken e, P e → P (withoutNames taken e))
    {fs : List (Registered φ)} (h : ∀ e ∈ fs, P e) : ∀ e ∈ (ofList fs).entries, P e := by
  intro e he
  rw [entries_ofList] at he
  obtain ⟨e₀, he₀, taken, rfl⟩ := exists_of_mem_remaining he
  exact hnames taken e₀ (h e₀ he₀)

/-- The function of a name is one of the entries. -/
theorem mem_of_find?_eq_some {r : Registry φ} {name : String} {e : Registered φ}
    (h : r.find? name = some e) : e ∈ r.entries := by
  obtain ⟨i, -, hi⟩ := Option.bind_eq_some_iff.1 h
  exact List.mem_of_getElem? hi

/-- A registry of lawful functions answers every call lawfully: it checks the trust that the function
    asks for. -/
theorem call_lawful {r : Registry Behaviour} (hr : ∀ b ∈ r.entries, Builtin.Lawful b) {calls : Calls}
    (h : calls.Lawful) (f : Frame) (name : String) (args : List Value) :
    Lawful f (r.call calls name args) := by
  unfold Registry.call
  split
  · exact .fail _
  · next b hb =>
    have hlaw := hr b (mem_of_find?_eq_some hb) calls h f name args
    split
    · split
      · exact .requireTrust_bind fun ht => .bind (hlaw fun _ => ht) fun v => .pure _
      · next hnot => exact .bind (hlaw fun ht => absurd ht hnot) fun v => .pure _
    · exact .fail _

theorem builtins_lawful : ∀ b ∈ Registry.builtins.entries, Builtin.Lawful b :=
  -- the obligation asks for the function and its trust, not for its names
  forall_mem_ofList (fun _ _ h => h) Builtin.all_lawful

end Registry

/-! ## The depth of calls -/

/-- **Calls of every depth are lawful.** -/
theorem Calls.ofDepth_lawful {r : Registry Behaviour} (hr : ∀ b ∈ r.entries, Builtin.Lawful b) :
    ∀ depth, (Calls.ofDepth r depth).Lawful
  | 0 => ⟨fun _ _ => .throw _, fun _ _ _ => .throw _⟩
  | n + 1 =>
    have ih := Calls.ofDepth_lawful hr n
    ⟨fun _ body => evaluateBody_lawful ih body, fun f name args => r.call_lawful hr ih f name args⟩

/-! ## Runs -/

/-- **A run stays within its authority.** -/
theorem Interpreter.run_course {i : Interpreter} (hr : ∀ b ∈ i.registry.entries, Builtin.Lawful b)
    (body : String) (r : RunRequest) (t : Table) :
    Table.Course ⟨r.subject, t.campaign.trusts r.origin⟩ t (i.run body r t).2 :=
  runBody_course (Calls.ofDepth_lawful hr i.depth).evaluate body r t

end Tabletop
