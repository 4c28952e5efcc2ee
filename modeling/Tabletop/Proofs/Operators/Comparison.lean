import Tabletop.Macro.Evaluate
import Tabletop.Proofs.Authority.Lawful
import Tabletop.Proofs.Decimal.Canonical
import Tabletop.Proofs.Decimal.Literal
import Tabletop.Proofs.Json.RoundTrip

/-
  The comparisons of the language are coherent.

  Each comparison decides anew whether it compares numbers or texts: numbers if both operands are a
  number or write one, texts otherwise.

  1. **Numbers show** — a value counts as a number exactly if the text in which it is shown writes one
     (`isSome_ofText?_display`).  A number is shown in a form that is read back, a tree starts with a
     bracket.  So a value that counts as a number and one that does not are never shown alike.

  2. **The crux (`compare_eq_iff`)** — two values are equal exactly if they are shown alike once they are
     coerced.  This is equality of one text for each value, whichever way they were compared; so `==` is
     an equivalence, also between numbers, texts that write numbers, other texts, and trees.

  3. **One order** — the six comparisons read the same `Ordering` (`apply_comparison`), and swapping the
     operands swaps it (`compare_swap`).  All other laws follow from these two (`comparisons_agree`).
-/
namespace Tabletop

theorem Decimal.compare_swap (m n : Decimal) : (m.compare n).swap = n.compare m := by
  rw [compare, compare, Int.compare_swap, Nat.max_comm]

namespace Value

/-! ## Numbers show -/

/-- The values of the language: numbers within the bounds, texts, arrays and objects. -/
def Fits : Value → Prop
  | .number d => d.Fits
  | .text _ => True
  | .tree j => j.isTree = true

instance : DecidablePred Fits
  | .number d => inferInstanceAs (Decidable d.Fits)
  | .text _ => inferInstanceAs (Decidable True)
  | .tree j => inferInstanceAs (Decidable (j.isTree = true))

/-- The text of an array or an object writes no number. -/
theorem ofText?_render {j : Json} (h : j.isTree = true) : Decimal.ofText? j.render = none := by
  obtain ⟨c, cs, _, hchars, -, hbracket⟩ := Json.brackets_renderChars h
  have hc : Decimal.IsForeign c := by rcases hbracket with ⟨rfl, -⟩ | ⟨rfl, -⟩ <;> decide
  refine Decimal.ofText?_eq_none hc ?_
  rw [Json.render, String.toList_ofList, hchars]
  exact List.mem_cons_self

/-- **A value counts as a number exactly if its text writes one.** -/
theorem isSome_ofText?_display {v : Value} (h : v.Fits) :
    (Decimal.ofText? v.display).isSome = v.asNumber?.isSome := by
  cases v with
  | number d =>
    rw [display, Decimal.display, Decimal.ofText?_render (Decimal.Fits.normalize h)]
    rfl
  | text s => rfl
  | tree j =>
    rw [display, ofText?_render h]
    rfl

theorem Fits.of_asNumber? {v : Value} (h : v.Fits) {d : Decimal} (hd : v.asNumber? = some d) :
    d.Fits := by
  cases v with
  | number n => exact Option.some.inj hd ▸ h
  | text s => exact Decimal.ofText?_fits hd
  | tree j => cases hd

/-! ## Equality -/

/-- A value that counts as a number is coerced to it. -/
theorem display_coerced_of_number {v : Value} {d : Decimal} (h : v.asNumber? = some d) :
    v.coerced.display = d.display := by
  cases v with
  | number n => exact congrArg Decimal.display (Option.some.inj h)
  | text s => rw [coerced, coerce_of_ofText? h, display]
  | tree j => cases h

/-- Coercing leaves all other values as they are. -/
theorem display_coerced_of_none {v : Value} (h : v.asNumber? = none) : v.coerced.display = v.display := by
  cases v with
  | number n => cases h
  | text s =>
    have hs : Decimal.ofText? s = none := h
    rw [coerced, coerce, hs]
  | tree j => rfl

/-- **A number and a value that counts as none are shown differently**, before and after coercion. -/
theorem display_ne_display {v w : Value} (hv : v.Fits) (hw : w.Fits) {d : Decimal}
    (hd : v.asNumber? = some d) (hnone : w.asNumber? = none) :
    v.display ≠ w.display ∧ d.display ≠ w.display := by
  have hother : (Decimal.ofText? w.display).isSome = false := by
    rw [isSome_ofText?_display hw, hnone]
    rfl
  have hnumber : (Decimal.ofText? v.display).isSome = true := by
    rw [isSome_ofText?_display hv, hd]
    rfl
  have hcanonical : (Decimal.ofText? d.display).isSome = true := by
    rw [Decimal.display, Decimal.ofText?_render (hv.of_asNumber? hd).normalize]
    rfl
  -- what is shown as a number would be coerced to one
  constructor
  · intro h
    rw [h, hother] at hnumber
    cases hnumber
  · intro h
    rw [h, hother] at hcanonical
    cases hcanonical

/-- **Two values are equal exactly if they are shown alike once they are coerced.** -/
theorem compare_eq_iff {a b : Value} (ha : a.Fits) (hb : b.Fits) :
    a.compare b = .eq ↔ a.coerced.display = b.coerced.display := by
  unfold compare
  cases hm : a.asNumber? with
  | some m =>
    cases hn : b.asNumber? with
    | some n =>
      rw [display_coerced_of_number hm, display_coerced_of_number hn,
        Decimal.display_eq_display_iff (ha.of_asNumber? hm) (hb.of_asNumber? hn), Decimal.same,
        beq_iff_eq]
    | none =>
      -- a number is never shown as something that is none
      obtain ⟨hne, hne'⟩ := display_ne_display ha hb hm hn
      rw [display_coerced_of_number hm, display_coerced_of_none hn, Std.compare_eq_iff_eq]
      exact iff_of_false hne hne'
  | none =>
    rw [display_coerced_of_none hm]
    cases hn : b.asNumber? with
    | some n =>
      obtain ⟨hne, hne'⟩ := display_ne_display hb ha hn hm
      rw [display_coerced_of_number hn, Std.compare_eq_iff_eq]
      exact iff_of_false hne.symm hne'.symm
    | none => rw [display_coerced_of_none hn, Std.compare_eq_iff_eq]

/-- **Swapping the operands swaps the order.** -/
theorem compare_swap (a b : Value) : (a.compare b).swap = b.compare a := by
  unfold compare
  cases a.asNumber? with
  | some m =>
    cases b.asNumber? with
    | some n => exact m.compare_swap n
    | none => exact Std.OrientedOrd.eq_swap.symm
  | none => cases b.asNumber? <;> exact Std.OrientedOrd.eq_swap.symm

end Value

/-! ## One order -/

namespace BinaryOp

/-- The operators that compare their operands. -/
def comparisons : List BinaryOp := [.eq, .ne, .lt, .le, .gt, .ge]

/-- Whether a comparison holds between operands of this order. -/
def holdsFor : BinaryOp → Ordering → Bool
  | .eq, o => o == .eq
  | .ne, o => o != .eq
  | .lt, o => o == .lt
  | .le, o => o != .gt
  | .gt, o => o == .gt
  | .ge, o => o != .lt
  | _, _ => false

variable {op : BinaryOp}

/-- **A comparison looks at the order of its operands** and at nothing else. -/
theorem apply_comparison (h : op ∈ comparisons) (a b : Value) :
    op.apply a b = .ok (.ofBool (op.holdsFor (a.compare b))) := by
  cases op with
  | add | sub | mul | div | and | or => exact absurd h (by decide)
  | _ => rfl

/-- An evaluation of a comparison evaluates its operands from left to right. -/
theorem evaluateExpr_comparison (h : op ∈ comparisons) (call : String → List Value → Action Value)
    (l r : Expr) :
    evaluateExpr call (.binary op l r) = (do
      let a ← evaluateExpr call l
      let b ← evaluateExpr call r
      Action.ofEvaluation (op.apply a b)) := by
  cases op with
  | add | sub | mul | div | and | or => exact absurd h (by decide)
  | _ => rfl

/-- The comparison that holds of nothing but operands of this order. -/
def ofOrdering : Ordering → BinaryOp
  | .lt => .lt
  | .eq => .eq
  | .gt => .gt

theorem holdsFor_iff (o : Ordering) :
    op ∈ [BinaryOp.lt, .eq, .gt] ∧ op.holdsFor o = true ↔ op = ofOrdering o := by
  cases op <;> cases o <;> decide

end BinaryOp

/-- A comparison of two values, however a macro comes by them, is evaluated to 1 if the verdict is true
    and to 0 if it is false. -/
def Answers (op : BinaryOp) (a b : Value) (verdict : Bool) : Prop :=
  ∀ (call : String → List Value → Action Value) (l r : Expr) (f : Frame) (s s₁ s₂ : RunState),
    evaluateExpr call l f s = (.ok a, s₁) → evaluateExpr call r f s₁ = (.ok b, s₂) →
      evaluateExpr call (.binary op l r) f s = (.ok (.ofBool verdict), s₂)

theorem Value.ofBool_inj {p q : Bool} (h : Value.ofBool p = Value.ofBool q) : p = q := by
  cases p <;> cases q <;> first | rfl | cases h

/-- **The verdict of a comparison** depends on the order of its operands alone. -/
theorem answers_iff {op : BinaryOp} (h : op ∈ BinaryOp.comparisons) {a b : Value} {verdict : Bool} :
    Answers op a b verdict ↔ op.holdsFor (a.compare b) = verdict := by
  have hrun (call : String → List Value → Action Value) (l r : Expr) (f : Frame) (s s₁ s₂ : RunState)
      (hl : evaluateExpr call l f s = (.ok a, s₁)) (hr : evaluateExpr call r f s₁ = (.ok b, s₂)) :
      evaluateExpr call (.binary op l r) f s =
        (.ok (.ofBool (op.holdsFor (a.compare b))), s₂) := by
    rw [BinaryOp.evaluateExpr_comparison h]
    simp [hl, hr, BinaryOp.apply_comparison h]
  constructor
  · intro hanswers
    -- two literals are operands with these values
    have hliterals := hanswers (fun _ _ => pure .empty) (.literal a) (.literal b) default default
      default default rfl rfl
    rw [hrun _ _ _ _ _ _ default rfl rfl] at hliterals
    exact Value.ofBool_inj (Except.ok.inj (Prod.mk.inj hliterals).1)
  · rintro rfl call l r f s s₁ s₂ hl hr
    exact hrun call l r f s s₁ s₂ hl hr

section Laws

variable {op op' : BinaryOp} (h : op ∈ BinaryOp.comparisons) (h' : op' ∈ BinaryOp.comparisons)
include h h'

theorem answers_not_iff (hnot : ∀ o, op.holdsFor o = !op'.holdsFor o) (a b : Value) (verdict : Bool) :
    Answers op a b verdict ↔ Answers op' a b !verdict := by
  rw [answers_iff h, answers_iff h', hnot, Bool.not_eq_eq_eq_not]

theorem answers_swap_iff (hswap : ∀ o, op.holdsFor o = op'.holdsFor o.swap) (a b : Value)
    (verdict : Bool) : Answers op a b verdict ↔ Answers op' b a verdict := by
  rw [answers_iff h, answers_iff h', hswap, Value.compare_swap]

end Laws

/-- **The comparisons are coherent.**  On the values of the language `==` is an equivalence.  Every
    comparison has one verdict, and of `<`, `==` and `>` exactly one is true.  `!=`, `<=` and `>=` are
    the negations of `==`, `>` and `<`, and swapping the operands turns `<` into `>` and `<=` into `>=`. -/
theorem comparisons_agree :
    (Equivalence fun a b : {v : Value // v.Fits} => Answers .eq a b true) ∧
    ∀ a b : Value,
      (∀ op ∈ BinaryOp.comparisons, ∃! verdict, Answers op a b verdict) ∧
      (∃! op, op ∈ [BinaryOp.lt, .eq, .gt] ∧ Answers op a b true) ∧
      ∀ verdict,
        (Answers .ne a b verdict ↔ Answers .eq a b !verdict) ∧
        (Answers .le a b verdict ↔ Answers .gt a b !verdict) ∧
        (Answers .ge a b verdict ↔ Answers .lt a b !verdict) ∧
        (Answers .lt a b verdict ↔ Answers .gt b a verdict) ∧
        (Answers .le a b verdict ↔ Answers .ge b a verdict) := by
  -- `==` compares what the two are shown as, and equality of texts is an equivalence
  have hequal (a b : {v : Value // v.Fits}) :
      Answers .eq a b true ↔ a.1.coerced.display = b.1.coerced.display := by
    rw [answers_iff (by decide), ← Value.compare_eq_iff a.2 b.2]
    exact beq_iff_eq
  -- there is one ordering of the two, and each of the three operators stands for one
  have hone (a b : Value) (op : BinaryOp) : op ∈ [BinaryOp.lt, .eq, .gt] ∧ Answers op a b true ↔
      op = .ofOrdering (a.compare b) := by
    rw [← BinaryOp.holdsFor_iff]
    refine and_congr_right fun hop => answers_iff ?_
    exact (by decide : [BinaryOp.lt, .eq, .gt] ⊆ BinaryOp.comparisons) hop
  refine ⟨⟨fun a => (hequal a a).2 rfl, fun {a b} hab => ?_, fun {a b c} hab hbc => ?_⟩, fun a b =>
    ⟨fun op hop => ?_, ?_, fun verdict => ⟨?_, ?_, ?_, ?_, ?_⟩⟩⟩
  · exact (hequal b a).2 ((hequal a b).1 hab).symm
  · exact (hequal a c).2 (((hequal a b).1 hab).trans ((hequal b c).1 hbc))
  · exact ⟨op.holdsFor (a.compare b), (answers_iff hop).2 rfl, fun _ h => ((answers_iff hop).1 h).symm⟩
  · exact ⟨.ofOrdering (a.compare b), (hone a b _).2 rfl, fun op h => (hone a b op).1 h⟩
  · exact answers_not_iff (by decide) (by decide) (fun _ => rfl) a b verdict
  · exact answers_not_iff (by decide) (by decide) (fun _ => rfl) a b verdict
  · exact answers_not_iff (by decide) (by decide) (fun _ => rfl) a b verdict
  · exact answers_swap_iff (by decide) (by decide) (fun o => by cases o <;> rfl) a b verdict
  · exact answers_swap_iff (by decide) (by decide) (fun o => by cases o <;> rfl) a b verdict

/-- Two texts that write seven in their own ways are equal as both are equal to the number; the text of
    an array is no number, so it is compared with the number as a text. -/
theorem comparisons_agree_seven :
    let seven : Value := .number ⟨70, 1⟩
    seven.Fits ∧ Answers .eq (.text " +07") seven true ∧ Answers .eq seven (.text "7.00") true ∧
      Answers .eq (.text " +07") (.text "7.00") true ∧
      BinaryOp.le ∈ BinaryOp.comparisons ∧
      (∃! verdict, Answers .le (.tree (.array [.ofInt 7])) seven verdict) ∧
      Answers .lt seven (.tree (.array [.ofInt 7])) true ∧
      Answers .gt (.tree (.array [.ofInt 7])) seven true := by
  intro seven
  have hfits : seven.Fits := by decide
  obtain ⟨hequivalence, hlaws⟩ := comparisons_agree
  obtain ⟨hone, -, -⟩ := hlaws (.tree (.array [.ofInt 7])) seven
  obtain ⟨-, -, hnegations⟩ := hlaws seven (.tree (.array [.ofInt 7]))
  have hleft : Answers .eq (.text " +07") seven true := (answers_iff (by decide)).2 (by decide +kernel)
  have hright : Answers .eq seven (.text "7.00") true := (answers_iff (by decide)).2 (by decide +kernel)
  have hless : Answers .lt seven (.tree (.array [.ofInt 7])) true :=
    (answers_iff (by decide)).2 (by decide +kernel)
  refine ⟨hfits, hleft, hright, ?_, by decide, hone .le (by decide), hless, ?_⟩
  · exact hequivalence.trans (x := ⟨.text " +07", trivial⟩) (y := ⟨seven, hfits⟩)
      (z := ⟨.text "7.00", trivial⟩) hleft hright
  · obtain ⟨-, -, -, hswap, -⟩ := hnegations true
    exact hswap.1 hless

end Tabletop
