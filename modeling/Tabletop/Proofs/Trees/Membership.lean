import Tabletop.Proofs.Trees.Updates

/-
  What an array contains.

  1. **Shown items** — an array contains a value if one of its items is shown as the text in which the
     value is shown (`call_jsonContains_iff`).

  2. **Appending** — the items of the longer array are the old ones and the stored value
     (`shows_append_iff`).  So nothing is lost; and what was appended is found by the text in which it is
     shown once it was stored and read back.

  3. **Coercion** — reading an item back coerces it, looking for a value does not.  A number or a tree is
     shown the same before and after (`display_ofJson_toJson`), but a text that writes a number in other
     than the shortest form is not: the array does not contain it (`appended_not_contained`).
-/
namespace Tabletop

/-! ## Shown items -/

/-- Some item is shown as this text. -/
def Json.Shows (items : List Json) (shown : String) : Prop :=
  ∃ x ∈ items, (Value.ofJson x).display = shown

theorem Json.shows_append_iff {items : List Json} {x : Json} {shown : String} :
    Shows (items ++ [x]) shown ↔ Shows items shown ∨ (Value.ofJson x).display = shown := by
  constructor
  · rintro ⟨y, hy, hshown⟩
    rcases List.mem_append.1 hy with hy | hy
    · exact .inl ⟨y, hy, hshown⟩
    · exact .inr (List.mem_singleton.1 hy ▸ hshown)
  · rintro (⟨y, hy, hshown⟩ | hshown)
    · exact ⟨y, List.mem_append_left _ hy, hshown⟩
    · exact ⟨x, List.mem_append_right _ List.mem_cons_self, hshown⟩

namespace Builtin

open Arguments

variable (calls : Calls) (items : List Json) (x : Value) (f : Frame) (s : RunState)

theorem call_jsonContains :
    Registry.builtins.call calls "json.contains" [.tree (.array items), x] f s =
      (.ok (.ofBool (holds x.display (.array items))), s) :=
  Registry.call_of_computes (b := jsonContains) (v := .ofBool (holds x.display (.array items)))
    (Registry.find?_builtins _) rfl rfl rfl rfl calls f s

/-- **An array contains what one of its items is shown as.** -/
theorem call_jsonContains_iff :
    Registry.builtins.call calls "json.contains" [.tree (.array items), x] f s = (.ok (.ofInt 1), s) ↔
      Json.Shows items x.display := by
  have hholds : holds x.display (.array items) = true ↔ Json.Shows items x.display := by
    show (items.any fun y => (Value.ofJson y).display == x.display) = true ↔ _
    rw [List.any_eq_true]
    exact exists_congr fun y => and_congr_right fun _ => beq_iff_eq
  rw [call_jsonContains, ← hholds]
  cases holds x.display (.array items) with
  | true => exact iff_of_true rfl rfl
  | false => exact iff_of_false (fun h => by cases h) Bool.false_ne_true

/-- The array with one more value at its end. -/
theorem call_jsonAppend :
    Registry.builtins.call calls "json.append" [.tree (.array items), x] f s =
      (.ok (.tree (.array (items ++ [x.toJson]))), s) := by
  refine Registry.call_of_computes (b := jsonAppend) (v := .tree (.array (items ++ [x.toJson])))
    (Registry.find?_builtins _) rfl rfl rfl ?_ calls f s
  show (treeOr [.tree (.array items), x] "json.append" 0 (.array []) >>= _) = _
  rw [treeOr_tree rfl]
  rfl

end Builtin

/-! ## Coercion -/

namespace Value

/-- Equal values are shown alike. -/
theorem Same.display_eq {v w : Value} (h : v.Same w) : v.display = w.display := by
  cases v with
  | number m =>
    cases w with
    | number n =>
      have hnormal : m.normalize = n.normalize :=
        Decimal.normalize_eq_normalize_iff.2 (Decimal.same_iff.1 h)
      rw [display, display, Decimal.display, Decimal.display, hnormal]
    | _ => cases h
  | text t => rw [show Value.text t = w from h]
  | tree j => rw [show Value.tree j = w from h]

/-- A stored value is shown as what it is coerced to. -/
theorem display_ofJson_toJson {v : Value} (h : v.Storable) :
    (ofJson v.toJson).display = v.coerced.display := (ofJson_toJson h).display_eq

/-- The value is shown the same once it is coerced: every number and tree is, and a text that writes no
    number, or writes one as it is shown. -/
def IsSettled (v : Value) : Prop := v.coerced.display = v.display

instance (v : Value) : Decidable v.IsSettled := inferInstanceAs (Decidable (_ = _))

end Value

/-- **What an array contains once a value was appended.**  It contains all that it contained before.  It
    contains the value that was appended, be it a text, a tree or an integer of 64 bits, exactly if it
    did so before or the value is shown the same once it is coerced; numbers and trees are. -/
theorem Json.contains_appended_iff {x : Value} (storable : x.Storable) (items : List Json)
    (calls : Calls) (f : Frame) (s : RunState) :
    let call (name : String) (args : List Value) := Registry.builtins.call calls name args f s
    ∃ t, call "json.append" [.tree (.array items), x] = (.ok (.tree t), s) ∧
      (call "json.contains" [.tree t, x] = (.ok (.ofInt 1), s) ↔
        call "json.contains" [.tree (.array items), x] = (.ok (.ofInt 1), s) ∨ x.IsSettled) ∧
      ((∀ text, x ≠ .text text) → x.IsSettled) ∧
      ∀ y, call "json.contains" [.tree (.array items), y] = (.ok (.ofInt 1), s) →
        call "json.contains" [.tree t, y] = (.ok (.ofInt 1), s) := by
  intro call
  refine ⟨.array (items ++ [x.toJson]), Builtin.call_jsonAppend calls items x f s, ?_, fun hne => ?_,
    fun y hy => ?_⟩
  · show Registry.builtins.call _ _ _ _ _ = _ ↔ Registry.builtins.call _ _ _ _ _ = _ ∨ _
    rw [Builtin.call_jsonContains_iff, Builtin.call_jsonContains_iff, shows_append_iff,
      Value.display_ofJson_toJson storable]
    rfl
  · -- only a text may be shown otherwise once it is coerced
    cases x with
    | text t => exact absurd rfl (hne t)
    | number d => rfl
    | tree j => rfl
  · rw [Builtin.call_jsonContains_iff] at hy
    exact (Builtin.call_jsonContains_iff calls _ y f s).2 (shows_append_iff.2 (.inl hy))

/-- A text with a blank in front of a number and a zero behind it is appended to an array that has the
    number already: the array goes on to contain the number, and does not contain the text. -/
theorem Json.contains_appended_iff_ledger :
    let x : Value := .text " 1.50"
    let items : List Json := [.string "1.5"]
    let call (name : String) (args : List Value) :=
      Registry.builtins.call (Calls.ofDepth .builtins 1) name args stashFrame stashState
    x.Storable ∧ ∃ t, call "json.append" [.tree (.array items), x] = (.ok (.tree t), stashState) ∧
      call "json.contains" [.tree t, .text "1.5"] = (.ok (.ofInt 1), stashState) ∧
      call "json.contains" [.tree t, x] ≠ (.ok (.ofInt 1), stashState) := by
  intro x items call
  have hread : (Value.ofJson (.string "1.5")).display = "1.5" := by decide +kernel
  have hheld : call "json.contains" [.tree (.array items), .text "1.5"] = (.ok (.ofInt 1), stashState) :=
    (Builtin.call_jsonContains_iff _ _ _ _ _).2 ⟨.string "1.5", List.mem_cons_self, hread⟩
  have hlacked : call "json.contains" [.tree (.array items), x] ≠ (.ok (.ofInt 1), stashState) := by
    intro h
    obtain ⟨y, hy, hshown⟩ := (Builtin.call_jsonContains_iff _ _ _ _ _).1 h
    rw [List.mem_singleton.1 hy, hread] at hshown
    exact absurd hshown (by decide)
  have hunsettled : ¬x.IsSettled := by decide +kernel
  have storable : x.Storable := trivial
  obtain ⟨t, happend, hiff, -, hkept⟩ :=
    contains_appended_iff storable items (Calls.ofDepth .builtins 1) stashFrame stashState
  refine ⟨storable, t, happend, hkept _ hheld, fun h => ?_⟩
  rcases hiff.1 h with h | h
  · exact hlacked h
  · exact hunsettled h

/-- **An array need not contain what was appended to it**: `007` is read back as 7. -/
theorem Json.appended_not_contained :
    ¬∀ (items : List Json) (x : Value) (calls : Calls) (f : Frame) (s : RunState), x.Storable →
      ∃ t, Registry.builtins.call calls "json.append" [.tree (.array items), x] f s =
          (.ok (.tree t), s) ∧
        Registry.builtins.call calls "json.contains" [.tree t, x] f s = (.ok (.ofInt 1), s) := by
  intro h
  obtain ⟨t, happend, hcontains⟩ :=
    h [] (.text "007") (Calls.ofDepth .builtins 1) stashFrame stashState trivial
  rw [Builtin.call_jsonAppend] at happend
  cases happend
  obtain hnone | hshown := shows_append_iff.1 ((Builtin.call_jsonContains_iff _ _ _ _ _).1 hcontains)
  · obtain ⟨y, hy, -⟩ := hnone
    exact absurd hy List.not_mem_nil
  · exact absurd hshown (by decide +kernel)

end Tabletop
