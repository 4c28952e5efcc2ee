import Mathlib.Data.List.Forall2
import Tabletop.Proofs.Function.Names

/-
  Registries side by side.

  Two lists of functions are alike if they have the same descriptors in the same order, and each function
  of the one is related to the function in its place in the other.  Registered in this order, functions
  lose the same names to each other, so that what is found under a name in one registry is related to what
  is found there in the other (`find?_ofList_alike`).
-/
namespace Tabletop.Registry

variable {φ ψ : Type}

/-- Functions that are related and have the same descriptor. -/
def Alike (R : φ → ψ → Prop) (e : Registered φ) (e' : Registered ψ) : Prop :=
  e'.descriptor = e.descriptor ∧ R e.function e'.function

variable {R : φ → ψ → Prop} {fs : List (Registered φ)} {gs : List (Registered ψ)}

/-- Names are taken from both. -/
theorem Alike.withoutNames {e : Registered φ} {e' : Registered ψ} (h : Alike R e e')
    (taken : List String) : Alike R (withoutNames taken e) (withoutNames taken e') := by
  refine ⟨?_, h.2⟩
  unfold Registry.withoutNames
  rw [h.1]

/-- The two lists list the same names. -/
theorem listed_alike (h : List.Forall₂ (Alike R) fs gs) : listed gs = listed fs := by
  induction h with
  | nil => rfl
  | cons hhead _ ih => rw [listed_cons, listed_cons, ih, hhead.1]

/-- Functions that are alike lose the same names. -/
theorem remaining_alike (h : List.Forall₂ (Alike R) fs gs) :
    List.Forall₂ (Alike R) (remaining fs) (remaining gs) := by
  induction h with
  | nil => exact .nil
  | cons hhead htail ih =>
    rw [remaining, remaining, hhead.1, listed_alike htail]
    split
    · exact ih
    · exact .cons (hhead.withoutNames _) ih

/-- The first functions that have a name are alike. -/
theorem find?_hasName_alike (h : List.Forall₂ (Alike R) fs gs) (name : String) :
    Option.Rel (Alike R) (fs.find? fun e => e.descriptor.hasName name)
      (gs.find? fun e => e.descriptor.hasName name) := by
  induction h with
  | nil => exact .none
  | cons hhead _ ih =>
    rw [List.find?_cons, List.find?_cons, hhead.1]
    split
    · exact .some hhead
    · exact ih

/-- What is found under a name in one registry and in the other is alike. -/
theorem find?_ofList_alike (h : List.Forall₂ (Alike R) fs gs) (name : String) :
    Option.Rel (Alike R) ((ofList fs).find? name) ((ofList gs).find? name) := by
  rw [(ofList_consistent fs).find?_eq, (ofList_consistent gs).find?_eq, entries_ofList, entries_ofList]
  exact find?_hasName_alike (remaining_alike h) name

/-- The same names are registered. -/
theorem contains_ofList_alike (h : List.Forall₂ (Alike R) fs gs) :
    (ofList gs).contains = (ofList fs).contains := by
  funext name
  rw [← (ofList_consistent fs).find?_isSome, ← (ofList_consistent gs).find?_isSome]
  have hfind := find?_ofList_alike h name
  generalize (ofList fs).find? name = b at hfind
  generalize (ofList gs).find? name = b' at hfind
  cases hfind <;> rfl

end Tabletop.Registry
