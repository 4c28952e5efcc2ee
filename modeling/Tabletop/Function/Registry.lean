import Tabletop.Assoc
import Tabletop.Function.Arity

/-
  Functions under their names.

  1. **Descriptors** — what a function is called, how many arguments it takes, whether only trusted
     macros may call it, and a description.  A function may have several names.

  2. **The index** — a name is looked up in an index, which says where its function stands.

  3. **One owner for a name** — a registration takes its names over one by one: the index leads to the
     new function from then on, and the function that had the name loses it.  A function stays in the
     registry under the names that are left to it.
-/
namespace Tabletop

/-- What is known of a function without calling it. -/
structure Descriptor where
  names : List String
  arity : Arity
  /-- Only trusted macros may call the function. -/
  trusted : Bool
  /-- Equal calls have equal results. -/
  deterministic : Bool
  description : String
deriving DecidableEq, Repr, Inhabited

/-- The first name. -/
def Descriptor.name (d : Descriptor) : String := d.names.headD ""

def Descriptor.hasName (d : Descriptor) (name : String) : Bool := d.names.contains name

/-- A function with its descriptor. -/
structure Registered (φ : Type) where
  descriptor : Descriptor
  function : φ
deriving Repr, Inhabited

/-- The registered functions in the order of their registration. -/
structure Registry (φ : Type) where
  entries : List (Registered φ)
  /-- The places of the functions by their names. -/
  index : List (String × Nat)
deriving Repr, Inhabited

/-- A function without a name cannot be registered. -/
inductive RegistryFault where
  | noNames
deriving DecidableEq, Repr, Inhabited

/-- The wording of a fault. -/
def RegistryFault.message : RegistryFault → String
  | .noNames => "A function needs at least one name"

namespace Registry

variable {φ : Type}

/-- The registry without functions. -/
def empty : Registry φ := ⟨[], []⟩

/-- A function that has lost a name. -/
def withoutName (name : String) (e : Registered φ) : Registered φ :=
  { e with descriptor := { e.descriptor with names := e.descriptor.names.filter fun n => n ≠ name } }

/-- Lets a name lead to a place.  A function that had the name loses it. -/
def assign (place : Nat) (r : Registry φ) (name : String) : Registry φ :=
  { entries :=
      match Assoc.get? r.index name with
      | some previous => r.entries.modify previous (withoutName name)
      | none => r.entries
    index := Assoc.insert r.index name place }

/-- Registers a function under all its names. -/
def register (r : Registry φ) (d : Descriptor) (f : φ) : Except RegistryFault (Registry φ) :=
  if d.names.isEmpty then .error .noNames
  else
    let taken := d.names.foldl (assign r.entries.length) r
    .ok { taken with entries := taken.entries ++ [⟨d, f⟩] }

/-- Registers functions in order; those without a name are left out. -/
def ofList (fs : List (Registered φ)) : Registry φ :=
  fs.foldl (fun r e => ((r.register e.descriptor e.function).toOption).getD r) empty

/-- The function of a name. -/
def find? (r : Registry φ) (name : String) : Option (Registered φ) :=
  (Assoc.get? r.index name).bind fun i => r.entries[i]?

/-- The descriptor of a name. -/
def descriptor? (r : Registry φ) (name : String) : Option Descriptor :=
  (r.find? name).map Registered.descriptor

def contains (r : Registry φ) (name : String) : Bool := Assoc.contains r.index name

/-- All names in order. -/
def names (r : Registry φ) : List String :=
  (Assoc.keys r.index).mergeSort fun a b => decide (a ≤ b)

end Registry

end Tabletop
