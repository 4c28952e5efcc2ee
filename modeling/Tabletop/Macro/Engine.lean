import Tabletop.Builtin.Basic

/-
  Calls that nest.

  A body calls functions, and functions run bodies.  `Calls.ofDepth` ties this knot: at depth `n + 1`
  the bodies and functions that are run see the calls of depth `n`, and at depth 0 every call ends as
  `exhausted`.  A run that is not exhausted is the same at every greater depth.
-/
namespace Tabletop

/-- No call can be made. -/
def Calls.none (r : Registry Behaviour) : Calls where
  evaluate _ := throw .exhausted
  builtin _ _ := throw .exhausted
  hasBuiltin := r.contains

/-- Calls that nest up to a depth. -/
def Calls.ofDepth (r : Registry Behaviour) : Nat → Calls
  | 0 => .none r
  | n + 1 => {
      evaluate := fun body => evaluateBody (Calls.ofDepth r n) body
      builtin := fun name args => r.call (Calls.ofDepth r n) name args
      hasBuiltin := r.contains }

end Tabletop
