import Tabletop.Builtin.Basic

/-
  Functions on the turn order.  The subject can join and leave; only trusted macros go on to the next
  turn or change the round.
-/
namespace Tabletop.Builtin

open Arguments

/-- Changes the turn order. -/
def modifyInitiative (f : InitiativeList → InitiativeList) : Action Unit :=
  Action.modifyCampaign fun c => { c with initiative := f c.initiative }

/-- The turn order. -/
def initiative : Action InitiativeList := return (← Action.campaign).initiative

/-- The position of the entry whose turn it is, or -1. -/
def currentPosition (l : InitiativeList) : Value :=
  match l.current with
  | some i => .ofWord i
  | none => .ofInt (-1)

def addToInitiative : Builtin :=
  acting "addToInitiative" (.upTo 0 2)
    "Add the Subject to the turn order; `(allowDuplicates=0, initiative)`"
    fun _ name args => do
      let id ← Action.requireSubject name
      if !flagAt args 0 false && (← initiative).contains id then pure (.ofBool false)
      else
        let text := textAt args 1
        modifyInitiative (·.add id (if text = "" then none else some text))
        pure (.ofBool true)

def removeFromInitiative : Builtin :=
  acting "removeFromInitiative" (.exactly 0)
    "Remove every entry of the Subject; returns how many were removed"
    fun _ name _ => do
      let id ← Action.requireSubject name
      let removed := (← initiative).removed id
      modifyInitiative (·.remove id)
      pure (.ofInt removed)

def getInitiativeRound : Builtin :=
  acting "getInitiativeRound" (.exactly 0) "" fun _ _ _ => return .ofInt (← initiative).round

def setInitiativeRound : Builtin := trustedOnly <|
  acting "setInitiativeRound" (.exactly 1) ""
    fun _ name args => do
      let round ← Action.ofExcept (intAt args name 0)
      modifyInitiative fun l => { l with round }
      pure .empty

def nextInitiative : Builtin := trustedOnly <|
  acting "nextInitiative" (.exactly 0) "Advance the turn, starting a new round after the last entry"
    fun _ _ _ => do
      modifyInitiative (·.next)
      return currentPosition (← initiative)

def getCurrentInitiative : Builtin :=
  acting "getCurrentInitiative" (.exactly 0) "Index of the entry whose turn it is, or -1"
    fun _ _ _ => return currentPosition (← initiative)

def initiativeSize : Builtin :=
  acting "initiativeSize" (.exactly 0) ""
    fun _ _ _ => return .ofInt (← initiative).entries.length

/-- The functions on the turn order. -/
def turnOrder : List Builtin :=
  [addToInitiative, removeFromInitiative, getInitiativeRound, setInitiativeRound, nextInitiative,
    getCurrentInitiative, initiativeSize]

end Tabletop.Builtin
