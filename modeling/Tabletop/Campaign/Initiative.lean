import Tabletop.Campaign.TokenId

/-
  Turn order.

  1. **Turns** — the list points at the entry whose turn it is, or at none before the first turn.
     `next` goes on to the entry behind it and wraps to the first one, which starts a new round.

  2. **Leaving** — `remove` takes all entries of a token out.  The turn stays with the token that has
     it; nobody has the turn if that token left.
-/
namespace Tabletop

/-- A place in the turn order. -/
structure InitiativeEntry where
  token : TokenId
  /-- The text of the initiative, if it was rolled. -/
  initiative : Option String
deriving DecidableEq, Repr, Inhabited

/-- The turn order. -/
structure InitiativeList where
  round : Int
  /-- The position of the entry whose turn it is. -/
  current : Option Nat
  entries : List InitiativeEntry
deriving DecidableEq, Repr, Inhabited

namespace InitiativeList

/-- The turn order before anyone joined. -/
def new : InitiativeList := ⟨1, none, []⟩

def contains (l : InitiativeList) (id : TokenId) : Bool := l.entries.any fun e => e.token == id

/-- Appends an entry. -/
def add (l : InitiativeList) (id : TokenId) (initiative : Option String) : InitiativeList :=
  { l with entries := l.entries ++ [⟨id, initiative⟩] }

/-- The entry whose turn it is. -/
def currentEntry? (l : InitiativeList) : Option InitiativeEntry := l.current.bind (l.entries[·]?)

/-- Takes the entries of a token out. -/
def remove (l : InitiativeList) (id : TokenId) : InitiativeList :=
  let entries := l.entries.filter fun e => e.token != id
  let current :=
    match l.currentEntry? with
    | some e => if e.token = id then none else entries.findIdx? fun x => x.token == e.token
    | none => none
  { l with entries, current }

/-- How many entries `remove` takes out. -/
def removed (l : InitiativeList) (id : TokenId) : Nat :=
  l.entries.length - (l.remove id).entries.length

/-- Goes on to the next turn. -/
def next (l : InitiativeList) : InitiativeList :=
  if l.entries.isEmpty then { l with current := none }
  else
    match l.current with
    | none => { l with current := some 0 }
    | some i =>
      if l.entries.length ≤ i + 1 then { l with round := l.round + 1, current := some 0 }
      else { l with current := some (i + 1) }

end InitiativeList

end Tabletop
