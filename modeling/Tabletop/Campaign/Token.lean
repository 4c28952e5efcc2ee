import Tabletop.Campaign.TokenId
import Tabletop.SortedMap
import Tabletop.Text.Case

/-
  Tokens: what stands on the map, and the macro buttons that it carries.

  1. **Properties** — found in any case of the letters A to Z.  A property keeps the spelling with
     which it came first.

  2. **States** — flags, found by their exact name; a state that was never set is off.

  3. **Buttons** — found by their exact label, the first one if there are several.

  4. **Library tokens** — tokens whose name starts with `lib:`, in any case.  The full lower-case map
     would find no others: besides A to Z no character becomes one of these letters alone.
-/
namespace Tabletop

/-- A macro button. -/
structure MacroButton where
  label : String
  command : String
  /-- A link to the button may press it without being asked. -/
  autoExecute : Bool
  group : String
deriving DecidableEq, Repr, Inhabited

/-- A token on the map, or one that holds macros for others. -/
structure Token where
  id : TokenId
  name : String
  owners : NameSet
  ownedByAll : Bool
  properties : SortedMap String
  states : SortedMap Bool
  buttons : List MacroButton
deriving DecidableEq, Repr, Inhabited

/-- What the name of a library token starts with. -/
def libraryPrefix : String := "lib:"

/-- A location or name in a library. -/
def isLibraryName (s : String) : Bool := Text.startsWith libraryPrefix (Text.lower s)

namespace Token

/-- A token with nothing but a name. -/
def named (id : TokenId) (name : String) : Token := ⟨id, name, .empty, false, .empty, .empty, []⟩

def isLibrary (t : Token) : Bool := isLibraryName t.name

def isOwner (t : Token) (player : String) : Bool := t.ownedByAll || (t.owners.get? player).isSome

/-! ## Properties and states -/

/-- The property that a name finds. -/
def findProperty? (t : Token) (name : String) : Option (String × String) :=
  t.properties.entries.find? fun e => Text.sameName e.1 name

/-- The text of a property. -/
def property? (t : Token) (name : String) : Option String := (t.findProperty? name).map Prod.snd

/-- Sets a property under the spelling that it has, or under the given one. -/
def setProperty (t : Token) (name value : String) : Token :=
  let key := ((t.findProperty? name).map Prod.fst).getD name
  { t with properties := t.properties.insert key value }

/-- The flag of a state. -/
def state (t : Token) (name : String) : Bool := (t.states.get? name).getD false

/-- Sets a state. -/
def setState (t : Token) (name : String) (flag : Bool) : Token :=
  { t with states := t.states.insert name flag }

/-- The button with a label. -/
def button? (t : Token) (label : String) : Option MacroButton :=
  t.buttons.find? fun b => b.label == label

end Token

end Tabletop
