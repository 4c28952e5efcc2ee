import Tabletop.Campaign.Basic
import Tabletop.Macro.Fault
import Tabletop.Text.Split

/-
  Finding the macro that a name stands for.

  1. **Names** — `label@location`, cut at the first `@`.

  2. **Locations** — `TOKEN` is the subject, a name that starts with `lib:` is the one library token
     of that name, `this` is the location of the running macro.  Case does not count.

  3. **The answer** — tells the location in one spelling, so that `this` in the macro that was found
     leads to the same token again.
-/
namespace Tabletop

/-- The location of text that belongs to no token. -/
def chatLocation : String := "chat"

/-- The location of the subject's own macros. -/
def subjectLocation : String := "TOKEN"

/-- The location of the running macro. -/
def thisLocation : String := "this"

/-- A macro that was found. -/
structure LocatedMacro where
  name : String
  location : String
  holder : TokenId
  body : String
  autoExecute : Bool
deriving DecidableEq, Repr, Inhabited

namespace Campaign

/-- The library token of a name, if there is exactly one. -/
def library (c : Campaign) (name : String) : Except LookupFault Token :=
  match c.libraryTokens.filter fun t => Text.sameName t.name name with
  | [] => .error (.noLibrary name)
  | [t] => .ok t
  | _ => .error (.severalLibraries name)

/-- The token at a location. -/
def holder (c : Campaign) (subject : Option TokenId) (location : String) :
    Except LookupFault Token :=
  if Text.sameName location subjectLocation then
    match subject with
    | none => .error .noSubject
    | some id =>
      match c.token? id with
      | some t => .ok t
      | none => .error .subjectGone
  else if isLibraryName location then c.library location
  else .error .unsupportedLocation

/-- The location that is meant where the running macro is at `current`. -/
def actualLocation (current location : String) : Except LookupFault String :=
  if Text.sameName location thisLocation then
    if current = "" ∨ current = chatLocation then .error .thisOutsideMacro else .ok current
  else .ok location

/-- Finds a macro by its label and location. -/
def locateAt (c : Campaign) (subject : Option TokenId) (current label location : String) :
    Except LookupFault LocatedMacro := do
  let location ← actualLocation current location
  let holder ← c.holder subject location
  match holder.button? label with
  | none => .error .noButton
  | some b =>
    let location := if Text.sameName location subjectLocation then subjectLocation else holder.name
    pure ⟨label, location, holder.id, b.command, b.autoExecute⟩

/-- Finds the macro that a name stands for. -/
def locate (c : Campaign) (name : String) (subject : Option TokenId) (current : String) :
    Except MacroError LocatedMacro :=
  match Text.cut (· == '@') name with
  | none => .error (.unknownMacro name .noLocation)
  | some (label, location) =>
    (c.locateAt subject current label location).mapError (.unknownMacro name)

end Campaign

end Tabletop
