import Tabletop.Campaign.Saved
import Tabletop.Console.Folder

/-
  Saves in files.

  `Files` is what a console needs of the world outside: texts by their paths, and the time.  A folder
  in memory will do.
-/
namespace Tabletop

/-- Files and a clock; a failure is told in words. -/
structure Files (m : Type → Type) where
  read : String → m (Except String String)
  write : String → String → m (Except String Unit)
  /-- The seconds since the start of 1970. -/
  now : m String

namespace Files

variable {m : Type → Type} [Monad m] (files : Files m)

/-- The campaign of a save. -/
def openSave (path : String) : m (Except SaveFault Campaign) := do
  match ← files.read path with
  | .ok text => pure ((SavedCampaign.parse text).map SavedCampaign.campaign)
  | .error reason => pure (.error (.unreachable reason))

/-- Saves a campaign. -/
def save (path : String) (c : Campaign) : m (Except SaveFault Unit) := do
  let text := (SavedCampaign.ofCampaign c (← files.now)).render
  pure ((← files.write path text).mapError .unreachable)

end Files

/-- A folder in memory, where no time passes. -/
def Folder.filesAt (now : String) : Files (StateM Folder) where
  read path := return (← get).read path
  write path text := do
    match (← get).write path text with
    | .ok f => set f; pure (.ok ())
    | .error reason => pure (.error reason)
  now := pure now

end Tabletop
