import Tabletop.Assoc
import Tabletop.Text.Split

/-
  A folder of text files that is held in memory.

  1. **Paths** — names with slashes between them; `.` and empty names say nothing, `..` goes back up,
     and the top folder is its own parent.

  2. **Folders** — exist as far as files lie in them; the top folder always exists.  A file can be
     written where its folder exists.
-/
namespace Tabletop

/-- The files by their paths. -/
structure Folder where
  files : List (List String × String)
deriving DecidableEq, Repr, Inhabited

namespace Folder

/-- Goes along a path by one name. -/
def stepPath (path : List String) (name : String) : List String :=
  if name = "" ∨ name = "." then path else if name = ".." then path.dropLast else path ++ [name]

/-- The names on the way from the top folder. -/
def pathOf (s : String) : List String := (Text.split "/" s).foldl stepPath []

/-- The folder with these files. -/
def ofList (files : List (String × String)) : Folder :=
  ⟨Assoc.ofList (files.map fun f => (pathOf f.1, f.2))⟩

/-- A folder exists. -/
def hasFolder (f : Folder) (path : List String) : Bool :=
  path.isEmpty || f.files.any fun e => path.isPrefixOf e.1 && e.1 ≠ path

/-! ## Files -/

/-- Nothing has this path. -/
def noFile : String := "No such file or directory (os error 2)"

/-- Why a path that leads to no file leads nowhere. -/
def fault (f : Folder) (path : List String) : String :=
  if f.hasFolder path then "Is a directory (os error 21)"
  else if f.files.any fun e => e.1.isPrefixOf path && e.1 ≠ path then
    "Not a directory (os error 20)"
  else noFile

/-- The text of a file. -/
def read (f : Folder) (path : String) : Except String String :=
  match Assoc.get? f.files (pathOf path) with
  | some text => .ok text
  | none => .error (f.fault (pathOf path))

/-- Writes a file. -/
def write (f : Folder) (path text : String) : Except String Folder :=
  let p := pathOf path
  if f.hasFolder p || !f.hasFolder p.dropLast then .error (f.fault p)
  else .ok ⟨Assoc.insert f.files p text⟩

/-- The names and texts of the files in a folder. -/
def list (f : Folder) (path : String) : Except String (List (String × String)) :=
  let p := pathOf path
  if f.hasFolder p then
    .ok (f.files.filterMap fun e =>
      if e.1.dropLast = p then e.1.getLast?.map (·, e.2) else none)
  else .error (f.fault p)

end Folder

end Tabletop
