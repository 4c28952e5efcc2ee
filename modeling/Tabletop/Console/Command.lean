import Tabletop.Text.Blank
import Tabletop.Text.Split

/-
  The lines that a player types.

  1. **Chat** — a line is sent as chat unless it starts with `#`.  Blanks around it do not count, and
     a blank line asks for nothing.

  2. **Commands** — the name reaches up to the first blank, and the argument is the rest.  Some names
     need an argument; an argument that is not needed is passed over.
-/
namespace Tabletop

/-- What a line asks for. -/
inductive Command where
  | chat (text : String)
  | quit
  | help
  | save (path : String)
  | load (path : String)
  | link (text : String)
  | impersonate (token : String)
  | select (tokens : List String)
  | functions
  /-- The argument is missing. -/
  | incomplete (name : String)
  | unknown
deriving DecidableEq, Repr, Inhabited

namespace Command

/-- The items between commas that are not blank. -/
def itemsOf (s : String) : List String :=
  ((Text.split "," s).map Text.trim).filter (· ≠ "")

/-- The command with a name and an argument. -/
def ofName (name argument : String) : Command :=
  let needing (command : String → Command) :=
    if argument = "" then .incomplete name else command argument
  match name with
  | "quit" | "exit" => .quit
  | "help" => .help
  | "save" => needing .save
  | "load" => needing .load
  | "link" => needing .link
  | "as" => needing .impersonate
  | "select" => .select (itemsOf argument)
  | "functions" => .functions
  | _ => .unknown

/-- Reads a line; a blank one asks for nothing. -/
def ofLine? (line : String) : Option Command :=
  match Text.trimChars line.toList with
  | [] => none
  | '#' :: cs =>
    let (name, argument) := (Text.cutAt Text.isBlank cs).getD (cs, [])
    some (ofName (String.ofList name) (String.ofList (Text.trimChars argument)))
  | cs => some (.chat (String.ofList cs))

/-! ## Help -/

/-- The commands as they are typed, each with what it does. -/
def explanations : List (String × String) :=
  [("#quit", "Exit"), ("#save <path>", "Save the campaign"),
    ("#load <path>", "Load a campaign and rerun its load hooks"),
    ("#link <url>", "Run a macro:// link"), ("#as <token>", "Impersonate a token"),
    ("#select <a,b>", "Select tokens"), ("#functions", "List user-defined functions"),
    ("#help", "Show this help")]

/-- How wide the column of the commands is. -/
def columnWidth : Nat := 16

/-- A text filled up with blanks at the end. -/
def padded (width : Nat) (s : String) : String :=
  s ++ String.ofList (List.replicate (width - s.length) ' ')

/-- The lines that explain the commands. -/
def helpLines : List String :=
  "Commands:" :: explanations.map (fun e => "  " ++ padded columnWidth e.1 ++ " " ++ e.2) ++
    ["  (anything else is sent as chat)"]

end Command

end Tabletop
