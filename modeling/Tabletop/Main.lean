import Std.Time.DateTime.Timestamp
import Tabletop.Console.Answer

/-
  The program: a console on the standard streams, the files of the machine, and chance.

  Nothing is decided here: lines are read, answered by `Console.answer` and printed.
-/
namespace Tabletop.Program

/-- The time in seconds since the start of 1970. -/
def seconds : IO String :=
  return toString (← Std.Time.Timestamp.now).toSecondsSinceUnixEpoch.val

/-- A failure of the machine in words. -/
def reason : IO.Error → String
  | .noFileOrDirectory .. => Folder.noFile
  | e => toString e

/-- The files of the machine. -/
def files : Files IO where
  read path := try return .ok (← IO.FS.readFile path) catch e => return .error (reason e)
  write path text :=
    try IO.FS.writeFile path text; return .ok () catch e => return .error (reason e)
  now := seconds

/-- The text of the file with variables, in the working folder or the nearest one above it. -/
def environmentText : Nat → String → IO (Option String)
  | 0, _ => pure none
  | n + 1, path => do
    match ← files.read path with
    | .ok text => pure (some text)
    | .error _ => environmentText n ("../" ++ path)

/-- How many folders may lie one in another. -/
def folderDepth : Nat := 64

/-- The variables of the settings. -/
def settingNames : List String := ["VTT_PLAYER", "VTT_TRUST_CHAT", "VTT_ONLOAD_MACRO"]

/-- The variables that count: those of the settings, and all that a file mentions. -/
def environment : IO Environment := do
  let text := (← environmentText folderDepth EnvFile.name).getD ""
  let names := settingNames ++ (EnvFile.assignments text).flatMap EnvFile.Assignment.mentioned
  let found ← names.eraseDups.filterMapM fun name => do
    pure ((← IO.getEnv name).map fun value => (name, value))
  pure (EnvFile.extend found text)

/-- A number of so many random bytes. -/
def randomNumber (count : USize) : IO Nat := do
  pure ((← IO.getRandomBytes count).data.foldl (fun n b => n * 256 + b.toNat) 0)

/-- A random id, marked as one. -/
def randomId : IO TokenId := do
  let bits := BitVec.ofNat 128 (← randomNumber 16)
  let kept : BitVec 128 := 0xffffffffffff0fff3fffffffffffffff
  let marks : BitVec 128 := 0x00000000000040008000000000000000
  pure ⟨bits &&& kept ||| marks⟩

/-- Prints lines at once. -/
def printLines (lines : List String) : IO Unit := do
  let out ← IO.getStdout
  for line in lines do
    out.putStrLn line
  out.flush

/-- Answers the lines of standard input until one of them quits. -/
partial def converse (i : Interpreter) (t : Table) : IO Unit := do
  let line ← try (← IO.getStdin).getLine catch e => do
    IO.eprintln ("Error reading input: " ++ toString e)
    pure ""
  if line.isEmpty then pure ()
  else
    match Command.ofLine? line with
    | none => converse i t
    | some .quit => pure ()
    | some command => do
      let (lines, t) ← Console.answer files i t command
      printLines lines
      converse i t

/-- Runs the program. -/
def run (arguments : List String) : IO UInt32 := do
  let o := Options.ofArguments arguments
  if o.help then
    printLines Options.helpLines
    return 0
  let i := Interpreter.standard (o.config (← environment))
  match ← Console.firstCampaign files o i.config (← randomId) (← randomId) with
  | .error e =>
    IO.eprintln ("Error: " ++ e.message)
    return 1
  | .ok c =>
    let t := i.tableOf c ⟨UInt64.ofNat (← randomNumber 8)⟩
    printLines (Console.banner i t)
    converse i t
    return 0

end Tabletop.Program

/-- The entry of the program. -/
def main (arguments : List String) : IO UInt32 := Tabletop.Program.run arguments
