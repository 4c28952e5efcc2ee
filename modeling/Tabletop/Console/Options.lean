import Tabletop.Config
import Tabletop.Console.EnvFile

/-
  The command line.

  1. **Flags** — `--campaign` and `--player` take the argument behind them, whatever it is, and
     nothing at the end of the line.  The last value counts.  Everything else is passed over.

  2. **Settings** — the command line counts more than the environment.

  3. **Help** — `-h` or `--help` anywhere asks for help, also as the value of a flag.
-/
namespace Tabletop

/-- What a command line asks for. -/
structure Options where
  help : Bool
  player : Option String
  /-- The path of the save to begin with. -/
  campaign : Option String
deriving DecidableEq, Repr, Inhabited

namespace Options

/-- The values of the flags. -/
def flags : List String → Options
  | "--campaign" :: path :: rest =>
    let later := flags rest
    { later with campaign := later.campaign <|> some path }
  | "--player" :: name :: rest =>
    let later := flags rest
    { later with player := later.player <|> some name }
  | _ :: rest => flags rest
  | [] => ⟨false, none, none⟩

/-- Reads the arguments of a command line. -/
def ofArguments (arguments : List String) : Options :=
  { flags arguments with help := arguments.any fun a => a == "--help" || a == "-h" }

/-- The settings with an environment. -/
def config (o : Options) (env : Environment) : Config :=
  let c := Config.ofEnvironment (Assoc.get? env)
  { c with player := o.player.getD c.player }

/-- The lines that explain the command line. -/
def helpLines : List String :=
  ["vtt - run tabletop macros from the command line", "", "USAGE:", "  vtt [OPTIONS]", "",
    "OPTIONS:",
    "  -h, --help           Show this help message",
    "  --campaign <PATH>    Load a saved campaign (default: a demo table)",
    "  --player <NAME>      Local player name (default: $VTT_PLAYER or Player)", "",
    "ENVIRONMENT:",
    "  VTT_PLAYER           Local player name",
    "  VTT_TRUST_CHAT       Run chat input trusted (1, true, yes)",
    "  VTT_ONLOAD_MACRO     Library macro run when a campaign loads",
    "  RUST_LOG             Log filter, written to stderr (default: warn)"]

end Options

end Tabletop
