import Tabletop.Builtin.Basic
import Tabletop.Macro.Follow

/-
  Making links and following them.
-/
namespace Tabletop.Builtin

open Arguments

/-- The link with the macro, the output, the arguments and the recipients that the arguments from
    `i` on give. -/
def linkFrom (args : List Value) (i : Nat) : MacroLink :=
  MacroLink.make (Text.trim (textAt args i)) (.parse (textOr args (i + 1) "none"))
    (.parse (textOr args (i + 3) "impersonated")) (textAt args (i + 2))

def macroLink : Builtin :=
  computing "macroLink" (.upTo 2 3) "HTML anchor running a macro when clicked"
    fun _ args =>
      .ok (.text ("<a href=\"" ++ (linkFrom args 1).encode ++ "\">" ++ textAt args 0 ++ "</a>"))

def macroLinkText : Builtin :=
  computing "macroLinkText" (.upTo 1 3) "Bare `macro://` link text"
    fun _ args => .ok (.text (linkFrom args 0).encode)

/-- Queues a link. -/
def queueLink (text : String) : Action Unit :=
  modify fun s => { s with table := { s.table with queue := s.table.queue ++ [text] } }

def execLink : Builtin := trustedOnly <|
  acting "execLink" (.upTo 1 1) "Run a macro link now, or queue it when `defer` is set"
    fun calls _ args => do
      let text := textAt args 0
      if flagAt args 1 false then queueLink text
      else
        let player := (← Action.frame).player
        let _ ← Action.atTable (followLink calls.evaluate text player false)
      pure .empty

/-- The functions on links. -/
def links : List Builtin := [macroLink, macroLinkText, execLink]

end Tabletop.Builtin
