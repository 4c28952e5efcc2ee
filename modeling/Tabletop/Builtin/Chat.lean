import Tabletop.Builtin.Basic
import Tabletop.StringList

/-
  Messages to chat.

  The targets of a message are the words `gm`, `self` and `all` in any case, and names of players.
  Names that nobody has are passed over, and no channel gets a message twice.
-/
namespace Tabletop.Builtin

open Arguments

/-- The channel of a target. -/
def channelOf? (c : Campaign) (caller target : String) : Option Channel :=
  match Text.lower target with
  | "gm" => some .gm
  | "self" => some (.player caller)
  | "all" => some .all
  | _ => if c.players.any (·.name == target) then some (.player target) else none

/-- The channels of targets, each once; everyone if there are no targets. -/
def channelsOf (c : Campaign) (caller : String) (targets : List String) : List Channel :=
  if targets.isEmpty then [.all]
  else
    (targets.filterMap (channelOf? c caller)).foldl
      (fun channels channel => if channels.contains channel then channels else channels ++ [channel])
      []

/-- The targets in the second argument: the items of an array or of a list. -/
def targetsOf (args : List Value) : List String :=
  match args[1]? with
  | none => []
  | some v =>
    match v.asTree? with
    | some (.array items) => items.map fun x => (Value.ofJson x).display
    | _ => (StringList.items v.display (delimiterAt args 2 ",")).filter (· ≠ "")

def broadcast : Builtin := trustedOnly <|
  acting "broadcast" (.upTo 1 2) "Send a message to players, the GM, or everyone"
    fun _ _ args => do
      let caller := (← Action.frame).player
      let channels := channelsOf (← Action.campaign) caller (targetsOf args)
      Action.modifyCampaign fun c =>
        channels.foldl (fun c channel => c.deliver ⟨channel, caller, textAt args 0⟩) c
      pure .empty

/-- The functions on chat. -/
def chat : List Builtin := [broadcast]

end Tabletop.Builtin
