import Tabletop.Campaign.Token
import Tabletop.Campaign.Initiative

/-
  Campaigns: everything that the players share.

  1. **State** — players, tokens, the selection, the impersonated token, the turn order and the chat
     messages so far.  All reading and changing of a running table goes through the functions here.

  2. **Trust** — a token is trusted if not everyone owns it and each of its owners is a GM at that
     moment; text is trusted if its origin is.
-/
namespace Tabletop

/-- What a player is at the table. -/
inductive Role where
  | gm
  | player
deriving DecidableEq, Repr, Inhabited

/-- A player at the table. -/
structure Player where
  name : String
  role : Role
deriving DecidableEq, Repr, Inhabited

/-- Who sees a message. -/
inductive Channel where
  | player (name : String)
  | gm
  | all
deriving DecidableEq, Repr, Inhabited

/-- The name of a channel. -/
def Channel.describe : Channel → String
  | .player name => "to " ++ name
  | .gm => "gm"
  | .all => "all"

/-- A message in chat. -/
structure ChatMessage where
  channel : Channel
  sender : String
  text : String
deriving DecidableEq, Repr, Inhabited

/-- Everything that the players of a campaign share. -/
structure Campaign where
  name : String
  players : List Player
  tokens : List Token
  selected : List TokenId
  impersonated : Option TokenId
  initiative : InitiativeList
  transcript : List ChatMessage
deriving DecidableEq, Repr, Inhabited

/-- Where the text of a macro came from. -/
inductive Origin where
  /-- A button of a token. -/
  | token (id : TokenId)
  /-- Chat, or a caller inside the program. -/
  | unattached (privileged : Bool)
deriving DecidableEq, Repr, Inhabited

namespace Campaign

/-- A campaign with nobody in it. -/
def new (name : String) : Campaign := ⟨name, [], [], [], none, .new, []⟩

/-! ## Players -/

/-- Lets a player join; an earlier player of the same name leaves. -/
def addPlayer (c : Campaign) (p : Player) : Campaign :=
  { c with players := c.players.filter (fun q => q.name != p.name) ++ [p] }

/-- Someone of this name is a GM. -/
def isGm (c : Campaign) (player : String) : Bool :=
  c.players.any fun p => p.name == player && p.role == .gm

/-! ## Tokens -/

/-- Adds a token at the end. -/
def addToken (c : Campaign) (t : Token) : Campaign := { c with tokens := c.tokens ++ [t] }

/-- The first token with an id. -/
def token? (c : Campaign) (id : TokenId) : Option Token := c.tokens.find? fun t => t.id == id

/-- Puts a token in the place of the first one with its id. -/
def replaceFirst (t : Token) : List Token → List Token
  | [] => []
  | u :: us => if u.id = t.id then t :: us else u :: replaceFirst t us

/-- Stores a changed token. -/
def putToken (c : Campaign) (t : Token) : Campaign := { c with tokens := replaceFirst t c.tokens }

/-- The token that an id or, failing that, a name stands for. -/
def findToken? (c : Campaign) (idOrName : String) : Option Token :=
  ((TokenId.ofText? idOrName).bind c.token?).orElse fun _ =>
    c.tokens.find? fun t => Text.sameName t.name (Text.trim idOrName)

/-- The library tokens in order. -/
def libraryTokens (c : Campaign) : List Token := c.tokens.filter Token.isLibrary

/-! ## Chat -/

/-- Adds a message to the transcript. -/
def deliver (c : Campaign) (m : ChatMessage) : Campaign :=
  { c with transcript := c.transcript ++ [m] }

/-! ## Trust -/

/-- Not everyone owns the token, and only GMs do. -/
def trustsToken (c : Campaign) (t : Token) : Bool := !t.ownedByAll && t.owners.keys.all c.isGm

/-- Text from this origin may use the privileged functions. -/
def trusts (c : Campaign) : Origin → Bool
  | .token id => (c.token? id).any c.trustsToken
  | .unattached privileged => privileged

end Campaign

end Tabletop
