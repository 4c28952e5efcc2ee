import Tabletop.Power
import Tabletop.Text.Blank

/-
  The ids of tokens: numbers of 128 bits.

  1. **Writing** — 32 hexadecimal digits in lower case, in groups of 8, 4, 4, 4 and 12.

  2. **Reading** — the same in any case, also without hyphens, in braces, or behind `urn:uuid:`.
-/
namespace Tabletop

/-- The id of a token. -/
structure TokenId where
  bits : BitVec 128
deriving DecidableEq, Repr, Inhabited

namespace TokenId

/-! ## Writing -/

/-- The hexadecimal digits from the most significant one. -/
def digits (id : TokenId) : List Char :=
  (List.range 32).map fun i => Nat.digitChar (id.bits.toNat / 16 ^ (31 - i) % 16)

/-- The written form. -/
def chars (id : TokenId) : List Char :=
  let d := id.digits
  d.take 8 ++ '-' :: (d.drop 8).take 4 ++ '-' :: (d.drop 12).take 4 ++ '-' :: (d.drop 16).take 4 ++
    '-' :: d.drop 20

/-- The written form. -/
def render (id : TokenId) : String := String.ofList id.chars

/-! ## Reading -/

/-- The value of a hexadecimal digit in either case. -/
def hexValue? (c : Char) : Option Nat :=
  let n := c.toNat
  if 0x30 ≤ n ∧ n ≤ 0x39 then some (n - 0x30)
  else if 0x41 ≤ n ∧ n ≤ 0x46 then some (n - 0x37)
  else if 0x61 ≤ n ∧ n ≤ 0x66 then some (n - 0x57)
  else none

/-- The id with these 32 digits. -/
def ofDigits? (cs : List Char) : Option TokenId :=
  if cs.length = 32 then
    (cs.foldlM (fun n c => (hexValue? c).map (n * 16 + ·)) 0).map fun n => ⟨BitVec.ofNat 128 n⟩
  else none

/-- The id with these digits, hyphens between the groups. -/
def ofGroups? (cs : List Char) : Option TokenId :=
  let at_ (i : Nat) := cs[i]? == some '-'
  if cs.length = 36 && at_ 8 && at_ 13 && at_ 18 && at_ 23 then
    ofDigits? (cs.take 8 ++ (cs.drop 9).take 4 ++ (cs.drop 14).take 4 ++ (cs.drop 19).take 4 ++
      cs.drop 24)
  else none

/-- What may stand in front of the groups. -/
def urn : List Char := ['u', 'r', 'n', ':', 'u', 'u', 'i', 'd', ':']

/-- The id that characters write. -/
def ofChars? (cs : List Char) : Option TokenId :=
  if cs.length = 32 then ofDigits? cs
  else if urn.isPrefixOf cs then ofGroups? (cs.drop urn.length)
  else if cs.head? = some '\x7b' ∧ cs.getLast? = some '\x7d' then
    ofGroups? ((cs.drop 1).dropLast)
  else ofGroups? cs

/-- The id that a text writes, blanks around it aside. -/
def ofText? (s : String) : Option TokenId := ofChars? (Text.trimChars s.toList)

end TokenId

end Tabletop
