import Tabletop.MacroLink.Basic
import Tabletop.Text.FormCoding

/-
  The written form of a link: `macro://name/output/recipients?arguments`.

  1. **Arguments** — a tree is written as one coded text, segments are coded one by one and joined
     with `&`.

  2. **Reading** — the name ends at the first slash, the output at the next, the recipients at the
     first question mark; the scheme has to be spelled exactly.  The arguments are a tree if their
     first field writes one, and segments otherwise.

  3. **In running text** — a link in chat output reaches from its scheme to the next blank, quote or
     angle bracket.
-/
namespace Tabletop

/-! ## Arguments -/

/-- The coded arguments. -/
def LinkPayload.encodeChars : LinkPayload → List Char
  | .tree j => Text.FormCoding.encodeChars j.renderChars
  | .segments xs => Text.joinChars ['&'] (xs.map fun x => Text.FormCoding.encodeChars x.toList)

/-- The arguments that a coded text stands for. -/
def LinkPayload.decodeChars (cs : List Char) : LinkPayload :=
  match Json.parseTree? (String.ofList (Text.FormCoding.decodeFirst cs)) with
  | some j => .tree j
  | none =>
    .segments ((Text.FormCoding.fields cs).map fun f => String.ofList (Text.FormCoding.decodeFirst f))

namespace MacroLink

/-- What every link starts with. -/
def scheme : List Char := ['m', 'a', 'c', 'r', 'o', ':', '/', '/']

/-- The written form. -/
def encodeChars (l : MacroLink) : List Char :=
  scheme ++ l.name.toList ++ '/' :: l.output.name.toList ++ '/' :: l.recipients.render.toList ++
    '?' :: l.payload.encodeChars

/-- The written form. -/
def encode (l : MacroLink) : String := String.ofList l.encodeChars

/-- What follows the scheme of a text that has it. -/
def afterScheme? (cs : List Char) : Option (List Char) :=
  if scheme.isPrefixOf cs then some (cs.drop scheme.length) else none

/-- The link that a text writes, blanks around it aside. -/
def decode (s : String) : Option MacroLink := do
  let cs ← afterScheme? (Text.trimChars s.toList)
  let (name, cs) ← Text.cutAt (· == '/') cs
  let (output, cs) ← Text.cutAt (· == '/') cs
  let (recipients, payload) :=
    match Text.cutAt (· == '?') cs with
    | some (recipients, arguments) => (recipients, LinkPayload.decodeChars arguments)
    | none => (cs, .segments [])
  pure ⟨String.ofList name, .parse (String.ofList output), .parse (String.ofList recipients), payload⟩

/-! ## Links in running text -/

/-- A character that a link in running text may go on with. -/
def isLinkChar (c : Char) : Bool :=
  !(Text.isBlank c || c == '"' || c == '\'' || c == '<' || c == '>')

/-- The links of a text from left to right; the first `skip` characters belong to the link before. -/
def scanFrom : Nat → List Char → List (List Char)
  | _, [] => []
  | skip + 1, _ :: cs => scanFrom skip cs
  | 0, c :: cs =>
    match afterScheme? (c :: cs) with
    | none => scanFrom 0 cs
    | some rest =>
      let tail := rest.takeWhile isLinkChar
      if tail.isEmpty then scanFrom 0 cs
      else (scheme ++ tail) :: scanFrom (scheme.length + tail.length - 1) cs

/-- The links of a text from left to right. -/
def scan (s : String) : List String := (scanFrom 0 s.toList).map String.ofList

end MacroLink

end Tabletop
