import Tabletop.PropertyList.Basic
import Tabletop.Text.WordChar

/-
  Reading and writing property lists.

  1. **Segments** — the text is cut at every separator.  A segment holds an entry if somewhere in it
     a run of word characters or points stands before an equals sign, blanks between the two aside.
     The first such run is the key; all behind the sign is the value.

  2. **What is kept** — text of a segment in front of its key, whole segments without a key, the
     separators and the blanks behind a value are kept as the layout in front of the next key.

  3. **Repeated keys** — the first entry keeps its place, spelling and layout, the last value counts.

  4. **Writing** — every entry is `key=value`.  Entries without a layout are set off by the separator
     between blanks, and so is the end of a list that is not empty.
-/
namespace Tabletop.PropertyList

/-! ## One segment -/

/-- The characters of keys. -/
def isKeyChar (c : Char) : Bool := Text.isWordChar c || c == '.'

/-- Reads a key and an equals sign at the start of a text; answers with the key and what follows the
    sign, blanks aside. -/
def readPair? (cs : List Char) : Option (List Char × List Char) :=
  match Text.trimStart (cs.dropWhile isKeyChar) with
  | '=' :: value => some (cs.takeWhile isKeyChar, Text.trimStart value)
  | _ => none

/-- Finds the first run of key characters before an equals sign; answers with the text in front of
    it, the key, and the text of the value.  Inside a run that is no key nothing is tried. -/
def findPair? (inRun : Bool) : List Char → Option (List Char × List Char × List Char)
  | [] => none
  | c :: cs =>
    let later (inRun : Bool) := (findPair? inRun cs).map fun r => (c :: r.1, r.2)
    if isKeyChar c then
      if inRun then later true
      else
        match readPair? (c :: cs) with
        | some (key, value) => some ([], key, value)
        | none => later true
    else later false

/-! ## All segments -/

/-- What was read so far: the entries, and the layout since the last value. -/
structure ReadState where
  entries : List Property
  pending : List Char
deriving DecidableEq, Repr

/-- Nothing read yet. -/
def ReadState.start : ReadState := ⟨[], []⟩

/-- Reads one segment. -/
def readSegment (st : ReadState) (segment : List Char) : ReadState :=
  match findPair? false segment with
  | none => { st with pending := st.pending ++ segment }
  | some (before, key, raw) =>
    let value := String.ofList (Text.trimChars raw)
    let leading := String.ofList (st.pending ++ before)
    let entries :=
      match overwrite (Text.upperChars key) value st.entries with
      | some es => es
      | none =>
        st.entries ++
          [⟨String.ofList key, value, if st.entries.isEmpty then none else some leading⟩]
    ⟨entries, Text.blanksAtEnd raw⟩

/-- Reads segments with a separator in front of each. -/
def readSegments (delimiter : List Char) (st : ReadState) (segments : List (List Char)) :
    ReadState :=
  segments.foldl (fun st s => readSegment { st with pending := st.pending ++ delimiter } s) st

/-- Reads a property list. -/
def parse (s : String) (delimiter : String) : PropertyList :=
  let d := (new delimiter).delimiter
  let st :=
    match Text.splitChars d.toList s.toList with
    | [] => ReadState.start
    | first :: rest => readSegments d.toList (readSegment ReadState.start first) rest
  ⟨st.entries, d⟩

/-! ## Writing -/

/-- The separator between blanks. -/
def terminator (l : PropertyList) : List Char := ' ' :: l.delimiter.toList ++ [' ']

/-- One entry. -/
def entryChars (e : Property) : List Char := e.key.toList ++ '=' :: e.value.toList

/-- An entry that is not the first, with the layout in front of it. -/
def laterChars (terminator : List Char) (e : Property) : List Char :=
  (match e.leading with
    | some s => s.toList
    | none => terminator) ++ entryChars e

/-- The text of a list. -/
def renderChars (l : PropertyList) : List Char :=
  match l.entries with
  | [] => []
  | e :: es => entryChars e ++ es.flatMap (laterChars l.terminator) ++ l.terminator

/-- The text of a list. -/
def render (l : PropertyList) : String := String.ofList l.renderChars

end Tabletop.PropertyList
