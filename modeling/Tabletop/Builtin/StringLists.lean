import Tabletop.Builtin.Basic
import Tabletop.StringList

/-
  Functions on string lists.  Items lose the blanks around them, and every edited list is written
  with a comma and a blank between the items.
-/
namespace Tabletop.Builtin

open Arguments

/-- The items in the first argument; the argument at `i` may name a separator. -/
def itemsOf (args : List Value) (i : Nat) : List String :=
  StringList.items (textAt args 0) (delimiterAt args i StringList.defaultDelimiter)

/-- An item in an argument. -/
def itemAt (args : List Value) (i : Nat) : String := Text.trim (textAt args i)

def listGet : Builtin :=
  computing "listGet" (.upTo 2 1) "Item at a position, or empty text out of range"
    fun name args => do
      let position ← positionAt args name 1
      pure (((position.bind fun i => (itemsOf args 2)[i]?).map Value.coerce).getD .empty)

def listDelete : Builtin :=
  computing "listDelete" (.upTo 2 1) "List without the item at a position"
    fun name args => do
      let items := itemsOf args 2
      let rest :=
        match ← positionAt args name 1 with
        | some i => items.eraseIdx i
        | none => items
      pure (.text (StringList.render rest))

def listCount : Builtin :=
  computing "listCount" (.upTo 1 1) "Number of items"
    fun _ args => .ok (.ofInt (itemsOf args 1).length)

def listFind : Builtin :=
  computing "listFind" (.upTo 2 1) "Position of the first case-insensitive match, or -1"
    fun _ args =>
      match (itemsOf args 2).findIdx? (Text.sameName · (itemAt args 1)) with
      | some i => .ok (.ofInt i)
      | none => .ok (.ofInt (-1))

def listAppend : Builtin :=
  computing "listAppend" (.upTo 2 1) "List with an item added at the end"
    fun _ args => .ok (.text (StringList.render (itemsOf args 2 ++ [itemAt args 1])))

def listInsert : Builtin :=
  computing "listInsert" (.upTo 3 1)
    "List with an item inserted before a position; past the end appends"
    fun name args => do
      match ← positionAt args name 1 with
      | some i =>
        let items := itemsOf args 3
        pure (.text (StringList.render (items.take i ++ itemAt args 2 :: items.drop i)))
      | none => fault name 1 .negativePosition

def listReplace : Builtin :=
  computing "listReplace" (.upTo 3 1) "List with the item at a position replaced"
    fun name args => do
      let items := itemsOf args 3
      let changed :=
        match ← positionAt args name 1 with
        | some i => items.set i (itemAt args 2)
        | none => items
      pure (.text (StringList.render changed))

/-- The functions on string lists. -/
def stringLists : List Builtin :=
  [listGet, listDelete, listCount, listFind, listAppend, listInsert, listReplace]

end Tabletop.Builtin
