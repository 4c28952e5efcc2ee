import Tabletop.Builtin.Basic
import Tabletop.PropertyList.Text
import Tabletop.StringList
import Tabletop.Text.Replace

/-
  Functions on property lists.

  An entry can be read by its key or its position, and a list can be spread over variables and
  collected from them.  With the style `SUFFIXED` the variable of a key ends in `_`.
-/
namespace Tabletop.Builtin

open Arguments

/-- The list in the first argument; the argument at `i` may name a separator. -/
def propertiesOf (args : List Value) (i : Nat) : PropertyList :=
  PropertyList.parse (textAt args 0) (delimiterAt args i PropertyList.defaultDelimiter)

/-- The entry at the position in the second argument. -/
def entryAt? (function : String) (args : List Value) : Except MacroError (Option Property) := do
  let position ← positionAt args function 1
  pure (position.bind fun i => (propertiesOf args 2).entries[i]?)

/-! ## Entries -/

def getStrProp : Builtin :=
  computing "getStrProp" (.upTo 2 2) "Value of a key, or the default (empty text) when absent"
    fun _ args => .ok (((propertiesOf args 3).value? (textAt args 1)).getD (valueAt args 2))

def setStrProp : Builtin :=
  computing "setStrProp" (.upTo 3 1) "Set a key, keeping the order and casing of existing entries"
    fun _ args => .ok (.text ((propertiesOf args 3).set (textAt args 1) (textAt args 2)).render)

def deleteStrProp : Builtin :=
  computing "deleteStrProp" (.upTo 2 1) "Remove a key; removing a missing key is not an error"
    fun _ args => .ok (.text ((propertiesOf args 2).delete (textAt args 1)).render)

def countStrProp : Builtin :=
  computing "countStrProp" (.upTo 1 1) "Number of entries"
    fun _ args => .ok (.ofInt (propertiesOf args 1).entries.length)

def indexKeyStrProp : Builtin :=
  computing "indexKeyStrProp" (.upTo 2 1) "Key at a position, or empty text out of range"
    fun name args => do
      let entry ← entryAt? name args
      pure (.text ((entry.map Property.key).getD ""))

def indexValueStrProp : Builtin :=
  computing "indexValueStrProp" (.upTo 2 1) "Value at a position, or empty text out of range"
    fun name args => do
      let entry ← entryAt? name args
      pure ((entry.map fun e => Value.coerce e.value).getD .empty)

/-! ## Variables -/

/-- How the keys of a list become variables. -/
inductive VariableStyle where
  | none
  | suffixed
  | unsuffixed
deriving DecidableEq, Repr, Inhabited

/-- The style of a word in any case. -/
def VariableStyle.parse (s : String) : Option VariableStyle :=
  match Text.upper s with
  | "NONE" => some .none
  | "SUFFIXED" => some .suffixed
  | "UNSUFFIXED" => some .unsuffixed
  | _ => Option.none

/-- The variable of a key. -/
def VariableStyle.variableOf (style : VariableStyle) (key : String) : String :=
  if style = .suffixed then key ++ "_" else key

/-- The style and the separator in the arguments.  A second argument that is no style is the
    separator if it is the last one. -/
def styleOf (function : String) (args : List Value) : Except MacroError (VariableStyle × String) :=
  if args.length ≤ 1 then .ok (.unsuffixed, PropertyList.defaultDelimiter)
  else
    match VariableStyle.parse (textAt args 1) with
    | some style => .ok (style, delimiterAt args 2 PropertyList.defaultDelimiter)
    | none =>
      if args.length = 2 then .ok (.unsuffixed, textAt args 1)
      else fault function 1 (.notStyle (textAt args 1))

/-- Binds the entries of a list as variables. -/
def bindEntries (style : VariableStyle) (entries : List Property) (vars : Variables) : Variables :=
  entries.foldl (fun vars e => Assoc.insert vars (style.variableOf e.key) (.coerce e.value)) vars

def varsFromStrProp : Builtin :=
  acting "varsFromStrProp" (.upTo 1 2)
    ("Bind each entry as a variable; returns the number of entries  With two arguments, a second " ++
      "argument that is not a style is taken as the delimiter.")
    fun _ name args => do
      let (style, delimiter) ← Action.ofExcept (styleOf name args)
      if style = .none then pure (.ofInt 0)
      else
        let l := PropertyList.parse (textAt args 0) delimiter
        Action.modifyVariables (bindEntries style l.entries)
        pure (.ofInt l.entries.length)

/-- The style in the second argument, where only two of them make sense. -/
def suffixStyleOf (function : String) (args : List Value) : Except MacroError VariableStyle :=
  match VariableStyle.parse (textAt args 1) with
  | some .suffixed => .ok .suffixed
  | some .unsuffixed => .ok .unsuffixed
  | _ => fault function 1 (.notSuffixStyle (textAt args 1))

/-- The list of the names that have a value. -/
def collectEntries (vars : Variables) (style : VariableStyle) (delimiter : String)
    (names : List String) : PropertyList :=
  names.foldl (fun l name =>
    match if name = "" then none else Assoc.get? vars (style.variableOf name) with
    | some v => l.set name v.display
    | none => l) (.new delimiter)

def strPropFromVars : Builtin :=
  acting "strPropFromVars" (.upTo 2 1)
    "Build a property list from the named variables; unbound names are skipped"
    fun _ name args => do
      let style ← Action.ofExcept (suffixStyleOf name args)
      let delimiter := delimiterAt args 2 PropertyList.defaultDelimiter
      let names := StringList.items (textAt args 0) StringList.defaultDelimiter
      pure (.text (collectEntries (← get).bindings style delimiter names).render)

/-! ## Formatting -/

/-- An entry in a format with `%key` and `%value`. -/
def formatEntry (format : String) (e : Property) : String :=
  Text.replace "%value" e.value (Text.replace "%key" e.key format)

def formatStrProp : Builtin :=
  computing "formatStrProp" (.upTo 4 1)
    "Format entries with `%key` and `%value`, then place them at `%list`"
    fun _ args =>
      let entries := (propertiesOf args 4).entries.map (formatEntry (textAt args 2))
      .ok (.text (Text.replaceFirst "%list" (Text.join (textAt args 3) entries) (textAt args 1)))

/-- The functions on property lists. -/
def propertyLists : List Builtin :=
  [getStrProp, setStrProp, deleteStrProp, countStrProp, indexKeyStrProp, indexValueStrProp,
    varsFromStrProp, strPropFromVars, formatStrProp]

end Tabletop.Builtin
