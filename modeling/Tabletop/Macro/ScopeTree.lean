import Tabletop.Macro.Variables
import Tabletop.Campaign.TokenId

/-
  Scopes that share variables or have their own.

  1. **Scopes** — a scope has variables and perhaps a subject, the token that its macros are about.

  2. **Children** — a child shares the variables of its parent or starts without any.  It keeps the
     subject of its parent unless it is given one.

  3. **Sharing** — variables are held apart from the scopes: two scopes share them if they point at
     the same place.
-/
namespace Tabletop

/-- A scope among others. -/
structure Scope where
  /-- The place of its variables. -/
  place : Nat
  subject : Option TokenId
deriving DecidableEq, Repr, Inhabited

/-- All scopes in the order in which they were made, and the variables that they point at. -/
structure ScopeTree where
  scopes : List Scope
  places : List Variables
deriving Repr, Inhabited

namespace ScopeTree

/-- One scope without variables. -/
def root (subject : Option TokenId) : ScopeTree := ⟨[⟨0, subject⟩], [[]]⟩

/-- A scope by its number. -/
def scope? (t : ScopeTree) (i : Nat) : Option Scope := t.scopes[i]?

/-- The variables of a scope. -/
def bindings (t : ScopeTree) (i : Nat) : Variables :=
  ((t.scope? i).bind fun s => t.places[s.place]?).getD []

/-- The subject of a scope. -/
def subject (t : ScopeTree) (i : Nat) : Option TokenId := (t.scope? i).bind Scope.subject

/-- Two scopes share their variables. -/
def shares (t : ScopeTree) (i j : Nat) : Bool :=
  match t.scope? i, t.scope? j with
  | some a, some b => a.place == b.place
  | _, _ => false

/-- Adds a child of a scope.  `subject` is the subject that it is given, if it is given one. -/
def child (t : ScopeTree) (i : Nat) (share : Bool) (subject : Option (Option TokenId)) :
    ScopeTree :=
  match t.scope? i with
  | none => t
  | some s =>
    let kept := subject.getD s.subject
    if share then ⟨t.scopes ++ [⟨s.place, kept⟩], t.places⟩
    else ⟨t.scopes ++ [⟨t.places.length, kept⟩], t.places ++ [[]]⟩

/-- Changes the variables of a scope. -/
def update (t : ScopeTree) (i : Nat) (f : Variables → Variables) : ScopeTree :=
  match t.scope? i with
  | none => t
  | some s => { t with places := t.places.modify s.place f }

/-- Sets a variable. -/
def bind (t : ScopeTree) (i : Nat) (name : String) (v : Value) : ScopeTree :=
  t.update i (Assoc.insert · name v)

/-- Takes a variable out. -/
def unbind (t : ScopeTree) (i : Nat) (name : String) : ScopeTree := t.update i (Assoc.erase · name)

/-- The value of a variable. -/
def resolve? (t : ScopeTree) (i : Nat) (name : String) : Option Value :=
  Assoc.get? (t.bindings i) name

/-- Copies the value that a child hands back into its parent, unless the two share it anyway. -/
def takeReturn (t : ScopeTree) (i child : Nat) : ScopeTree :=
  match t.resolve? child Variables.returnName with
  | some v => if t.shares i child then t else t.bind i Variables.returnName v
  | none => t

end ScopeTree

end Tabletop
