import Tabletop.Macro.Action

/-
  What a macro can do to the table.

  Macros change a table in very few ways, and who may make a change depends on two things only: on
  the subject of the macro and on its trust.  This file says so once, as a transition system that
  knows nothing of expressions, bodies or built-in functions.

  1. **Authority** — the subject and the trust of a running macro.

  2. **Changes** — `Table.Change a t u`: a macro with authority `a` can turn the table `t` into `u` by
     one step of its own.  Every guard of a built-in function is a premise here: whose token is
     stored, who joins the turn order, what only a trusted macro does.

  3. **Courses** — `Table.Course a t u`: changes one after another, and macros started in between,
     each with the authority that follows from the holder of its text at the moment when it starts.
     An untrusted macro can start others only for its own subject.

  That all bodies stay within courses is proved elsewhere.  A safety property of the language is then
  an induction over a course, with one case for each kind of change.
-/
namespace Tabletop

/-! ## Authority -/

/-- For whom a macro runs, and whether it is trusted. -/
structure Authority where
  subject : Option TokenId
  trusted : Bool
deriving DecidableEq, Repr, Inhabited

/-- The authority of the macro that runs in a frame. -/
def Frame.authority (f : Frame) : Authority := ⟨f.subject, f.trusted⟩

/-- Two states of a token between which no macro can tell its holder apart: the id, the owners and the
    buttons are the same.  The name, the properties and the states may differ. -/
structure Token.SameHolder (old new : Token) : Prop where
  id : new.id = old.id
  owners : new.owners = old.owners
  ownedByAll : new.ownedByAll = old.ownedByAll
  buttons : new.buttons = old.buttons

theorem Token.SameHolder.refl (t : Token) : t.SameHolder t := ⟨rfl, rfl, rfl, rfl⟩

theorem Token.SameHolder.trans {t u v : Token} (h : t.SameHolder u) (h' : u.SameHolder v) :
    t.SameHolder v :=
  ⟨h'.id.trans h.id, h'.owners.trans h.owners, h'.ownedByAll.trans h.ownedByAll,
    h'.buttons.trans h.buttons⟩

namespace Table

/-- The table with the turn order changed. -/
def withInitiative (t : Table) (l : InitiativeList) : Table :=
  { t with campaign := { t.campaign with initiative := l } }

/-! ## Changes -/

/-- One change of the table that a macro makes by itself. -/
inductive Change (a : Authority) (t : Table) : Table → Prop
  | roll (dice : Dice.Generator) : Change a t { t with dice }
  /-- Stores a token that was read from the table: the subject, unless the macro is trusted. -/
  | store {old new : Token} (mem : old ∈ t.campaign.tokens) (same : old.SameHolder new)
      (may : a.trusted = true ∨ a.subject = some old.id) :
      Change a t { t with campaign := t.campaign.putToken new }
  | join {id : TokenId} (is : a.subject = some id) (initiative : Option String) :
      Change a t (t.withInitiative (t.campaign.initiative.add id initiative))
  | leave {id : TokenId} (is : a.subject = some id) :
      Change a t (t.withInitiative (t.campaign.initiative.remove id))
  | setRound (may : a.trusted = true) (round : Int) :
      Change a t (t.withInitiative { t.campaign.initiative with round })
  | next (may : a.trusted = true) : Change a t (t.withInitiative t.campaign.initiative.next)
  | deliver (may : a.trusted = true) (m : ChatMessage) :
      Change a t { t with campaign := t.campaign.deliver m }
  | define (may : a.trusted = true) (name : String) (d : Definition) :
      Change a t { t with functions := t.functions.define name d }
  | enqueue (may : a.trusted = true) (link : String) :
      Change a t { t with queue := t.queue ++ [link] }

/-! ## Courses -/

/-- What comes of a macro: its own changes, and the courses of the macros that it starts. -/
inductive Course : Authority → Table → Table → Prop
  | nothing (a : Authority) (t : Table) : Course a t t
  | change {a : Authority} {t u v : Table} (before : Course a t u) (last : Change a u v) :
      Course a t v
  /-- A macro is started whose text lies on a token.  Its trust is that of the holder at this moment. -/
  | start {a : Authority} {t u v : Table} (before : Course a t u) (holder : TokenId)
      (subject : Option TokenId) (may : a.trusted = true ∨ subject = a.subject)
      (inner : Course ⟨subject, u.campaign.trusts (.token holder)⟩ u v) : Course a t v

/-- One course goes on where another one ends. -/
theorem Course.trans {a : Authority} {t u v : Table} (h : Course a t u) (h' : Course a u v) :
    Course a t v := by
  induction h' with
  | nothing => exact h
  | change _ last ih => exact (ih h).change last
  | start _ holder subject may inner ih _ => exact (ih h).start holder subject may inner

/-- A single change is a course. -/
theorem Change.course {a : Authority} {t u : Table} (h : Change a t u) : Course a t u :=
  (Course.nothing a t).change h

/-- What every single change only adds to at the end, a whole course only adds to at the end. -/
theorem Course.isPrefix {β : Type} {view : Table → List β}
    (step : ∀ {a : Authority} {t u : Table}, Change a t u → view t <+: view u) {a : Authority}
    {t u : Table} (h : Course a t u) : view t <+: view u := by
  induction h with
  | nothing => exact List.prefix_refl _
  | change _ last ih => exact ih.trans (step last)
  | start _ _ _ _ _ ih ih_inner => exact ih.trans ih_inner

end Table

end Tabletop
