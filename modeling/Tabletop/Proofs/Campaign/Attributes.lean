import Tabletop.Proofs.Authority.Builtins
import Tabletop.Proofs.Calls.Outcome
import Tabletop.Proofs.Text.Pieces
import Tabletop.Table.Interpreter

/-
  What a macro sets on its subject, and what it reads there again.

  1. **Sorted entries** — putting an entry in leaves all others where they are (`exists_insert`).  So a
     search that passes over the new key finds what it found before (`find?_insert_of_not`), and one that
     could only stop at this key stops there (`find?_insert_of_first`).

  2. **Attributes** — properties and states are both entries of a token; they differ in which names
     count as equal, in what is kept of a value, and in what is read where nothing is set.  A setter
     changes one entry, under the spelling that it has (`Attribute.sets_write`).

  3. **Calls** — a setter trims the name, a getter takes it as it is (`call_setter`, `call_getter`).  So
     what was set under a name with blanks at its ends is read under the name without them, and the
     getter does not find it under the very name that the setter took (`read_back_iff`).
-/
namespace Tabletop

/-! ## Sorted entries -/

namespace SortedMap

variable {α β : Type} (key : String) (value : α) {l : List (String × α)}

/-- One entry is new, or another one under its key; the others stay where they are. -/
theorem exists_insert (l : List (String × α)) : ∃ before after,
    insertEntry key value l = before ++ (key, value) :: after ∧
      (l = before ++ after ∨ ∃ old, l = before ++ (key, old) :: after) := by
  induction l with
  | nil => exact ⟨[], [], rfl, .inl rfl⟩
  | cons x rest ih =>
    obtain ⟨k, v⟩ := x
    rw [insertEntry]
    split
    · exact ⟨[], (k, v) :: rest, rfl, .inl rfl⟩
    · split
      · next hk => exact ⟨[], rest, by rw [hk]; rfl, .inr ⟨v, by rw [hk]; rfl⟩⟩
      · obtain ⟨before, after, hinsert, hl⟩ := ih
        refine ⟨(k, v) :: before, after, by rw [hinsert]; rfl, ?_⟩
        rcases hl with hl | ⟨old, hl⟩
        · exact .inl (by rw [hl]; rfl)
        · exact .inr ⟨old, by rw [hl]; rfl⟩

/-- The values of the entries may be translated before or after. -/
theorem map_insertEntry (g : α → β) (l : List (String × α)) :
    (insertEntry key value l).map (fun e => (e.1, g e.2)) =
      insertEntry key (g value) (l.map fun e => (e.1, g e.2)) := by
  induction l with
  | nil => rfl
  | cons x rest ih =>
    rw [List.map_cons, insertEntry, insertEntry, ← ih]
    split
    · rfl
    · split <;> rfl

variable {p : String → Bool}

/-- What the test does not accept is not in the way. -/
theorem find?_insert_of_not (hkey : p key = false) :
    (insertEntry key value l).find? (fun e => p e.1) = l.find? fun e => p e.1 := by
  obtain ⟨before, after, hinsert, hl⟩ := exists_insert key value l
  have hpass (w : α) (rest : List (String × α)) :
      ((key, w) :: rest).find? (fun e => p e.1) = rest.find? fun e => p e.1 :=
    List.find?_cons_of_neg (by simp [hkey])
  rcases hl with rfl | ⟨old, rfl⟩
  · rw [hinsert, List.find?_append, hpass, List.find?_append]
  · rw [hinsert, List.find?_append, hpass, List.find?_append, hpass]

/-- The first entry that the test accepts is the new one, unless another key came first before. -/
theorem find?_insert_of_first (sorted : l.Pairwise fun a b => a.1 < b.1) (hkey : p key = true)
    (first : ∀ e, l.find? (fun e => p e.1) = some e → e.1 = key) :
    (insertEntry key value l).find? (fun e => p e.1) = some (key, value) := by
  have hsorted := sorted_insertEntry key value sorted
  obtain ⟨before, after, hinsert, hl⟩ := exists_insert key value l
  rw [hinsert] at hsorted ⊢
  have hbefore : before.find? (fun e => p e.1) = none := by
    cases hfind : before.find? (fun e => p e.1) with
    | none => rfl
    | some e =>
      have hfirst : l.find? (fun e => p e.1) = some e := by
        rcases hl with rfl | ⟨old, rfl⟩ <;> rw [List.find?_append, hfind, Option.some_or]
      have hlt : e.1 < key := (List.pairwise_append.1 hsorted).2.2 e (List.mem_of_find?_eq_some hfind)
        (key, value) List.mem_cons_self
      exact absurd (first e hfirst) (String.ne_of_lt hlt)
  rw [List.find?_append, hbefore, Option.none_or]
  exact List.find?_cons_of_pos hkey

/-- A key that is there keeps its place. -/
theorem exists_insert_of_mem (sorted : l.Pairwise fun a b => a.1 < b.1) (hkey : ∃ e ∈ l, e.1 = key) :
    ∃ before old after, l = before ++ (key, old) :: after ∧
      insertEntry key value l = before ++ (key, value) :: after := by
  have hsorted := sorted_insertEntry key value sorted
  obtain ⟨before, after, hinsert, rfl | ⟨old, hl⟩⟩ := exists_insert key value l
  · rw [hinsert] at hsorted
    obtain ⟨-, hafter, hbefore⟩ := List.pairwise_append.1 hsorted
    obtain ⟨e, he, rfl⟩ := hkey
    rcases List.mem_append.1 he with he | he
    · exact absurd (hbefore e he _ List.mem_cons_self) (String.lt_irrefl _)
    · exact absurd ((List.pairwise_cons.1 hafter).1 e he) (String.lt_irrefl _)
  · exact ⟨before, old, after, hl, hinsert⟩

/-- A key that is not there gets an entry of its own. -/
theorem exists_insert_of_not_mem (hkey : ∀ e ∈ l, e.1 ≠ key) :
    ∃ before after, l = before ++ after ∧
      insertEntry key value l = before ++ (key, value) :: after := by
  obtain ⟨before, after, hinsert, hl | ⟨old, rfl⟩⟩ := exists_insert key value l
  · exact ⟨before, after, hl, hinsert⟩
  · exact absurd rfl (hkey (key, old) (List.mem_append_right _ List.mem_cons_self))

end SortedMap

/-! ## Attributes -/

/-- What a macro may set on a token under a name. -/
inductive Attribute where
  | property
  | state
deriving DecidableEq, Repr

namespace Attribute

def setter : Attribute → String
  | property => "setProperty"
  | state => "setState"

def getter : Attribute → String
  | property => "getProperty"
  | state => "getState"

/-- What an empty name is called in an error. -/
def kind : Attribute → NameKind
  | property => .property
  | state => .state

/-- Names under which the same is found: properties ignore the case of A to Z. -/
def sameKey : Attribute → String → String → Bool
  | property, x, y => Text.sameName x y
  | state, x, y => x == y

/-- What a token keeps of a value: its text, or whether it counts as true. -/
def kept : Attribute → Value → Value
  | property, v => .text v.display
  | state, v => .ofBool v.isTrue

/-- What is read where nothing is set. -/
def unset : Attribute → Value
  | property => .empty
  | state => .ofBool false

/-- The answer of the setter. -/
def reply : Attribute → Value → Value
  | property, _ => .empty
  | state, v => .ofBool v.isTrue

/-- The names in order with what is kept under them. -/
def entries : Attribute → Token → List (String × Value)
  | property, t => t.properties.entries.map fun e => (e.1, .text e.2)
  | state, t => t.states.entries.map fun e => (e.1, .ofBool e.2)

/-- The token after the setter. -/
def write : Attribute → Token → String → Value → Token
  | property, t, name, v => t.setProperty name v.display
  | state, t, name, v => t.setState name v.isTrue

variable (a : Attribute) (t : Token) (name : String) (v : Value)

/-- What is kept under a name. -/
def held? : Option Value := ((a.entries t).find? fun e => a.sameKey e.1 name).map Prod.snd

/-- The value that is read under a name: a text that writes a number is the number. -/
def read : Value := ((a.held? t name).map Value.coerced).getD a.unset

/-- The spelling under which a name is set. -/
def spelling : String :=
  (((a.entries t).find? fun e => a.sameKey e.1 name).map Prod.fst).getD name

/-- Tokens that differ in this attribute at most. -/
def SameRest : Attribute → Token → Token → Prop
  | property, t, t' => t' = { t with properties := t'.properties }
  | state, t, t' => t' = { t with states := t'.states }

/-- The attribute of this name, and nothing else of the token, is set to `w`. -/
structure Sets (w : Value) (t' : Token) : Prop where
  same_rest : a.SameRest t t'
  /-- Equal names find the new value, all others what they found before. -/
  held?_eq : ∀ other, a.held? t' other = if a.sameKey name other then some w else a.held? t other
  /-- A name that finds something changes its value in place; the spelling stays. -/
  in_place : (a.held? t name).isSome → ∃ before key old after, a.sameKey key name = true ∧
    a.entries t = before ++ (key, old) :: after ∧ a.entries t' = before ++ (key, w) :: after
  /-- A name that finds nothing is added. -/
  added : a.held? t name = none → ∃ before after,
    a.entries t = before ++ after ∧ a.entries t' = before ++ (name, w) :: after

/-! ### Equal names -/

variable {a t name v} {x y z : String}

theorem sameKey_refl : a.sameKey x x = true := by
  cases a with
  | property => exact Text.sameName_refl x
  | state => exact beq_self_eq_true x

theorem sameKey_comm : a.sameKey x y = a.sameKey y x := by
  cases a with
  | property => exact Text.sameName_comm x y
  | state => exact BEq.comm

theorem sameKey_trans (h : a.sameKey x y = true) (h' : a.sameKey y z = true) : a.sameKey x z = true := by
  cases a with
  | property => exact Text.sameName_trans h h'
  | state => exact beq_iff_eq.2 ((beq_iff_eq.1 h).trans (beq_iff_eq.1 h'))

/-- A name with blanks at its ends is another one without them. -/
theorem sameKey_trim_iff : a.sameKey (Text.trim x) x = true ↔ Text.trim x = x := by
  refine ⟨fun h => ?_, fun h => h.symm ▸ sameKey_refl⟩
  cases a with
  | state => exact beq_iff_eq.1 h
  | property =>
    obtain ⟨before, after, -, -, hx⟩ := Text.exists_trimChars x.toList
    have hlower : ((Text.trim x).toList.map Char.toLower).length = (x.toList.map Char.toLower).length :=
      congrArg List.length (beq_iff_eq.1 h)
    rw [Text.trim, String.toList_ofList, List.length_map, List.length_map] at hlower
    have hsum := congrArg List.length hx
    rw [List.length_append, List.length_append] at hsum
    have hbefore : before = [] := List.length_eq_zero_iff.1 (by omega)
    have hafter : after = [] := List.length_eq_zero_iff.1 (by omega)
    rw [hbefore, hafter, List.nil_append, List.append_nil] at hx
    rw [Text.trim, ← hx, String.ofList_toList]

/-! ### Writing -/

theorem sorted_entries : (a.entries t).Pairwise fun e e' => e.1 < e'.1 := by
  cases a with
  | property => exact List.pairwise_map.2 t.properties.sorted
  | state => exact List.pairwise_map.2 t.states.sorted

/-- The entry under which a name is set. -/
theorem sameKey_spelling : a.sameKey (a.spelling t name) name = true := by
  unfold spelling
  cases h : (a.entries t).find? fun e => a.sameKey e.1 name with
  | none => exact sameKey_refl
  | some e =>
    have he := List.find?_some h
    exact he

/-- The setter puts one entry in. -/
theorem entries_write :
    a.entries (a.write t name v) =
      SortedMap.insertEntry (a.spelling t name) (a.kept v) (a.entries t) := by
  cases a with
  | property =>
    have hspelling : property.spelling t name = ((t.findProperty? name).map Prod.fst).getD name := by
      show ((List.find? _ (List.map _ _)).map Prod.fst).getD name = _
      rw [List.find?_map, Option.map_map]
      rfl
    rw [hspelling]
    exact SortedMap.map_insertEntry _ v.display Value.text t.properties.entries
  | state =>
    have hsame : state.sameKey (state.spelling t name) name = true := sameKey_spelling
    have hspelling : state.spelling t name = name := beq_iff_eq.1 hsame
    rw [hspelling]
    exact SortedMap.map_insertEntry name v.isTrue Value.ofBool t.states.entries

theorem held?_write (other : String) :
    a.held? (a.write t name v) other =
      if a.sameKey name other then some (a.kept v) else a.held? t other := by
  unfold held?
  rw [entries_write]
  have hspelling : a.sameKey (a.spelling t name) name = true := sameKey_spelling
  cases h : a.sameKey name other with
  | false =>
    have hother : a.sameKey (a.spelling t name) other = false := by
      cases h' : a.sameKey (a.spelling t name) other with
      | false => rfl
      | true => rw [sameKey_trans (sameKey_comm.trans hspelling) h'] at h; cases h
    rw [SortedMap.find?_insert_of_not _ _ (p := fun k => a.sameKey k other) hother, if_neg nofun]
  | true =>
    -- the names find the same, so that the spelling is the one that is found first
    have hfind : (fun e : String × Value => a.sameKey e.1 other) = fun e => a.sameKey e.1 name := by
      funext e
      refine Bool.eq_iff_iff.2 ⟨fun h' => sameKey_trans h' (sameKey_comm.trans h), fun h' => ?_⟩
      exact sameKey_trans h' h
    rw [hfind, if_pos rfl, SortedMap.find?_insert_of_first (p := fun k => a.sameKey k name) _ _
      sorted_entries hspelling fun e he => by rw [spelling, he]; rfl]
    rfl

/-- **A setter changes one entry, and nothing else of the token.** -/
theorem sets_write : a.Sets t name (a.kept v) (a.write t name v) where
  same_rest := by cases a <;> rfl
  held?_eq := held?_write
  in_place h := by
    obtain ⟨w, hw⟩ := Option.isSome_iff_exists.1 h
    obtain ⟨e, he, -⟩ := Option.map_eq_some_iff.1 hw
    have hkey : ∃ e ∈ a.entries t, e.1 = a.spelling t name :=
      ⟨e, List.mem_of_find?_eq_some he, by rw [spelling, he]; rfl⟩
    obtain ⟨before, old, after, ht, hinsert⟩ :=
      SortedMap.exists_insert_of_mem (a.spelling t name) (a.kept v) sorted_entries hkey
    exact ⟨before, a.spelling t name, old, after, sameKey_spelling, ht, entries_write.trans hinsert⟩
  added h := by
    have hfind : (a.entries t).find? (fun e => a.sameKey e.1 name) = none := Option.map_eq_none_iff.1 h
    have hspelling : a.spelling t name = name := by rw [spelling, hfind]; rfl
    have hkey : ∀ e ∈ a.entries t, e.1 ≠ name := fun e he heq =>
      List.find?_eq_none.1 hfind e he (heq.symm ▸ sameKey_refl)
    obtain ⟨before, after, ht, hinsert⟩ := SortedMap.exists_insert_of_not_mem name (a.kept v) hkey
    exact ⟨before, after, ht, by rw [entries_write, hspelling, hinsert]⟩

/-- Under an equal name the new value is read, under any other one what was read before. -/
theorem read_write (other : String) :
    a.read (a.write t name v) other =
      if a.sameKey name other then (a.kept v).coerced else a.read t other := by
  rw [read, held?_write]
  split <;> rfl

end Attribute

/-! ## Storing a token -/

namespace Campaign

/-- The campaign with one token in the place of another one; all else stays. -/
def Replaces (c : Campaign) (t t' : Token) (c' : Campaign) : Prop :=
  ∃ before after, c.tokens = before ++ t :: after ∧ c' = { c with tokens := before ++ t' :: after }

variable {c : Campaign} {id : TokenId} {t t' : Token}

theorem replaceFirst_append {before : List Token} (hbefore : ∀ u ∈ before, u.id ≠ t'.id)
    (same : t.id = t'.id) (after : List Token) :
    replaceFirst t' (before ++ t :: after) = before ++ t' :: after := by
  induction before with
  | nil => exact if_pos same
  | cons u us ih =>
    rw [List.cons_append, replaceFirst, if_neg (hbefore u List.mem_cons_self),
      ih fun w hw => hbefore w (List.mem_cons_of_mem _ hw)]
    rfl

/-- Storing a new state of a token that an id finds puts it in its place, where the id finds it. -/
theorem putToken_of_token? (present : c.token? id = some t) (same : t'.id = t.id) :
    c.Replaces t t' (c.putToken t') ∧ (c.putToken t').token? id = some t' := by
  obtain ⟨-, rfl⟩ := mem_of_token?_eq_some present
  obtain ⟨-, before, after, htokens, hbefore⟩ := List.find?_eq_some_iff_append.1 present
  have hne : ∀ u ∈ before, u.id ≠ t.id := fun u hu => by simpa using hbefore u hu
  have hput : c.putToken t' = { c with tokens := before ++ t' :: after } := by
    rw [putToken, htokens, replaceFirst_append (fun u hu => same ▸ hne u hu) same.symm]
  refine ⟨⟨before, after, htokens, hput⟩, ?_⟩
  rw [hput]
  exact List.find?_eq_some_iff_append.2 ⟨beq_iff_eq.2 same, before, after, rfl, hbefore⟩

end Campaign

/-! ## Calls -/

/-- The state with another campaign on the table. -/
def RunState.withCampaign (s : RunState) (c : Campaign) : RunState :=
  { s with table := { s.table with campaign := c } }

/-- The subject of the frame is this token. -/
def Frame.IsAbout (f : Frame) (c : Campaign) (t : Token) : Prop :=
  f.subject = some t.id ∧ c.token? t.id = some t

variable {f : Frame} {s : RunState} {t : Token}

theorem Action.subjectToken_apply (h : f.IsAbout s.table.campaign t) (function : String) :
    Action.subjectToken function f s = (.ok t, s) := by
  unfold Action.subjectToken
  rw [bind_apply, requireSubject_apply, h.1]
  dsimp only
  rw [bind_apply, campaign_apply]
  dsimp only
  rw [h.2]
  rfl

namespace Builtin

theorem nameAt_apply (kind : NameKind) (function : String) (args : List Value) (i : Nat) :
    nameAt kind function args i f s =
      if Text.trim (Arguments.textAt args i) = "" then
        (.error (.error (.malformedArgument function (i + 1) (.emptyName kind))), s)
      else (.ok (Text.trim (Arguments.textAt args i)), s) := by
  unfold nameAt
  by_cases h : Text.trim (Arguments.textAt args i) = ""
  · rw [if_pos h, if_pos h]
    rfl
  · rw [if_neg h, if_neg h]
    rfl

theorem store_apply {t' : Token} (present : s.table.campaign.token? t'.id = some t) (function : String) :
    store function t' f s = (.ok (), s.withCampaign (s.table.campaign.putToken t')) := by
  unfold store
  rw [Action.bind_apply, Action.campaign_apply]
  dsimp only
  rw [present]
  rfl

variable (h : f.IsAbout s.table.campaign t)
include h

/-- A function that looks at the subject under a name. -/
theorem look_apply (function : String) (n : Value) (g : Token → Value) :
    (readToken function [n] 1 >>= fun t => pure (g t)) f s = (.ok (g t), s) := by
  have hread : readToken function [n] 1 f s = (.ok t, s) := Action.subjectToken_apply h function
  rw [Action.bind_apply, hread]
  rfl

/-- A function that changes the subject under a name. -/
theorem change_apply (kind : NameKind) (function : String) (n v : Value) (g : String → Token → Token)
    (same : ∀ name, (g name t).id = t.id) (r : Value) :
    (do
      let name ← nameAt kind function [n, v] 0
      let t ← tokenToChange function [n, v] 2
      store function (g name t)
      pure r) f s =
      if Text.trim n.display = "" then
        (.error (.error (.malformedArgument function 1 (.emptyName kind))), s)
      else (.ok r, s.withCampaign (s.table.campaign.putToken (g (Text.trim n.display) t))) := by
  have hread : tokenToChange function [n, v] 2 f s = (.ok t, s) := Action.subjectToken_apply h function
  have hname : nameAt kind function [n, v] 0 f s =
      if Text.trim n.display = "" then
        (.error (.error (.malformedArgument function 1 (.emptyName kind))), s)
      else (.ok (Text.trim n.display), s) := nameAt_apply kind function [n, v] 0
  rw [Action.bind_apply, hname]
  -- a blank name is refused before anything is looked up
  by_cases hblank : Text.trim n.display = ""
  · rw [if_pos hblank, if_pos hblank]
  · rw [if_neg hblank, if_neg hblank]
    dsimp only
    rw [Action.bind_apply, hread]
    dsimp only
    rw [Action.bind_apply, store_apply ((same _).symm ▸ h.2)]
    rfl

end Builtin

namespace Attribute

variable {a : Attribute}

/-- What `getProperty` looks up is what is read, but for the coercion of the result. -/
theorem read_property (x : String) :
    (((t.property? x).map Value.coerce).getD .empty).coerced = property.read t x := by
  have hheld : property.held? t x = (t.property? x).map .text := by
    show (List.find? _ (List.map _ _)).map Prod.snd = (Option.map _ (List.find? _ _)).map _
    rw [List.find?_map, Option.map_map, Option.map_map]
    rfl
  rw [read, hheld]
  cases t.property? x with
  | none => rfl
  | some w => exact Value.coerced_coerce w

/-- The same for `getState`. -/
theorem read_state (x : String) : (Value.ofBool (t.state x)).coerced = state.read t x := by
  have hheld : state.held? t x = (t.states.get? x).map .ofBool := by
    show (List.find? _ (List.map _ _)).map Prod.snd = (Option.map _ (List.find? _ _)).map _
    rw [List.find?_map, Option.map_map, Option.map_map]
    rfl
  rw [read, hheld, Token.state]
  cases t.states.get? x <;> rfl

/-- The getter reads the attribute under the name as it is. -/
theorem call_getter (h : f.IsAbout s.table.campaign t) (calls : Calls) (n : Value) :
    Registry.builtins.call calls a.getter [n] f s = (.ok (a.read t n.display), s) := by
  cases a with
  | property =>
    rw [← read_property]
    exact Registry.call_of_run (b := Builtin.getProperty) (Registry.find?_builtins _) rfl rfl
      (Builtin.look_apply h _ n _)
  | state =>
    rw [← read_state]
    exact Registry.call_of_run (b := Builtin.getState) (Registry.find?_builtins _) rfl rfl
      (Builtin.look_apply h _ n _)

/-- The setter stores the token with the attribute set under the name without blanks around it. -/
theorem call_setter (h : f.IsAbout s.table.campaign t) (calls : Calls) (n v : Value) :
    Registry.builtins.call calls a.setter [n, v] f s =
      if Text.trim n.display = "" then
        (.error (.error (.malformedArgument a.setter 1 (.emptyName a.kind))), s)
      else (.ok (a.reply v),
        s.withCampaign (s.table.campaign.putToken (a.write t (Text.trim n.display) v))) := by
  -- the reply is coerced already
  have hreply : (a.reply v).coerced = a.reply v := by cases a <;> rfl
  have hcoerced : ∀ result : Except Interrupt Value × RunState,
      result = (if Text.trim n.display = "" then
        (.error (.error (.malformedArgument a.setter 1 (.emptyName a.kind))), s)
      else (.ok (a.reply v),
        s.withCampaign (s.table.campaign.putToken (a.write t (Text.trim n.display) v)))) →
      (result.1.map Value.coerced, result.2) = result := by
    rintro _ rfl
    split
    · rfl
    · rw [Except.map, hreply]
  cases a with
  | property =>
    have hrun := Builtin.change_apply h .property "setProperty" n v
      (fun x t => t.setProperty x v.display) (fun _ => rfl) .empty
    exact (Registry.call_of_run (b := Builtin.setProperty) (Registry.find?_builtins _) rfl rfl hrun).trans
      (hcoerced _ rfl)
  | state =>
    have hrun := Builtin.change_apply h .state "setState" n v
      (fun x t => t.setState x v.isTrue) (fun _ => rfl) (.ofBool v.isTrue)
    exact (Registry.call_of_run (b := Builtin.setState) (Registry.find?_builtins _) rfl rfl hrun).trans
      (hcoerced _ rfl)

/-- A setter takes all names but blank ones. -/
theorem accepts_iff (h : f.IsAbout s.table.campaign t) (calls : Calls) (n v : Value) :
    (∃ r s', Registry.builtins.call calls a.setter [n, v] f s = (.ok r, s')) ↔
      Text.trim n.display ≠ "" := by
  rw [call_setter h]
  constructor
  · rintro ⟨r, s', hcall⟩ hblank
    rw [if_pos hblank] at hcall
    cases hcall
  · intro hname
    exact ⟨_, _, if_neg hname⟩

/-- Once the token with the attribute set is stored, the frame is about this token. -/
theorem replaces_write (h : f.IsAbout s.table.campaign t) (a : Attribute) (name : String) (v : Value) :
    let t' := a.write t name v
    let c := s.table.campaign.putToken t'
    s.table.campaign.Replaces t t' c ∧ f.IsAbout (s.withCampaign c).table.campaign t' := by
  have same : (a.write t name v).id = t.id := by cases a <;> rfl
  obtain ⟨hreplaces, hfound⟩ := Campaign.putToken_of_token? h.2 same
  exact ⟨hreplaces, by rw [same]; exact h.1, by rw [same]; exact hfound⟩

/-- **What a setter stores, its getter reads**, unless the name has blanks at its ends.

    A setter that accepts a name replaces the subject's token by one in which this attribute is set under
    the trimmed name, and changes nothing else.  Under the trimmed name the getter reads what was stored,
    as a number if it writes one.  Under the very name that the setter took it does so exactly if trimming
    leaves the name as it is, or if it read this value already. -/
theorem read_back_iff (h : f.IsAbout s.table.campaign t) (calls : Calls) (n v : Value)
    (accepted : ∃ r s', Registry.builtins.call calls a.setter [n, v] f s = (.ok r, s')) :
    let call (name : String) (args : List Value) (s : RunState) :=
      Registry.builtins.call calls name args f s
    let stored := (a.kept v).coerced
    ∃ t' c', s.table.campaign.Replaces t t' c' ∧ f.IsAbout c' t' ∧
      a.Sets t (Text.trim n.display) (a.kept v) t' ∧
      call a.setter [n, v] s = (.ok (a.reply v), s.withCampaign c') ∧
      call a.getter [.text (Text.trim n.display)] (s.withCampaign c') =
        (.ok stored, s.withCampaign c') ∧
      (call a.getter [n] (s.withCampaign c') = (.ok stored, s.withCampaign c') ↔
        Text.trim n.display = n.display ∨ call a.getter [n] s = (.ok stored, s)) := by
  intro call stored
  obtain ⟨hreplaces, habout⟩ := replaces_write h a (Text.trim n.display) v
  refine ⟨_, _, hreplaces, habout, sets_write, ?_, ?_, ?_⟩
  · exact (call_setter h calls n v).trans (if_neg ((accepts_iff h calls n v).1 accepted))
  · refine (call_getter habout calls _).trans ?_
    rw [Value.display, read_write, if_pos sameKey_refl]
  · -- both calls have an answer, so only the answers are compared
    have hok (x : Value) (u : RunState) :
        ((.ok x, u) : Except Interrupt Value × RunState) = (.ok stored, u) ↔ x = stored := by simp
    have hafter := call_getter (a := a) habout calls n
    have hbefore := call_getter (a := a) h calls n
    show Registry.builtins.call _ _ _ _ _ = _ ↔ _ ∨ Registry.builtins.call _ _ _ _ _ = _
    rw [hafter, hbefore, read_write, ← sameKey_trim_iff (a := a)]
    refine (hok _ _).trans (Iff.trans ?_ (or_congr_right (hok _ _).symm))
    -- the entry under the trimmed name is found under the name, or it is passed over
    cases a.sameKey (Text.trim n.display) n.display with
    | true => exact iff_of_true rfl (.inl rfl)
    | false => exact ⟨fun hread => .inr hread, fun hread => hread.resolve_left Bool.false_ne_true⟩

/-- A hero with a property in two spellings. -/
def hero : Token :=
  { Token.named ⟨1⟩ "Hero" with properties := .ofList [("HP", "12"), ("hp", "9")] }

/-- A body that runs for the hero. -/
def heroFrame : Frame := (RunRequest.ofText (.unattached false) "Pat" (some ⟨1⟩)).frame false

/-- The hero stands on the table. -/
def heroState : RunState := ⟨.ofCampaign { Campaign.new "Keep" with tokens := [hero] } ⟨0⟩, [], ""⟩

theorem isAbout_hero : heroFrame.IsAbout heroState.table.campaign hero := ⟨rfl, rfl⟩

/-- The hit points are set under a name in lower case with a blank in front.  Both spellings find them
    afterwards, as the number that was written, but not the name with the blank. -/
theorem read_back_iff_hero :
    let call (name : String) (args : List Value) (s : RunState) :=
      Registry.builtins.call (Calls.ofDepth .builtins 1) name args heroFrame s
    heroFrame.IsAbout heroState.table.campaign hero ∧
    ∃ s', call "setProperty" [.text " hp", .text "007"] heroState = (.ok .empty, s') ∧
      call "getProperty" [.text "hp"] s' = (.ok (.ofInt 7), s') ∧
      call "getProperty" [.text "HP"] s' = (.ok (.ofInt 7), s') ∧
      call "getProperty" [.text " hp"] s' ≠ (.ok (.ofInt 7), s') := by
  intro call
  have htrim : Text.trim " hp" = "hp" := by decide
  have accepted := (accepts_iff (a := property) isAbout_hero (Calls.ofDepth .builtins 1) (.text " hp")
    (.text "007")).2 (by decide)
  have hseven : (property.kept (.text "007")).coerced = .ofInt 7 := by rfl
  obtain ⟨t', c', -, habout, hsets, hset, hget, hiff⟩ :=
    read_back_iff isAbout_hero (Calls.ofDepth .builtins 1) (.text " hp") (.text "007") accepted
  rw [hseven] at hget hiff
  refine ⟨isAbout_hero, _, hset, ?_, ?_, fun hread => ?_⟩
  · rw [← htrim]
    exact hget
  · have hupper := call_getter (a := property) (s := heroState.withCampaign c') habout
      (Calls.ofDepth .builtins 1) (.text "HP")
    rw [Value.display, read, hsets.held?_eq, if_pos (by decide), Option.map_some, hseven] at hupper
    exact hupper
  · rcases hiff.1 hread with hsame | hold
    · exact absurd hsame (by decide)
    · have hnone := call_getter (a := property) isAbout_hero (Calls.ofDepth .builtins 1) (.text " hp")
      have hshown := congrArg (fun r => r.1.toOption.map Value.display) (hnone.symm.trans hold)
      exact absurd hshown (by decide +kernel)

/-- **A setter may store what its getter does not find**: the name with blanks around it is taken by the
    one, who drops them, and not known to the other. -/
theorem property_lost :
    ¬∀ (calls : Calls) (f : Frame) (s : RunState) (t : Token) (n v r : Value) (s' : RunState),
      f.IsAbout s.table.campaign t →
      Registry.builtins.call calls "setProperty" [n, v] f s = (.ok r, s') →
      Registry.builtins.call calls "getProperty" [n] f s' = (.ok (Value.coerce v.display), s') := by
  intro h
  have hset := (call_setter (a := property) isAbout_hero (Calls.ofDepth .builtins 1) (.text " HP ")
    (.ofInt 3)).trans (if_neg (by decide))
  have hget := h _ _ _ _ _ _ _ _ isAbout_hero hset
  have habout := (replaces_write isAbout_hero property (Text.trim " HP ") (.ofInt 3)).2
  have hread := call_getter (a := property) habout (Calls.ofDepth .builtins 1) (.text " HP ")
  have hshown := congrArg (fun r => r.1.toOption.map Value.display) (hread.symm.trans hget)
  exact absurd hshown (by decide +kernel)

end Attribute

end Tabletop
