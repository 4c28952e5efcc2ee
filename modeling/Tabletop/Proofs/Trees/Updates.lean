import Tabletop.Proofs.Calls.Arguments
import Tabletop.Proofs.Json.RoundTrip

/-
  Setting and getting the entries of a tree.

  1. **Slots** — an index of an array counts from the front, or back from the end if it is negative
     (`Value.PointsAt`).  It leads to one slot at most, and reading an argument as an index finds that slot
     (`placeAt_of_slot`).

  2. **One entry** — `Json.put?` is the tree with one entry set; it fails only for an index that leads to
     no slot.  `setEntry` does the same for an argument of a call (`setEntry_of_put`).

  3. **Many entries** — a call with many pairs goes through them from left to right
     (`setEntries_of_putAll`), and so do calls with one pair each (`setEach_of_putAll`).

  4. **Getting** — a key that leads to the entry gets what was stored there, every other key gets what it
     got before (`get_put_self`, `get_put_of_ne`).
-/
namespace Tabletop

/-! ## Slots -/

/-- The value is an index of slot `i` in an array of this length. -/
def Value.PointsAt (k : Value) (length i : Nat) : Prop :=
  i < length ∧ (k.position? = some (i : Int) ∨ k.position? = some ((i : Int) - length))

/-- The slot that a value is an index of. -/
def Value.slot? (k : Value) (length : Nat) : Option Nat := k.position?.bind (arrayPlace? length)

/-- An index counts from the front, or from the end if it is negative. -/
theorem arrayPlace?_eq_some_iff {length i : Nat} {p : Int} :
    arrayPlace? length p = some i ↔ i < length ∧ (p = i ∨ p = (i : Int) - length) := by
  -- `q` is the index from the front
  obtain ⟨q, hq⟩ : ∃ q, q = if p < 0 then (length : Int) + p else p := ⟨_, rfl⟩
  have hplace : arrayPlace? length p = if 0 ≤ q ∧ q < length then some q.toNat else none := by
    rw [hq]
    rfl
  have hmeaning : (i < length ∧ (p = i ∨ p = (i : Int) - length)) ↔
      (0 ≤ q ∧ q < length) ∧ q.toNat = i := by
    split at hq <;> omega
  rw [hplace, hmeaning]
  by_cases h : 0 ≤ q ∧ q < length
  · rw [if_pos h, Option.some_inj]
    exact (and_iff_right h).symm
  · rw [if_neg h]
    exact ⟨(fun hnone => nomatch hnone), fun hsome => absurd hsome.1 h⟩

namespace Value

variable {k : Value} {length i : Nat}

/-- A key has a slot if it points at one. -/
theorem slot?_eq_some_iff : k.slot? length = some i ↔ k.PointsAt length i := by
  unfold slot? PointsAt
  rw [Option.bind_eq_some_iff]
  constructor
  · rintro ⟨p, hp, hplace⟩
    obtain ⟨hi, hfront | hback⟩ := arrayPlace?_eq_some_iff.1 hplace
    · exact ⟨hi, .inl (hp.trans (congrArg some hfront))⟩
    · exact ⟨hi, .inr (hp.trans (congrArg some hback))⟩
  · rintro ⟨hi, hp | hp⟩
    · exact ⟨_, hp, arrayPlace?_eq_some_iff.2 ⟨hi, .inl rfl⟩⟩
    · exact ⟨_, hp, arrayPlace?_eq_some_iff.2 ⟨hi, .inr rfl⟩⟩

/-- It has none if it points at none. -/
theorem slot?_eq_none_iff : k.slot? length = none ↔ ∀ i, ¬k.PointsAt length i := by
  rw [Option.eq_none_iff_forall_ne_some]
  exact forall_congr' fun i => not_congr slot?_eq_some_iff

/-- An index leads to one slot. -/
theorem PointsAt.unique {i' : Nat} (h : k.PointsAt length i) (h' : k.PointsAt length i') : i = i' :=
  Option.some.inj ((slot?_eq_some_iff.2 h).symm.trans (slot?_eq_some_iff.2 h'))

end Value

namespace Builtin

open Arguments

variable {args : List Value} {function : String} {i length place : Nat}

/-- The place of an index that was read. -/
theorem placeAt_of_intAt {p : Int} (h : intAt args function i = .ok p) :
    placeAt args function i length =
      match arrayPlace? length p with
      | some place => .ok place
      | none => fault function i (.outOfBounds p length) := by
  rw [placeAt, h]
  rfl

/-- An argument is read as the slot that it is an index of. -/
theorem placeAt_of_slot (hlength : length < 2 ^ 63) (h : (valueAt args i).slot? length = some place) :
    placeAt args function i length = .ok place := by
  obtain ⟨p, hp, hplace⟩ := Option.bind_eq_some_iff.1 h
  have hword : Decimal.InWord p := by
    obtain ⟨hi, hp | hp⟩ := arrayPlace?_eq_some_iff.1 hplace
    · exact ⟨by omega, by omega⟩
    · exact ⟨by omega, by omega⟩
  rw [placeAt_of_intAt (intAt_of_position hp hword), hplace]

theorem placeAt_of_no_slot (function : String) (h : (valueAt args i).slot? length = none) :
    ∃ why, placeAt args function i length = .error (.malformedArgument function (i + 1) why) := by
  rcases intAt_cases args function i with ⟨p, hint, hp, -⟩ | ⟨⟨why, hwhy⟩, -⟩
  · have hplace : arrayPlace? length p = none := by
      rw [Value.slot?, hp] at h
      exact h
    refine ⟨.outOfBounds p length, ?_⟩
    rw [placeAt_of_intAt hint, hplace, fault]
  · exact ⟨why, by rw [placeAt, hwhy]; rfl⟩

end Builtin

/-! ## One entry -/

namespace Json

/-- An array or an object.  A memory of 64 bits holds the array. -/
def IsIndexed : Json → Prop
  | .array items => items.length < 2 ^ 63
  | .object _ => True
  | _ => False

/-- The tree with one entry set, if the key leads to an entry. -/
def put? (k v : Value) : Json → Option Json
  | .object fields => some (.object (Assoc.insert fields k.display v.toJson))
  | .array items => (k.slot? items.length).map fun i => .array (items.set i v.toJson)
  | _ => none

/-- The tree with many entries set, one after another. -/
def putAll? (pairs : List (Value × Value)) (j : Json) : Option Json :=
  pairs.foldlM (fun j p => j.put? p.1 p.2) j

variable {j j' : Json} {k v : Value}

theorem IsIndexed.isTree (h : j.IsIndexed) : j.isTree = true := by
  cases j with
  | array items => rfl
  | object fields => rfl
  | _ => cases h

/-- An update keeps the number of elements. -/
theorem IsIndexed.put (h : j.IsIndexed) (hput : j.put? k v = some j') : j'.IsIndexed := by
  cases j with
  | object fields =>
    obtain rfl := Option.some.inj hput
    trivial
  | array items =>
    obtain ⟨i, -, rfl⟩ := Option.map_eq_some_iff.1 hput
    show (items.set i v.toJson).length < 2 ^ 63
    rw [List.length_set]
    exact h
  | _ => cases h

/-- Setting an entry fails only for an index that leads to no slot. -/
theorem put?_eq_none_iff (h : j.IsIndexed) :
    j.put? k v = none ↔ ∃ items, j = .array items ∧ ∀ i, ¬k.PointsAt items.length i := by
  cases j with
  | object fields => exact ⟨(fun hput => nomatch hput), fun ⟨items, hitems, _⟩ => nomatch hitems⟩
  | array items =>
    rw [put?, Option.map_eq_none_iff, Value.slot?_eq_none_iff]
    refine ⟨fun hnone => ⟨items, rfl, hnone⟩, ?_⟩
    rintro ⟨items', hitems, hnone⟩
    obtain rfl := Json.array.inj hitems
    exact hnone
  | _ => cases h

end Json

namespace Builtin

open Arguments

variable {args : List Value} {function : String} {i : Nat} {j j' : Json} {k v : Value}

/-- One update is what `json.set` does with one key. -/
theorem setEntry_of_put (h : j.IsIndexed) (hk : valueAt args i = k) (hput : j.put? k v = some j') :
    setEntry args function i k v j = .ok j' := by
  cases j with
  | object fields =>
    obtain rfl := Option.some.inj hput
    rfl
  | array items =>
    obtain ⟨place, hplace, rfl⟩ := Option.map_eq_some_iff.1 hput
    rw [setEntry, placeAt_of_slot h (hk ▸ hplace)]
    rfl
  | _ => cases h

/-- A key without a slot is an error. -/
theorem setEntry_of_no_put (h : j.IsIndexed) (hk : valueAt args i = k) (hput : j.put? k v = none)
    (function : String) : ∃ e, setEntry args function i k v j = .error e := by
  cases j with
  | object fields => cases hput
  | array items =>
    have hplace : (valueAt args i).slot? items.length = none := by
      rw [hk]
      exact Option.map_eq_none_iff.1 hput
    obtain ⟨why, hwhy⟩ := placeAt_of_no_slot function hplace
    rw [setEntry, hwhy]
    exact ⟨_, rfl⟩
  | _ => cases h

/-! ## Many entries -/

/-- Keys and values behind each other, as a call takes them. -/
def inTurn (pairs : List (Value × Value)) : List Value := pairs.flatMap fun p => [p.1, p.2]

@[simp] theorem inTurn_cons (p : Value × Value) (pairs : List (Value × Value)) :
    inTurn (p :: pairs) = p.1 :: p.2 :: inTurn pairs := rfl

/-- Keys and values take up two arguments each. -/
theorem length_inTurn (pairs : List (Value × Value)) : (inTurn pairs).length = 2 * pairs.length := by
  induction pairs with
  | nil => rfl
  | cons p pairs ih =>
    rw [inTurn_cons, List.length_cons, List.length_cons, ih, List.length_cons]
    omega

theorem valueAt_of_drop {rest : List Value} (h : args.drop i = k :: rest) : valueAt args i = k := by
  have hi : args[i]? = some k := by
    rw [← List.head?_drop, h]
    rfl
  rw [valueAt, hi]
  rfl

/-- **A call goes through its pairs from left to right.** -/
theorem setEntries_eq {pairs : List (Value × Value)} (h : j.IsIndexed) (hargs : args.drop i = inTurn pairs)
    (function : String) :
    match j.putAll? pairs with
    | some j' => setEntries args function i j (inTurn pairs) = .ok j'
    | none => ∃ e, setEntries args function i j (inTurn pairs) = .error e := by
  induction pairs generalizing i j with
  | nil => rfl
  | cons p pairs ih =>
    have hk : valueAt args i = p.1 := valueAt_of_drop hargs
    have hrest : args.drop (i + 2) = inTurn pairs := by
      rw [← List.drop_drop, hargs]
      rfl
    rw [Json.putAll?, List.foldlM_cons, inTurn_cons, setEntries]
    -- the first key has no slot, or the others go on from what it makes
    cases hput : j.put? p.1 p.2 with
    | none =>
      obtain ⟨e, he⟩ := setEntry_of_no_put h hk hput function
      rw [he]
      exact ⟨e, rfl⟩
    | some j₁ =>
      rw [setEntry_of_put h hk hput]
      exact ih (h.put hput) hrest

/-- A tree that is given is taken as it is. -/
theorem treeOr_tree (h : j.isTree = true) (rest : List Value) (function : String) (default : Json) :
    treeOr (.tree j :: rest) function 0 default = .ok j := by
  obtain ⟨a, cs, _, hchars, -, hbracket⟩ := Json.brackets_renderChars h
  have hmem : a ∈ j.render.toList := by
    rw [Json.render, String.toList_ofList, hchars]
    exact List.mem_cons_self
  have hblank : Text.isBlankText j.render = false := by
    rcases hbracket with ⟨rfl, -⟩ | ⟨rfl, -⟩
    · exact Text.isBlankText_eq_false hmem rfl
    · exact Text.isBlankText_eq_false hmem rfl
  show (if Text.isBlankText j.render then _ else _) = _
  rw [hblank]
  rfl

variable {pairs : List (Value × Value)} (h : j.IsIndexed) (calls : Calls) (f : Frame) (s : RunState)
include h

/-- **Setting with many pairs.** -/
theorem jsonSet_run (pairs : List (Value × Value)) :
    match j.putAll? pairs with
    | some j' => jsonSet.function.run calls "json.set" (.tree j :: inTurn pairs) f s = (.ok (.tree j'), s)
    | none => ∃ e,
      jsonSet.function.run calls "json.set" (.tree j :: inTurn pairs) f s = (.error (.error e), s) := by
  -- the tree and the pairs are an odd number of arguments
  have hodd : ¬(Value.tree j :: inTurn pairs).length % 2 = 0 := by
    rw [List.length_cons, length_inTurn]
    omega
  -- so nothing is left to be checked but the tree itself
  have hrun : jsonSet.function.run calls "json.set" (.tree j :: inTurn pairs) =
      Action.ofExcept (setEntries (.tree j :: inTurn pairs) "json.set" 1 j (inTurn pairs) >>= fun j' =>
        pure (.tree j')) := by
    show Action.ofExcept (if _ then _ else treeOr (.tree j :: inTurn pairs) "json.set" 0 _ >>= _) = _
    rw [if_neg hodd, treeOr_tree h.isTree]
    rfl
  have hrest : (Value.tree j :: inTurn pairs).drop 1 = inTurn pairs := rfl
  have hentries := setEntries_eq h hrest "json.set"
  rw [hrun]
  cases hput : j.putAll? pairs with
  | some j' =>
    rw [hput] at hentries
    rw [show setEntries _ _ _ _ _ = _ from hentries]
    rfl
  | none =>
    rw [hput] at hentries
    obtain ⟨e, he⟩ := hentries
    rw [he]
    exact ⟨e, rfl⟩

/-- The dispatch of calls asks for one pair at least, and changes nothing else. -/
theorem call_jsonSet (some_pair : pairs ≠ []) :
    Registry.builtins.call calls "json.set" (.tree j :: inTurn pairs) f s =
      jsonSet.function.run calls "json.set" (.tree j :: inTurn pairs) f s := by
  -- a tree, a key and a value are the least that is asked for
  have harity : jsonSet.descriptor.arity.accepts (Value.tree j :: inTurn pairs).length = true := by
    have hpos := List.length_pos_iff.2 some_pair
    rw [List.length_cons, length_inTurn]
    show (decide (3 ≤ 2 * pairs.length + 1) && true) = true
    rw [Bool.and_true, decide_eq_true_eq]
    omega
  have hfind : Registry.builtins.find? "json.set" = some jsonSet := Registry.find?_builtins _
  have hrun := jsonSet_run h calls f s pairs
  cases hput : j.putAll? pairs with
  | some j' =>
    rw [hput] at hrun
    exact (Registry.call_of_run hfind harity rfl hrun).trans hrun.symm
  | none =>
    rw [hput] at hrun
    obtain ⟨e, he⟩ := hrun
    exact (Registry.call_of_run hfind harity rfl he).trans he.symm

/-- Setting one entry. -/
theorem call_jsonSet_single (k v : Value) :
    match j.put? k v with
    | some j' => Registry.builtins.call calls "json.set" [.tree j, k, v] f s = (.ok (.tree j'), s)
    | none => ∃ e, Registry.builtins.call calls "json.set" [.tree j, k, v] f s = (.error (.error e), s) := by
  have hsingle : j.putAll? [(k, v)] = j.put? k v := bind_pure (j.put? k v)
  have hcall := call_jsonSet h calls f s (List.cons_ne_nil (k, v) [])
  have hrun := jsonSet_run h calls f s [(k, v)]
  rw [hsingle, ← hcall] at hrun
  exact hrun

/-- Sets entries one after another, by a call for each. -/
def setEach (calls : Calls) (tree : Value) : List (Value × Value) → Action Value
  | [] => pure tree
  | (k, v) :: pairs => do
    setEach calls (← Registry.builtins.call calls "json.set" [tree, k, v]) pairs

/-- **Setting with a call for each pair.** -/
theorem setEach_eq (pairs : List (Value × Value)) :
    match j.putAll? pairs with
    | some j' => setEach calls (.tree j) pairs f s = (.ok (.tree j'), s)
    | none => ∃ e, setEach calls (.tree j) pairs f s = (.error (.error e), s) := by
  induction pairs generalizing j with
  | nil => rfl
  | cons p pairs ih =>
    have hcall := call_jsonSet_single h calls f s p.1 p.2
    rw [Json.putAll?, List.foldlM_cons, setEach, Action.bind_apply]
    -- each call is one update, and they stop at the first error
    cases hput : j.put? p.1 p.2 with
    | none =>
      rw [hput] at hcall
      obtain ⟨e, he⟩ := hcall
      rw [he]
      exact ⟨e, rfl⟩
    | some j₁ =>
      rw [hput] at hcall
      rw [show Registry.builtins.call _ _ _ _ _ = _ from hcall]
      exact ih (h.put hput)

omit h

/-! ## Getting -/

/-- What is at a key of an object, or empty text. -/
theorem call_jsonGet_object (fields : List (String × Json)) (k : Value) :
    Registry.builtins.call calls "json.get" [.tree (.object fields), k] f s =
      (.ok (((Assoc.get? fields k.display).map Value.ofJson).getD .empty).coerced, s) :=
  Registry.call_of_computes (b := jsonGet) (Registry.find?_builtins _) rfl rfl rfl rfl calls f s

/-- What is at a slot of an array; which one, depends on the index and the length alone. -/
theorem call_jsonGet_array (items : List Json) (k : Value) :
    Registry.builtins.call calls "json.get" [.tree (.array items), k] f s =
      match placeAt [.empty, k] "json.get" 1 items.length with
      | .ok place => (.ok ((items[place]?.map Value.ofJson).getD .empty).coerced, s)
      | .error e => (.error (.error e), s) := by
  rw [Registry.call_of_untrusted (b := jsonGet) (Registry.find?_builtins _) rfl rfl, Action.bind_apply]
  have hrun : jsonGet.function.run calls "json.get" [.tree (.array items), k] =
      Action.ofExcept (placeAt [.empty, k] "json.get" 1 items.length >>= fun place =>
        pure ((items[place]?.map Value.ofJson).getD .empty)) := rfl
  rw [hrun]
  cases placeAt [.empty, k] "json.get" 1 items.length <;> rfl

end Builtin

namespace Json

/-- Two keys lead to the same entry of a tree. -/
def SameEntry : Json → Value → Value → Prop
  | .object _, k, k' => k.display = k'.display
  | .array items, k, k' => ∃ i, k.PointsAt items.length i ∧ k'.PointsAt items.length i
  | _, _, _ => False

/-- What setting an entry leaves of the layout of a tree: an array has as many items, an object the same
    keys in the same order, and behind them the key if it is new. -/
def KeepsLayout (key : String) : Json → Json → Prop
  | .array items, .array items' => items'.length = items.length
  | .object fields, .object fields' =>
    Assoc.keys fields' =
      if key ∈ Assoc.keys fields then Assoc.keys fields else Assoc.keys fields ++ [key]
  | _, _ => False

/-- Some key is no index of the array. -/
def Misses (j : Json) (pairs : List (Value × Value)) : Prop :=
  ∃ items, j = .array items ∧ ∃ p ∈ pairs, ∀ i, ¬p.1.PointsAt items.length i

open Builtin

variable {j j' : Json} {k k' v : Value} (h : j.IsIndexed) (hput : j.put? k v = some j')
include h hput

theorem keepsLayout_put : KeepsLayout k.display j j' := by
  cases j with
  | object fields =>
    obtain rfl := Option.some.inj hput
    exact Assoc.keys_insert fields k.display v.toJson
  | array items =>
    obtain ⟨i, -, rfl⟩ := Option.map_eq_some_iff.1 hput
    exact List.length_set
  | _ => cases h

/-- The key that is set leads to an entry. -/
theorem sameEntry_self : j.SameEntry k k := by
  cases j with
  | object fields => rfl
  | array items =>
    obtain ⟨i, hi, -⟩ := Option.map_eq_some_iff.1 hput
    exact ⟨i, Value.slot?_eq_some_iff.1 hi, Value.slot?_eq_some_iff.1 hi⟩
  | _ => cases h

/-- **What was set is there.** -/
theorem get_put_self (same : j.SameEntry k k') (storable : v.Storable) (calls : Calls) (f : Frame)
    (s : RunState) :
    Registry.builtins.call calls "json.get" [.tree j', k'] f s = (.ok (Value.ofJson v.toJson), s) := by
  rw [← Value.coerced_ofJson_toJson storable]
  cases j with
  | object fields =>
    obtain rfl := Option.some.inj hput
    rw [call_jsonGet_object, ← show k.display = k'.display from same, Assoc.get?_insert_self]
    rfl
  | array items =>
    obtain ⟨i, hi, rfl⟩ := Option.map_eq_some_iff.1 hput
    -- the two keys may count from different ends, but they point at the same place
    obtain ⟨i', hk, hk'⟩ := same
    obtain rfl : i = i' := (Value.slot?_eq_some_iff.1 hi).unique hk
    have hplace : placeAt [.empty, k'] "json.get" 1 (items.set i v.toJson).length = .ok i := by
      rw [List.length_set]
      exact placeAt_of_slot h (Value.slot?_eq_some_iff.2 hk')
    rw [call_jsonGet_array, hplace]
    dsimp only
    rw [List.getElem?_set_self hk.1]
    rfl
  | _ => cases h

/-- **Nothing else is changed.** -/
theorem get_put_of_ne (other : ¬j.SameEntry k k') (calls : Calls) (f : Frame) (s : RunState) :
    Registry.builtins.call calls "json.get" [.tree j', k'] f s =
      Registry.builtins.call calls "json.get" [.tree j, k'] f s := by
  cases j with
  | object fields =>
    obtain rfl := Option.some.inj hput
    rw [call_jsonGet_object, call_jsonGet_object, Assoc.get?_insert_of_ne fields v.toJson other]
  | array items =>
    obtain ⟨i, hi, rfl⟩ := Option.map_eq_some_iff.1 hput
    rw [call_jsonGet_array, call_jsonGet_array, List.length_set]
    cases hslot : k'.slot? items.length with
    | some i' =>
      -- the slot that is read is not the one that was set
      have hne : i ≠ i' := fun heq =>
        other ⟨i, Value.slot?_eq_some_iff.1 hi, heq ▸ Value.slot?_eq_some_iff.1 hslot⟩
      have hplace : placeAt [.empty, k'] "json.get" 1 items.length = .ok i' := placeAt_of_slot h hslot
      rw [hplace]
      dsimp only
      rw [List.getElem?_set_ne hne]
    | none =>
      obtain ⟨why, hwhy⟩ : ∃ why, placeAt [.empty, k'] "json.get" 1 items.length =
          .error (.malformedArgument "json.get" 2 why) := placeAt_of_no_slot "json.get" hslot
      rw [hwhy]
  | _ => cases h

omit h hput

/-- An index that leads to no slot of an array leads to none after another slot was set. -/
theorem misses_cons_iff {p : Value × Value} {pairs : List (Value × Value)} (h : j.IsIndexed)
    (hput : j.put? p.1 p.2 = some j') : j.Misses (p :: pairs) ↔ j'.Misses pairs := by
  cases j with
  | object fields =>
    obtain rfl := Option.some.inj hput
    -- an object has a slot for every key
    constructor
    · rintro ⟨items, hitems, -⟩
      cases hitems
    · rintro ⟨items, hitems, -⟩
      cases hitems
  | array items =>
    obtain ⟨i, hi, rfl⟩ := Option.map_eq_some_iff.1 hput
    -- an array keeps its length, and so the keys that it misses
    constructor
    · rintro ⟨items', hitems, q, hq, hmiss⟩
      obtain rfl := Json.array.inj hitems
      rcases List.mem_cons.1 hq with rfl | hq
      · exact absurd (Value.slot?_eq_some_iff.1 hi) (hmiss i)
      · exact ⟨_, rfl, q, hq, by rwa [List.length_set]⟩
    · rintro ⟨items', hitems, q, hq, hmiss⟩
      obtain rfl := Json.array.inj hitems
      rw [List.length_set] at hmiss
      exact ⟨items, rfl, q, List.mem_cons_of_mem _ hq, hmiss⟩
  | _ => cases h

/-- **Setting fails exactly if some key is no index of the array.** -/
theorem putAll?_eq_none_iff {pairs : List (Value × Value)} (h : j.IsIndexed) :
    j.putAll? pairs = none ↔ j.Misses pairs := by
  induction pairs generalizing j with
  | nil =>
    refine ⟨(fun hnone => nomatch hnone), ?_⟩
    rintro ⟨_, _, p, hp, _⟩
    exact absurd hp List.not_mem_nil
  | cons p pairs ih =>
    rw [putAll?, List.foldlM_cons]
    cases hput : j.put? p.1 p.2 with
    | none =>
      obtain ⟨items, hitems, hmiss⟩ := (put?_eq_none_iff h).1 hput
      exact iff_of_true rfl ⟨items, hitems, p, List.mem_cons_self, hmiss⟩
    | some j₁ =>
      rw [misses_cons_iff h hput]
      exact ih (h.put hput)

/-- **Setting and getting are an update and a look-up.**  Setting many entries of an array or an object at
    once is setting one after another; it fails, and no tree comes of it, exactly if the tree is an array
    and some key is no index of it.  After one entry is set, the layout is as before; what was set is
    read by every key that leads to the entry, as the number that it writes if it writes one; and what
    is read by any other key is what it was. -/
theorem updates_read_back {j : Json} (h : j.IsIndexed) (calls : Calls) (f : Frame) (s : RunState) :
    let call (name : String) (args : List Value) := Registry.builtins.call calls name args f s
    (∀ pairs : List (Value × Value),
      let set := jsonSet.function.run calls "json.set" (.tree j :: inTurn pairs) f s
      let each := setEach calls (.tree j) pairs f s
      (pairs ≠ [] → call "json.set" (.tree j :: inTurn pairs) = set) ∧
      (j.Misses pairs → (∃ e, set = (.error (.error e), s)) ∧ ∃ e, each = (.error (.error e), s)) ∧
      (¬j.Misses pairs → ∃ j', set = (.ok (.tree j'), s) ∧ each = (.ok (.tree j'), s))) ∧
    ∀ k v j', call "json.set" [.tree j, k, v] = (.ok (.tree j'), s) →
      KeepsLayout k.display j j' ∧ j.SameEntry k k ∧
      (v.Storable → ∀ k', j.SameEntry k k' →
        ∃ w, call "json.get" [.tree j', k'] = (.ok w, s) ∧ w.Same v.coerced) ∧
      ∀ k', ¬j.SameEntry k k' → call "json.get" [.tree j', k'] = call "json.get" [.tree j, k'] := by
  intro call
  refine ⟨fun pairs => ⟨fun hne => call_jsonSet h calls f s hne, ?_⟩, fun k v j' hset => ?_⟩
  · have hrun := jsonSet_run h calls f s pairs
    have heach := setEach_eq h calls f s pairs
    rw [← putAll?_eq_none_iff h]
    cases hput : j.putAll? pairs with
    | none =>
      rw [hput] at hrun heach
      exact ⟨fun _ => ⟨hrun, heach⟩, fun hsome => absurd rfl hsome⟩
    | some j' =>
      rw [hput] at hrun heach
      exact ⟨(fun hnone => nomatch hnone), fun _ => ⟨j', hrun, heach⟩⟩
  · have hcall := call_jsonSet_single h calls f s k v
    -- the call was answered, so the key has a slot
    have hput : j.put? k v = some j' := by
      cases hput : j.put? k v with
      | none =>
        rw [hput] at hcall
        obtain ⟨e, he⟩ := hcall
        cases hset.symm.trans he
      | some j₁ =>
        rw [hput] at hcall
        cases hset.symm.trans hcall
        rfl
    refine ⟨keepsLayout_put h hput, sameEntry_self h hput, fun storable k' same => ?_,
      fun k' other => get_put_of_ne h hput other calls f s⟩
    exact ⟨_, get_put_self h hput same storable calls f s, Value.ofJson_toJson storable⟩

/-- Three things in an array. -/
def stash : Json := .array [.string "rope", .null, .string "lamp"]

/-- A frame of a player, for whom nothing is trusted. -/
def stashFrame : Frame := (RunRequest.ofText (.unattached false) "Pat" none).frame false

/-- An empty table. -/
def stashState : RunState := ⟨.ofCampaign (Campaign.new "Keep") ⟨0⟩, [], ""⟩

/-- The last thing is set by counting from the end, and read by counting from the front as the number
    that it writes; the first thing stays.  There is no fourth thing to set. -/
theorem updates_read_back_stash :
    let call (name : String) (args : List Value) :=
      Registry.builtins.call (Calls.ofDepth .builtins 1) name args stashFrame stashState
    stash.IsIndexed ∧
    (∃ j', call "json.set" [.tree stash, .ofInt (-1), .text "007"] = (.ok (.tree j'), stashState) ∧
      (∃ w, call "json.get" [.tree j', .ofInt 2] = (.ok w, stashState) ∧ w.Same (.ofInt 7)) ∧
      call "json.get" [.tree j', .text " 0.9"] = call "json.get" [.tree stash, .text " 0.9"]) ∧
    ∃ e, call "json.set" [.tree stash, .ofInt 0, .text "oil", .ofInt 3, .text "map"] =
      (.error (.error e), stashState) := by
  intro call
  have h : stash.IsIndexed := by
    show 3 < 2 ^ 63
    decide
  have hlast : (Value.ofInt (-1)).slot? 3 = some 2 := by decide
  have hthird : (Value.ofInt 2).slot? 3 = some 2 := by decide
  have hfirst : (Value.text " 0.9").slot? 3 = some 0 := by decide +kernel
  have hfourth : (Value.ofInt 3).slot? 3 = none := by decide
  have hseven : Value.coerce "007" = .ofInt 7 := Value.coerce_of_ofText? (by decide +kernel)
  obtain ⟨hmany, hone⟩ :=
    updates_read_back h (Calls.ofDepth .builtins 1) stashFrame stashState
  refine ⟨h, ?_, ?_⟩
  · have hfound : ¬stash.Misses [(.ofInt (-1), .text "007")] := by
      rintro ⟨items, hitems, p, hp, hmiss⟩
      obtain rfl := Json.array.inj hitems
      rw [List.mem_singleton.1 hp] at hmiss
      exact hmiss 2 (Value.slot?_eq_some_iff.1 hlast)
    obtain ⟨hcall, -, hset⟩ := hmany [(.ofInt (-1), .text "007")]
    obtain ⟨j', hj', -⟩ := hset hfound
    have hcalled := (hcall (List.cons_ne_nil _ _)).trans hj'
    obtain ⟨-, -, hsame, hother⟩ := hone _ _ _ hcalled
    refine ⟨j', hcalled, ?_, hother _ ?_⟩
    · obtain ⟨w, hw, hvalue⟩ := hsame trivial (.ofInt 2)
        ⟨2, Value.slot?_eq_some_iff.1 hlast, Value.slot?_eq_some_iff.1 hthird⟩
      exact ⟨w, hw, hseven ▸ hvalue⟩
    · rintro ⟨i, hi, hi'⟩
      have hthree := (Value.slot?_eq_some_iff.1 hlast).unique hi
      have hzero := (Value.slot?_eq_some_iff.1 hfirst).unique hi'
      omega
  · have hmiss : stash.Misses [(.ofInt 0, .text "oil"), (.ofInt 3, .text "map")] :=
      ⟨_, rfl, (.ofInt 3, .text "map"), by simp, Value.slot?_eq_none_iff.1 hfourth⟩
    obtain ⟨hcall, hfails, -⟩ := hmany [(.ofInt 0, .text "oil"), (.ofInt 3, .text "map")]
    obtain ⟨⟨e, he⟩, -⟩ := hfails hmiss
    exact ⟨e, (hcall (List.cons_ne_nil _ _)).trans he⟩

end Json

end Tabletop
