import Tabletop.Proofs.Calls.Outcome
import Tabletop.Proofs.Decimal.Canonical
import Tabletop.Table.Interpreter

/-
  What a function sees of its arguments.

  1. **Two forms of one list** — the arguments are bound one by one under their numbers, next to their
     count, and once more as one array.  The names with a number are different from each other and from
     the two others (`argumentName_inj`), so whatever was bound before, and however many arguments it
     were, the numbers below the count lead to the new ones (`get?_bindArguments_argumentName`).

  2. **Positions** — `arg` and `json.get` read a position alike (`Arguments.indexAt_of_position`): a number
     without its places.  All that is no position below the count is an error of `arg`.

  3. **Storage** — a text, a tree or an integer of 64 bits comes out of an array as what it is coerced to
     (`Value.ofJson_toJson`), so both forms give the same value.
-/
namespace Tabletop

/-! ## Storage -/

namespace Value

/-- The values that a tree holds as they are: texts, trees, and integers of 64 bits. -/
def Storable : Value → Prop
  | .number d => ∃ n, Decimal.InWord n ∧ d.same (Decimal.ofInt n) = true
  | .text _ => True
  | .tree j => j.isTree = true

/-- **A storable value comes back** as what it is coerced to. -/
theorem ofJson_toJson {v : Value} (h : v.Storable) : (ofJson v.toJson).Same v.coerced := by
  cases v with
  | number d =>
    obtain ⟨n, hn, hsame⟩ := h
    rw [toJson, jsonOfDecimal_of_same_ofInt hn hsame]
    exact Decimal.same_iff.2 (Decimal.same_iff.1 hsame).symm
  | text s => exact same_refl _
  | tree j =>
    cases j with
    | array items => exact same_refl _
    | object fields => exact same_refl _
    | _ => cases h

/-- Coercing it once more changes nothing. -/
theorem coerced_ofJson_toJson {v : Value} (h : v.Storable) :
    (ofJson v.toJson).coerced = ofJson v.toJson := by
  cases v with
  | number d =>
    obtain ⟨n, hn, hsame⟩ := h
    rw [toJson, jsonOfDecimal_of_same_ofInt hn hsame]
    rfl
  | text s => exact coerced_coerce s
  | tree j =>
    cases j with
    | array items => rfl
    | object fields => rfl
    | _ => cases h

end Value

/-! ## Positions -/

/-- The position that a value stands for: a number without its places. -/
def Value.position? (v : Value) : Option Int := v.asNumber?.map Decimal.truncate

namespace Arguments

variable {args : List Value} {function : String} {i : Nat}

theorem intAt_of_position {n : Int} (h : (valueAt args i).position? = some n)
    (hn : Decimal.InWord n) : intAt args function i = .ok n := by
  obtain ⟨d, hd, rfl⟩ := Option.map_eq_some_iff.1 h
  unfold intAt numberAt
  rw [hd]
  exact if_pos hn

theorem indexAt_of_position {n : Nat} (h : (valueAt args i).position? = some (n : Int))
    (hn : n < 2 ^ 63) : indexAt args function i = .ok n := by
  have hint : intAt args function i = .ok (n : Int) := intAt_of_position h ⟨by omega, by omega⟩
  have hpositive : 0 ≤ (n : Int) := Int.natCast_nonneg n
  unfold indexAt
  rw [hint]
  show (if 0 ≤ (n : Int) then pure (n : Int).toNat else fault function i (.negativeIndex n)) = .ok n
  rw [if_pos hpositive, Int.toNat_natCast]
  rfl

/-- What is read as an integer is the position of the argument, if a word of 64 bits holds it; all else is
    an error of the argument. -/
theorem intAt_cases (args : List Value) (function : String) (i : Nat) :
    (∃ n, intAt args function i = .ok n ∧ (valueAt args i).position? = some n ∧ Decimal.InWord n) ∨
      (∃ why, intAt args function i = .error (.malformedArgument function (i + 1) why)) ∧
        ∀ n, (valueAt args i).position? = some n → ¬Decimal.InWord n := by
  unfold intAt numberAt Value.position?
  cases (valueAt args i).asNumber? with
  | none => exact .inr ⟨⟨_, rfl⟩, fun n hn => nomatch hn⟩
  | some d =>
    by_cases hword : Decimal.InWord d.truncate
    · exact .inl ⟨d.truncate, if_pos hword, rfl, hword⟩
    · exact .inr ⟨⟨.outOfRange d, if_neg hword⟩, fun n hn => Option.some.inj hn ▸ hword⟩

/-- What is read as an index is the position of the argument; all else is an error of the argument. -/
theorem indexAt_cases (args : List Value) (function : String) (i : Nat) :
    (∃ n : Nat, indexAt args function i = .ok n ∧ (valueAt args i).position? = some (n : Int)) ∨
      ∃ why, indexAt args function i = .error (.malformedArgument function (i + 1) why) := by
  unfold indexAt
  rcases intAt_cases args function i with ⟨n, hn, hposition, -⟩ | ⟨⟨why, hwhy⟩, -⟩
  · rw [hn]
    by_cases hneg : 0 ≤ n
    · refine .inl ⟨n.toNat, if_pos hneg, ?_⟩
      rw [Int.toNat_of_nonneg hneg]
      exact hposition
    · exact .inr ⟨.negativeIndex n, if_neg hneg⟩
  · rw [hwhy]
    exact .inr ⟨why, rfl⟩

/-- A position in a list: a negative one is none. -/
theorem positionAt_of_position {n : Int} (h : (valueAt args i).position? = some n)
    (hn : Decimal.InWord n) :
    positionAt args function i = .ok (if 0 ≤ n then some n.toNat else none) := by
  rw [positionAt, intAt_of_position h hn]
  rfl

theorem positionAt_of_not_inWord {n : Int} (h : (valueAt args i).position? = some n)
    (hn : ¬Decimal.InWord n) :
    ∃ why, positionAt args function i = .error (.malformedArgument function (i + 1) why) := by
  rcases intAt_cases args function i with ⟨m, -, hm, hword⟩ | ⟨⟨why, hwhy⟩, -⟩
  · rw [h] at hm
    exact absurd (Option.some.inj hm ▸ hword) hn
  · refine ⟨why, ?_⟩
    rw [positionAt, hwhy]
    rfl

end Arguments

/-! ## The variables -/

namespace Variables

theorem toList_displayInt (n : Nat) : (Decimal.displayInt n).toList = Nat.toDigits 10 n := by
  rw [Decimal.displayInt, Decimal.render, String.toList_ofList, Decimal.renderChars]
  show (if (n : Int) < 0 then ['-'] else []) ++ Nat.toDigits 10 (n : Int).natAbs = _
  rw [if_neg (Int.not_lt.2 (Int.natCast_nonneg n)), Int.natAbs_natCast, List.nil_append]

theorem argumentName_inj {i j : Nat} : argumentName i = argumentName j ↔ i = j := by
  refine ⟨fun h => ?_, fun h => by rw [h]⟩
  have hdigits := congrArg String.toList ((String.append_right_inj _).1 h)
  rw [toList_displayInt, toList_displayInt] at hdigits
  have hvalue := congrArg (Nat.ofDigitChars 10 · 0) hdigits
  simpa only [Nat.ofDigitChars_ten_toDigits] using hvalue

/-- A name with a number ends in a digit. -/
theorem getLast?_argumentName (i : Nat) :
    ∃ c, (argumentName i).toList.getLast? = some c ∧ c.isDigit = true := by
  refine ⟨Nat.digitChar (i % 10), ?_, ?_⟩
  · rw [argumentName, String.toList_append, toList_displayInt, List.getLast?_append,
      Decimal.getLast?_toDigits]
    rfl
  · exact Nat.isDigit_of_mem_toDigits (n := i) (by omega) (by omega)
      (List.mem_of_getLast? (Decimal.getLast?_toDigits i))

theorem argumentName_ne_argumentsName (i : Nat) : argumentName i ≠ argumentsName := by
  intro h
  obtain ⟨c, hc, hdigit⟩ := getLast?_argumentName i
  rw [h] at hc
  rw [← Option.some.inj hc] at hdigit
  exact absurd hdigit (by decide)

theorem argumentName_ne_countName (i : Nat) : argumentName i ≠ countName := by
  intro h
  obtain ⟨c, hc, hdigit⟩ := getLast?_argumentName i
  rw [h] at hc
  rw [← Option.some.inj hc] at hdigit
  exact absurd hdigit (by decide)

/-- Names without a number keep their values. -/
theorem get?_bindFrom_of_ne {x : String} (hx : ∀ i, argumentName i ≠ x) (args : List Value)
    (vars : Variables) (start : Nat) :
    Assoc.get? (bindFrom vars start args) x = Assoc.get? vars x := by
  induction args generalizing vars start with
  | nil => rfl
  | cons v args ih => rw [bindFrom, ih, Assoc.get?_insert_of_ne vars v (hx start)]

/-- The numbers below the one where binding starts keep their values. -/
theorem get?_bindFrom_of_lt {i start : Nat} (h : i < start) (args : List Value) (vars : Variables) :
    Assoc.get? (bindFrom vars start args) (argumentName i) = Assoc.get? vars (argumentName i) := by
  induction args generalizing vars start with
  | nil => rfl
  | cons v args ih =>
    have hne : argumentName start ≠ argumentName i := fun he => by
      rw [argumentName_inj] at he
      omega
    rw [bindFrom, ih (by omega), Assoc.get?_insert_of_ne vars v hne]

theorem get?_bindFrom {args : List Value} {i : Nat} (hi : i < args.length) (vars : Variables)
    (start : Nat) :
    Assoc.get? (bindFrom vars start args) (argumentName (start + i)) = some args[i] := by
  induction args generalizing vars start i with
  | nil => exact absurd hi (Nat.not_lt_zero i)
  | cons v args ih =>
    cases i with
    | zero =>
      show Assoc.get? (bindFrom (Assoc.insert vars (argumentName start) v) (start + 1) args)
        (argumentName start) = some v
      rw [get?_bindFrom_of_lt (Nat.lt_add_one start), Assoc.get?_insert_self]
    | succ i =>
      rw [bindFrom, show start + (i + 1) = start + 1 + i by omega, ih (Nat.lt_of_succ_lt_succ hi)]
      rfl

variable (vars : Variables) {args : List Value}

/-- **Each argument is under its number**, whatever was bound before. -/
theorem get?_bindArguments_argumentName {i : Nat} (hi : i < args.length) :
    Assoc.get? (bindArguments vars args) (argumentName i) = some args[i] := by
  have h := get?_bindFrom hi
    (Assoc.insert (Assoc.insert vars argumentsName (packed args)) countName (.ofInt args.length)) 0
  rw [Nat.zero_add] at h
  exact h

theorem get?_bindArguments_argumentsName (args : List Value) :
    Assoc.get? (bindArguments vars args) argumentsName = some (packed args) := by
  rw [bindArguments, get?_bindFrom_of_ne argumentName_ne_argumentsName,
    Assoc.get?_insert_of_ne _ _ (by decide), Assoc.get?_insert_self]

theorem argumentCount_bindArguments (h : args.length < 2 ^ 63) :
    (bindArguments vars args).argumentCount = args.length := by
  have hcount : Assoc.get? (bindArguments vars args) countName = some (.ofInt args.length) := by
    rw [bindArguments, get?_bindFrom_of_ne argumentName_ne_countName, Assoc.get?_insert_self]
  have htruncate : (Decimal.ofInt args.length).truncate = (args.length : Int) := Int.tdiv_one _
  rw [argumentCount, hcount]
  show (if 0 ≤ (Decimal.ofInt args.length).truncate ∧ (Decimal.ofInt args.length).truncate < 2 ^ 64
    then _ else _) = _
  rw [htruncate, if_pos ⟨by omega, by omega⟩, Int.toNat_natCast]

end Variables

/-! ## The calls -/

namespace Builtin

open Arguments

theorem passedArgument_of_lt {vars : Variables} {function : String} {i : Nat} {v : Value}
    (h : i < vars.argumentCount) (hv : Assoc.get? vars (Variables.argumentName i) = some v) :
    passedArgument vars function i = .ok v := by
  unfold passedArgument
  rw [if_pos h, hv]
  rfl

theorem passedArgument_of_le {vars : Variables} {i : Nat} (function : String)
    (h : vars.argumentCount ≤ i) :
    passedArgument vars function i =
      .error (.malformedArgument function 1 (.noSuchArgument i vars.argumentCount)) :=
  if_neg (Nat.not_lt.2 h)

/-- One place of an array. -/
theorem jsonGet_array {items : List Json} {v : Value} {i : Nat} (hi : i < items.length)
    (h : v.position? = some (i : Int)) (hlength : items.length < 2 ^ 63) (calls : Calls) (f : Frame)
    (s : RunState) :
    Registry.builtins.call calls "json.get" [.tree (.array items), v] f s =
      (.ok (Value.ofJson items[i]).coerced, s) := by
  -- the position is a place of the array
  have hplace : placeAt [.tree (.array items), v] "json.get" 1 items.length = .ok i := by
    have hint : intAt [.tree (.array items), v] "json.get" 1 = .ok (i : Int) :=
      intAt_of_position h ⟨by omega, by omega⟩
    have hfound : arrayPlace? items.length (i : Int) = some i := by
      unfold arrayPlace?
      rw [if_neg (Int.not_lt.2 (Int.natCast_nonneg i))]
      exact if_pos ⟨by omega, by omega⟩
    unfold placeAt
    rw [hint]
    dsimp only [bind, Except.bind]
    rw [hfound]
    rfl
  refine Registry.call_of_computes (b := jsonGet) (Registry.find?_builtins _) rfl rfl rfl ?_ calls f s
  show (do
    let place ← placeAt [.tree (.array items), v] "json.get" 1 items.length
    pure ((items[place]?.map Value.ofJson).getD .empty)) = _
  rw [hplace]
  show Except.ok ((items[i]?.map Value.ofJson).getD .empty) = _
  rw [List.getElem?_eq_getElem hi]
  rfl

/-- The number of arguments that are bound. -/
theorem argCount_apply (calls : Calls) (f : Frame) (s : RunState) :
    Registry.builtins.call calls "argCount" [] f s = (.ok (.ofWord s.bindings.argumentCount), s) := by
  rw [Registry.call_of_untrusted (b := argCount) (Registry.find?_builtins _) rfl rfl]
  rfl

/-- An argument by its position is what is bound, coerced. -/
theorem arg_of_ok {v w : Value} {s : RunState}
    (h : indexAt [v] "arg" 0 >>= passedArgument s.bindings "arg" = .ok w) (calls : Calls) (f : Frame) :
    Registry.builtins.call calls "arg" [v] f s = (.ok w.coerced, s) := by
  rw [Registry.call_of_untrusted (b := arg) (Registry.find?_builtins _) rfl rfl]
  show ((Action.ofExcept (indexAt [v] "arg" 0) >>= fun i => MonadState.get >>= fun s : RunState =>
    Action.ofExcept (passedArgument s.bindings "arg" i)) >>= fun w => pure w.coerced) f s = _
  cases hi : indexAt [v] "arg" 0 with
  | error e => rw [hi] at h; cases h
  | ok i =>
    rw [hi] at h
    show (Action.ofExcept (passedArgument s.bindings "arg" i) >>= fun w => pure w.coerced) f s = _
    rw [show passedArgument s.bindings "arg" i = .ok w from h]
    rfl

theorem arg_of_error {v : Value} {e : MacroError} {s : RunState}
    (h : indexAt [v] "arg" 0 >>= passedArgument s.bindings "arg" = .error e) (calls : Calls)
    (f : Frame) : Registry.builtins.call calls "arg" [v] f s = (.error (.error e), s) := by
  rw [Registry.call_of_untrusted (b := arg) (Registry.find?_builtins _) rfl rfl]
  show ((Action.ofExcept (indexAt [v] "arg" 0) >>= fun i => MonadState.get >>= fun s : RunState =>
    Action.ofExcept (passedArgument s.bindings "arg" i)) >>= fun w => pure w.coerced) f s = _
  cases hi : indexAt [v] "arg" 0 with
  | error e' =>
    rw [hi] at h
    rw [show e' = e from Except.error.inj h]
    rfl
  | ok i =>
    rw [hi] at h
    show (Action.ofExcept (passedArgument s.bindings "arg" i) >>= fun w => pure w.coerced) f s = _
    rw [show passedArgument s.bindings "arg" i = .error e from h]
    rfl

end Builtin

/-- **A callee sees its own arguments.**  Once arguments are bound, whatever was bound before: `argCount`
    is their number; `arg` has the argument at each position below it, coerced, and fails for all else that
    it is given; and `json.get` has the same value at the same position of the array of all arguments, if
    the argument is a text, a tree or an integer of 64 bits. -/
theorem Variables.bindArguments_seen {args : List Value} (h : args.length < 2 ^ 63) (calls : Calls)
    (f : Frame) (s : RunState) :
    let t : RunState := { s with bindings := Variables.bindArguments s.bindings args }
    let call (name : String) (values : List Value) := Registry.builtins.call calls name values f t
    call "argCount" [] = (.ok (.ofInt args.length), t) ∧
    (∀ (v : Value) (i : Nat) (hi : i < args.length), v.position? = some (i : Int) →
      call "arg" [v] = (.ok args[i].coerced, t) ∧
      (args[i].Storable → ∃ packed w,
        Action.lookup? Variables.argumentsName f t = (.ok (some packed), t) ∧
        call "json.get" [packed, v] = (.ok w, t) ∧ w.Same args[i].coerced)) ∧
    ∀ v : Value, (∀ i : Nat, i < args.length → v.position? ≠ some (i : Int)) →
      ∃ why, call "arg" [v] = (.error (.error (.malformedArgument "arg" 1 why)), t) := by
  intro t call
  have hcount : t.bindings.argumentCount = args.length := argumentCount_bindArguments s.bindings h
  refine ⟨?_, fun v i hi hv => ⟨?_, fun hstorable => ?_⟩, fun v hv => ?_⟩
  · have hword : Int.bmod args.length (2 ^ 64) = args.length := by
      rw [Int.bmod_eq_emod_of_lt, Int.emod_eq_of_lt] <;> omega
    show Registry.builtins.call calls "argCount" [] f t = _
    rw [Builtin.argCount_apply, hcount, Value.ofWord, hword]
  · have hindex : Arguments.indexAt [v] "arg" 0 = .ok i :=
      Arguments.indexAt_of_position hv (by omega)
    refine Builtin.arg_of_ok ?_ calls f
    rw [hindex]
    exact Builtin.passedArgument_of_lt (by omega) (get?_bindArguments_argumentName s.bindings hi)
  · -- the array of the arguments, of which there is one at least
    have hpacked : packed args = .tree (.array (args.map Value.toJson)) := by
      rw [packed, if_neg]
      rw [List.isEmpty_iff]
      exact List.ne_nil_of_length_pos (by omega)
    have hplace : i < (args.map Value.toJson).length := by
      rw [List.length_map]
      exact hi
    have hget := Builtin.jsonGet_array hplace hv (by rw [List.length_map]; exact h) calls f t
    rw [List.getElem_map, Value.coerced_ofJson_toJson hstorable, ← hpacked] at hget
    refine ⟨packed args, _, ?_, hget, Value.ofJson_toJson hstorable⟩
    show (Except.ok ((Assoc.get? t.bindings argumentsName).or _), t) = _
    rw [show Assoc.get? t.bindings argumentsName = some (packed args) from
      get?_bindArguments_argumentsName s.bindings args]
    rfl
  · rcases Arguments.indexAt_cases [v] "arg" 0 with ⟨n, hn, hposition⟩ | ⟨why, hwhy⟩
    · have hle : t.bindings.argumentCount ≤ n := by
        rw [hcount]
        exact Nat.le_of_not_lt fun hlt => hv n hlt hposition
      refine ⟨.noSuchArgument n t.bindings.argumentCount, Builtin.arg_of_error ?_ calls f⟩
      rw [hn]
      exact Builtin.passedArgument_of_le "arg" hle
    · refine ⟨why, Builtin.arg_of_error ?_ calls f⟩
      rw [hwhy]
      rfl

/-- A frame of the game master. -/
def argumentsFrame : Frame := (RunRequest.ofText (.unattached true) "Gina" none).frame true

/-- The state of a function that was given three arguments. -/
def threeArguments : RunState :=
  ⟨Table.ofCampaign (Campaign.new "Stage") ⟨0⟩,
    Variables.bindArguments [] [.text "a", .text "b", .text "c"], ""⟩

/-- Two arguments on top of three: the number that a text writes is seen in both forms, and the third
    argument of the call before is out of reach. -/
theorem Variables.bindArguments_seen_again :
    let args : List Value := [.text "007", .tree (.array [])]
    let t := { threeArguments with bindings := bindArguments threeArguments.bindings args }
    let call (name : String) (values : List Value) :=
      Registry.builtins.call (Calls.ofDepth .builtins 1) name values argumentsFrame t
    args.length < 2 ^ 63 ∧ call "argCount" [] = (.ok (.ofInt 2), t) ∧
    call "arg" [.ofInt 0] = (.ok (.ofInt 7), t) ∧
    (∃ packed w, Action.lookup? argumentsName argumentsFrame t = (.ok (some packed), t) ∧
      call "json.get" [packed, .ofInt 0] = (.ok w, t) ∧ w.Same (.ofInt 7)) ∧
    ∃ why, call "arg" [.ofInt 2] = (.error (.error (.malformedArgument "arg" 1 why)), t) := by
  intro args t call
  have hlength : args.length < 2 ^ 63 := by decide
  have hseven : Value.coerce "007" = .ofInt 7 := Value.coerce_of_ofText? (by decide +kernel)
  obtain ⟨hcount, hargs, hnone⟩ :=
    bindArguments_seen hlength (Calls.ofDepth .builtins 1) argumentsFrame threeArguments
  obtain ⟨harg, hget⟩ := hargs (.ofInt 0) 0 (by decide) (by decide)
  obtain ⟨packed, w, hpacked, hw, hsame⟩ := hget trivial
  have hthird : ∀ i : Nat, i < args.length → (Value.ofInt 2).position? ≠ some (i : Int) := by decide
  refine ⟨hlength, hcount, ?_, ⟨packed, w, hpacked, hw, ?_⟩, hnone _ hthird⟩
  · rw [← hseven]
    exact harg
  · rw [← hseven]
    exact hsame

end Tabletop
