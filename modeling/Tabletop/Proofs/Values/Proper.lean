import Tabletop.Builtin.Basic

/-
  The values of the language, and where they come from.

  A tree that stands as a value is an array or an object.  The type of values does not say so; it is
  true of every value that is made, and each way of making one is a lemma here.

  1. **Values** — `Value.IsProper`.  Reading a node out of a tree, a text or the output of a body makes a
     proper value; so do the operators, whatever their operands are.

  2. **Variables** — all their values are proper, and stay so when arguments are bound.

  3. **Expressions** — the literals in a source text are numbers and texts.  The induction is on the
     fuel of all readers at once, for they call each other.
-/
namespace Tabletop

/-! ## OnlyAnswers -/

/-- All that a computation can answer with is so. -/
def OnlyAnswers {ε α : Type} (Q : α → Prop) (r : Except ε α) : Prop := ∀ a, r = .ok a → Q a

namespace OnlyAnswers

variable {ε α β : Type} {P : α → Prop} {Q : β → Prop}

/-- An answer is so if it is so itself. -/
theorem ok {a : α} (h : P a) : OnlyAnswers P (.ok a : Except ε α) := by
  rintro _ ⟨⟩
  exact h

/-- There is no answer to speak of. -/
theorem error (e : ε) : OnlyAnswers P (.error e : Except ε α) := by
  intro _ h
  cases h

/-- What does not matter holds of every answer. -/
theorem any (r : Except ε α) : OnlyAnswers (fun _ => True) r := fun _ _ => trivial

/-- The second computation starts from an answer of the first. -/
theorem bind {r : Except ε α} {k : α → Except ε β} (h : OnlyAnswers P r)
    (hk : ∀ a, P a → OnlyAnswers Q (k a)) : OnlyAnswers Q (r >>= k) := by
  cases r with
  | error e => exact error e
  | ok a => exact hk a (h a rfl)

end OnlyAnswers

/-! ## Values -/

namespace Value

/-- A number, a text, or an array or object. -/
inductive IsProper : Value → Prop
  | number (n : Decimal) : IsProper (.number n)
  | text (s : String) : IsProper (.text s)
  | tree {j : Json} (h : j.isTree = true) : IsProper (.tree j)

/-- Of a tree that stands as a value nothing is asked but its kind. -/
theorem isProper_tree_iff {j : Json} : (tree j).IsProper ↔ j.isTree = true := by
  constructor
  · rintro ⟨⟩
    assumption
  · exact .tree

instance : DecidablePred IsProper
  | .number n => .isTrue (.number n)
  | .text s => .isTrue (.text s)
  | .tree _ => decidable_of_iff _ isProper_tree_iff.symm

/-- Text is coerced to a number or stays text. -/
theorem isProper_coerce (s : String) : (coerce s).IsProper := by
  unfold coerce
  split
  · exact .number _
  · exact .text s

/-- Coercion makes no tree of anything. -/
theorem IsProper.coerced {v : Value} (h : v.IsProper) : v.coerced.IsProper := by
  cases h with
  | number n => exact .number n
  | text s => exact isProper_coerce s
  | tree h => exact .tree h

/-- The tree that a text writes is an array or an object. -/
theorem isTree_of_parseTree? {s : String} {j : Json} (h : Json.parseTree? s = some j) :
    j.isTree = true := by
  unfold Json.parseTree? at h
  dsimp only at h
  split at h
  · exact (Option.filter_eq_some_iff.1 h).2
  · cases h

/-- The text that a body has produced is read as a tree, a number or text. -/
theorem isProper_ofOutput (s : String) : (ofOutput s).IsProper := by
  unfold ofOutput
  split
  · next j h => exact .tree (isTree_of_parseTree? h)
  · exact isProper_coerce s

/-- **A node that is read out of a tree** is a proper value, whatever node it is. -/
theorem isProper_ofJson (j : Json) : (ofJson j).IsProper := by
  unfold ofJson
  split
  · exact .text _
  · exact .text _
  · exact .number _
  · split
    · exact .number _
    · exact .text _
  · exact isProper_coerce _
  · exact .tree rfl
  · exact .tree rfl

/-- What a proper value is read as is an array or an object. -/
theorem IsProper.isTree_of_asTree? {v : Value} (h : v.IsProper) {j : Json} (hj : v.asTree? = some j) :
    j.isTree = true := by
  cases v with
  | number d => cases hj
  | text s => exact isTree_of_parseTree? (s := s) hj
  | tree j' =>
    obtain rfl : j' = j := Option.some.inj hj
    exact isProper_tree_iff.1 h

/-- A value that may be missing, with a default. -/
theorem isProper_getD {v : Option Value} {d : Value} (h : ∀ x ∈ v, x.IsProper) (hd : d.IsProper) :
    (v.getD d).IsProper := by
  cases v with
  | none => exact hd
  | some x => exact h x rfl

end Value

/-! ## Operators -/

/-- A number that has a place in the range, or an error. -/
theorem Value.isProper_ofNumber? (n : Option Decimal) : OnlyAnswers Value.IsProper (Value.ofNumber? n) := by
  cases n with
  | none => exact .error _
  | some d => exact .ok (.number _)

/-- Operands are read as numbers first. -/
theorem Value.isProper_arithmetic {g : Decimal → Decimal → Except EvaluationFault Value}
    (hg : ∀ m n, OnlyAnswers Value.IsProper (g m n)) (a b : Value) :
    OnlyAnswers Value.IsProper (Value.arithmetic g a b) := by
  unfold Value.arithmetic
  split
  · exact hg _ _
  · exact .error _

/-- `!` and `-` answer with numbers. -/
theorem UnaryOp.isProper_apply (op : UnaryOp) (v : Value) : OnlyAnswers Value.IsProper (op.apply v) := by
  cases op with
  | not => exact .ok (.number _)
  | negate =>
    unfold UnaryOp.apply
    dsimp only
    split
    · exact .ok (.number _)
    · exact .error _

/-- **An operator** answers with a number or a text. -/
theorem BinaryOp.isProper_apply (op : BinaryOp) (a b : Value) :
    OnlyAnswers Value.IsProper (op.apply a b) := by
  cases op with
  | add =>
    show OnlyAnswers _ (a.add b)
    unfold Value.add
    split
    · exact Value.isProper_ofNumber? _
    · exact .ok (.text _)
  | sub => exact Value.isProper_arithmetic (fun _ _ => Value.isProper_ofNumber? _) a b
  | mul => exact Value.isProper_arithmetic (fun _ _ => Value.isProper_ofNumber? _) a b
  | div =>
    refine Value.isProper_arithmetic (fun m n => ?_) a b
    unfold Value.divide
    split
    · exact .error _
    · exact Value.isProper_ofNumber? _
  | _ => exact .ok (.number _)

/-! ## Variables -/

namespace Variables

/-- The values of all variables are proper. -/
def Proper (vars : Variables) : Prop := ∀ x ∈ vars, x.2.IsProper

instance (vars : Variables) : Decidable vars.Proper :=
  inferInstanceAs (Decidable (∀ x ∈ vars, x.2.IsProper))

/-- There is no variable yet. -/
theorem proper_nil : Proper [] := by
  intro x hx
  cases hx

namespace Proper

variable {vars : Variables}

/-- A variable is set to a proper value. -/
theorem insert (h : vars.Proper) (name : String) {v : Value} (hv : v.IsProper) :
    Proper (Assoc.insert vars name v) := by
  -- the variable takes the place of the old one of its name, or comes last
  induction vars with
  | nil =>
    intro x hx
    obtain rfl := List.mem_singleton.1 hx
    exact hv
  | cons e rest ih =>
    have hrest : Proper rest := fun x hx => h x (List.mem_cons_of_mem _ hx)
    obtain ⟨k, u⟩ := e
    rw [Assoc.insert]
    split
    · intro x hx
      rcases List.mem_cons.1 hx with rfl | hx
      · exact hv
      · exact hrest x hx
    · intro x hx
      rcases List.mem_cons.1 hx with rfl | hx
      · exact h _ (List.mem_cons_self ..)
      · exact ih hrest x hx

/-- A variable is taken out. -/
theorem erase (h : vars.Proper) (name : String) : Proper (Assoc.erase vars name) :=
  fun x hx => h x (List.mem_filter.1 hx).1

/-- What is found is proper. -/
theorem get? (h : vars.Proper) {name : String} {v : Value} (hv : Assoc.get? vars name = some v) :
    v.IsProper := by
  induction vars with
  | nil => cases hv
  | cons e rest ih =>
    obtain ⟨k, u⟩ := e
    rw [Assoc.get?] at hv
    split at hv
    · obtain rfl := Option.some.inj hv
      exact h _ (List.mem_cons_self ..)
    · exact ih (fun x hx => h x (List.mem_cons_of_mem _ hx)) hv

/-- Numbered arguments are bound one by one. -/
theorem bindFrom (h : vars.Proper) (index : Nat) {args : List Value} (hargs : ∀ v ∈ args, v.IsProper) :
    (Variables.bindFrom vars index args).Proper := by
  induction args generalizing vars index with
  | nil => exact h
  | cons v vs ih =>
    exact ih (h.insert _ (hargs v (List.mem_cons_self ..))) (index + 1)
      fun x hx => hargs x (List.mem_cons_of_mem _ hx)

/-- Arguments are bound one by one, and as an array of all of them. -/
theorem bindArguments (h : vars.Proper) {args : List Value} (hargs : ∀ v ∈ args, v.IsProper) :
    (Variables.bindArguments vars args).Proper := by
  -- no argument at all is packed as empty text, not as an empty array
  have hpacked : (packed args).IsProper := by
    unfold packed
    split
    · exact .text _
    · exact .tree rfl
  have hcount : (Value.ofInt args.length).IsProper := .number _
  exact ((h.insert _ hpacked).insert _ hcount).bindFrom 0 hargs

/-- The argument of a macro is text that is read as output is. -/
theorem bindArgumentText (h : vars.Proper) (s : String) :
    (Variables.bindArgumentText vars s).Proper :=
  h.insert _ (Value.isProper_ofOutput s)

end Proper

end Variables

/-! ## Arguments -/

namespace Arguments

variable {args : List Value}

/-- An argument that is missing is empty text. -/
theorem isProper_valueAt (hargs : ∀ v ∈ args, v.IsProper) (i : Nat) : (valueAt args i).IsProper :=
  Value.isProper_getD (fun _ hx => hargs _ (List.mem_of_getElem? hx)) (.text _)

/-- **A tree in an argument** is an array or an object. -/
theorem isTree_treeAt (hargs : ∀ v ∈ args, v.IsProper) (function : String) (i : Nat) :
    OnlyAnswers (fun j => j.isTree = true) (treeAt args function i) := by
  unfold treeAt
  split
  · next j hj => exact .ok ((isProper_valueAt hargs i).isTree_of_asTree? hj)
  · exact .error _

/-- An argument that is missing is the default. -/
theorem isTree_treeOr (hargs : ∀ v ∈ args, v.IsProper) (function : String) (i : Nat) {default : Json}
    (hdefault : default.isTree = true) :
    OnlyAnswers (fun j => j.isTree = true) (treeOr args function i default) := by
  unfold treeOr
  split
  · exact .ok hdefault
  · exact isTree_treeAt hargs function i

end Arguments

/-! ## Expressions -/

namespace Expr

/-- All literals in the expression are proper. -/
inductive Proper : Expr → Prop
  | literal {v : Value} (h : v.IsProper) : Proper (.literal v)
  | dice (s : String) : Proper (.dice s)
  | variable (x : String) : Proper (.variable x)
  | call (f : String) {args : List Expr} (h : ∀ e ∈ args, Proper e) : Proper (.call f args)
  | unary (op : UnaryOp) {e : Expr} (h : Proper e) : Proper (.unary op e)
  | binary (op : BinaryOp) {l r : Expr} (hl : Proper l) (hr : Proper r) : Proper (.binary op l r)
  | assign (x : String) {e : Expr} (h : Proper e) : Proper (.assign x e)

/-- All readers make proper expressions with this fuel. -/
structure ReadProper (fuel : Nat) : Prop where
  expr : ∀ ts, OnlyAnswers (fun x => Proper x.1) (readExpr fuel ts)
  level : ∀ level ts, OnlyAnswers (fun x => Proper x.1) (readLevel fuel level ts)
  chain : ∀ level l ts, Proper l → OnlyAnswers (fun x => Proper x.1) (readChain fuel level l ts)
  unary : ∀ ts, OnlyAnswers (fun x => Proper x.1) (readUnary fuel ts)
  operand : ∀ ts, OnlyAnswers (fun x => Proper x.1) (readOperand fuel ts)
  arguments : ∀ ts, OnlyAnswers (fun x => ∀ e ∈ x.1, Proper e) (readArguments fuel ts)

/-- A reader calls others with less fuel, and makes literals of numbers and quoted texts alone. -/
theorem readProper_of_lt {fuel : Nat} (h : ∀ m < fuel, ReadProper m) : ReadProper fuel := by
  constructor
  · -- an expression: an assignment, or the chain of the lowest level
    intro ts
    fun_cases readExpr fuel ts
    · exact .error _
    · next m _ _ => exact .bind ((h m (by omega)).expr _) fun x hx => .ok (.assign _ hx)
    · next m _ => exact (h m (by omega)).level 0 ts
  · -- a level: one operand, and what is chained to it
    intro level ts
    fun_cases readLevel fuel level ts
    · exact .error _
    · next m => exact (h m (by omega)).unary ts
    · next m _ =>
      have hm := h m (by omega)
      exact .bind (hm.level _ _) fun x hx => hm.chain level x.1 x.2 hx
  · -- a chain: the left side so far has been read and is proper
    intro level l ts hl
    fun_cases readChain fuel level l ts
    · exact .error _
    · exact .ok hl
    · next m _ _ _ =>
      have hm := h m (by omega)
      exact .bind (hm.level _ _) fun x hx => hm.chain level _ x.2 (.binary _ hl hx)
  · -- a sign or a negation in front of an operand
    intro ts
    fun_cases readUnary fuel ts
    · exact .error _
    · next m _ => exact .bind ((h m (by omega)).unary _) fun x hx => .ok (.unary _ hx)
    · next m _ => exact .bind ((h m (by omega)).unary _) fun x hx => .ok (.unary _ hx)
    · next m _ _ => exact (h m (by omega)).operand ts
  · -- an operand: the only place where literals are made
    intro ts
    fun_cases readOperand fuel ts
    · exact .error _
    · exact .ok (.literal (.number _))
    · exact .ok (.literal (.text _))
    · exact .ok (.dice _)
    · exact .ok (.call _ (by simp))
    · next m _ _ _ => exact .bind ((h m (by omega)).arguments _) fun x hx => .ok (.call _ hx)
    · exact .ok (.variable _)
    · next m _ =>
      refine .bind ((h m (by omega)).expr _) fun x hx => ?_
      split
      · exact .ok hx
      · exact .error _
    · exact .error _
  · -- the arguments of a call, up to its bracket
    intro ts
    fun_cases readArguments fuel ts
    · exact .error _
    · next m =>
      have hm := h m (by omega)
      refine .bind (hm.expr ts) fun x hx => ?_
      split
      · exact .ok (by simpa using hx)
      · refine .bind (hm.arguments _) fun y hy => .ok ?_
        simpa using ⟨hx, hy⟩
      · exact .error _

/-- All readers make proper expressions, by strong induction on the fuel. -/
theorem readProper (fuel : Nat) : ReadProper fuel :=
  readProper_of_lt fun m _ => readProper m

/-- Statements are read one after the other, up to the end of the text. -/
theorem readStatements_proper (fuel : Nat) (ts : List Lexeme) :
    OnlyAnswers (fun es => ∀ e ∈ es, Proper e) (readStatements fuel ts) := by
  fun_induction readStatements fuel ts
  · exact .ok (by simp)
  · exact .ok (by simp)
  · next ih => exact ih
  · next ts _ _ ih =>
    refine .bind ((readProper _).expr ts) fun x hx => ?_
    split
    · exact .ok (by simpa using hx)
    · next e rest =>
      refine .bind (ih rest) fun es hes => .ok ?_
      simpa using ⟨hx, hes⟩
    · exact .error _

/-- **The literals in a source text** are numbers and texts. -/
theorem parse_proper (s : String) : OnlyAnswers (fun es => ∀ e ∈ es, Proper e) (parse s) :=
  .bind (.any _) fun _ _ => readStatements_proper _ _

end Expr

end Tabletop
