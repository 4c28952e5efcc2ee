import Tabletop.Dice.Basic

/-
  Rolling dice.

  1. **A source of rolls** — a function that takes the number of sides and a state and answers with
     a face and the next state.  `faceOfWords` is the source that a list of random words gives.

  2. **A roll** — every pool keeps all its faces in the order in which they fell; its sum counts the
     faces that the choice keeps.  The total may leave the range of 64 bits, which is an error.

  3. **Fair faces** — a word `w` below `2 ^ 32` stands for the face `1 + w * n / 2 ^ 32`.  Words
     whose remainder lies above the largest multiple are thrown away, so that every face has the
     same number of words.
-/
namespace Tabletop.Dice

/-- The faces of a pool and the sum of those that count. -/
structure PoolRoll where
  faces : List Nat
  sum : Nat
deriving DecidableEq, Repr, Inhabited

/-- The rolls of all pools and the total. -/
structure Roll where
  pools : List PoolRoll
  total : Int
deriving DecidableEq, Repr, Inhabited

/-! ## What counts -/

/-- The faces that a choice keeps. -/
def Keep.select (keep : Keep) (faces : List Nat) : List Nat :=
  match keep with
  | .all => faces
  | .highest n => (faces.mergeSort (fun a b => b ≤ a)).take n
  | .lowest n => (faces.mergeSort (fun a b => a ≤ b)).take n

/-- The roll of a pool whose dice fell on `faces`. -/
def Pool.score (p : Pool) (faces : List Nat) : PoolRoll := ⟨faces, (p.keep.select faces).foldr (· + ·) 0⟩

/-! ## Rolling -/

variable {σ : Type}

/-- `n` faces of dice with `sides` sides. -/
def rollFaces (die : Nat → σ → Nat × σ) (sides : Nat) : Nat → σ → List Nat × σ
  | 0, s => ([], s)
  | n + 1, s =>
    let (face, s) := die sides s
    let (faces, s) := rollFaces die sides n s
    (face :: faces, s)

/-- Rolls the pools in order. -/
def rollPools (die : Nat → σ → Nat × σ) : List Pool → σ → List PoolRoll × σ
  | [], s => ([], s)
  | p :: ps, s =>
    let (faces, s) := rollFaces die p.sides p.count s
    let (rolls, s) := rollPools die ps s
    (p.score faces :: rolls, s)

/-- Adds the sums to the modifier. -/
def Expression.totalOf (e : Expression) (rolls : List PoolRoll) : Except DiceError Int :=
  rolls.foldlM (fun total r => addWord total r.sum) e.modifier

/-- Rolls all dice of an expression, also where the total turns out too large. -/
def Expression.rollWith (die : Nat → σ → Nat × σ) (e : Expression) (s : σ) :
    Except DiceError Roll × σ :=
  let (rolls, s) := rollPools die e.pools s
  ((e.totalOf rolls).map fun total => ⟨rolls, total⟩, s)

/-! ## Random words -/

/-- The largest remainder that a word may leave for a die with `n` sides. -/
def zone (n : Nat) : Nat := n * 2 ^ (31 - n.log2) - 1

/-- A face from the words of a generator, which gives zeros when the list has run out. -/
def faceOfWords (n : Nat) : List Nat → Nat × List Nat
  | [] => (1, [])
  | w :: ws =>
    if w * n % 2 ^ 32 ≤ zone n then (1 + w * n / 2 ^ 32, ws) else faceOfWords n ws

/-! ## Writing -/

/-- Numbers in brackets. -/
def facesText (faces : List Nat) : String :=
  "[" ++ ", ".intercalate (faces.map fun (f : Nat) => Decimal.displayInt f) ++ "]"

/-- The faces of every pool and the total. -/
def Roll.display (r : Roll) : String :=
  String.join (r.pools.map fun p => facesText p.faces ++ " ") ++ "= " ++ Decimal.displayInt r.total

/-! ## Small laws -/

/-- A face made from words of 32 bits lies on the die. -/
theorem faceOfWords_mem {n : Nat} (hn : 1 ≤ n) (ws : List Nat) (hw : ∀ w ∈ ws, w < 2 ^ 32) :
    1 ≤ (faceOfWords n ws).1 ∧ (faceOfWords n ws).1 ≤ n := by
  induction ws with
  | nil => exact ⟨Nat.le_refl _, hn⟩
  | cons w ws ih =>
    simp only [faceOfWords]
    split
    · refine ⟨by simp, ?_⟩
      have hlt : w * n / 2 ^ 32 < n := by
        rw [Nat.div_lt_iff_lt_mul (by decide), Nat.mul_comm n]
        exact Nat.mul_lt_mul_of_pos_right (hw w (by simp)) hn
      show 1 + w * n / 2 ^ 32 ≤ n
      omega
    · exact ih fun x hx => hw x (List.mem_cons_of_mem _ hx)

@[simp] theorem length_rollFaces (die : Nat → σ → Nat × σ) (sides n : Nat) (s : σ) :
    (rollFaces die sides n s).1.length = n := by
  induction n generalizing s with
  | zero => rfl
  | succ n ih => simp [rollFaces, ih]

end Tabletop.Dice
