import Mathlib.Data.List.Forall2
import Mathlib.Data.List.Perm.Subperm
import Mathlib.Data.List.Sort
import Tabletop.Macro.Evaluate
import Tabletop.Proofs.Calls.Equations
import Tabletop.Proofs.Dice.Limits

/-
  Rolls are exact.

  1. **What counts** — a choice parts the faces of a pool into those that it keeps and those that it
     drops, so that no dropped face is better than a kept one (`Keep.Parts`).  That the kept ones are
     the front of a sorted list does not show in the statement.

  2. **Throws** — the dice of an expression are thrown one after the other, and the pools record all
     faces in that order, whatever the choices are (`faces_rollPools`).

  3. **Sums** — the faces of a pool add up to at most `maxDice * maxSides`, so that no sum of some of
     them leaves a word.  The total starts at the modifier and only grows, hence it leaves a word on the
     way exactly if it does so at the end (`totalOf_eq`).

  4. **Words** — a list of random words below `2 ^ 32`, from which faces are taken without favour, is a
     source whose dice always fall on one of their faces (`Words.honest`).  So is the generator of a
     table (`Generator.honest`), and the value of dice in a macro is exact (`evaluateDice_exact`).
-/
namespace Tabletop.Dice

/-- The sum of faces. -/
def faceSum (faces : List Nat) : Nat := faces.foldr (· + ·) 0

/-- The sum of what counts in all pools. -/
def poolSum (rolls : List PoolRoll) : Nat := (rolls.map PoolRoll.sum).foldr (· + ·) 0

/-! ## What counts -/

/-- What a choice asks of the faces that it keeps and of those that it drops. -/
def Keep.Parts (keep : Keep) (kept dropped : List Nat) : Prop :=
  match keep with
  | .all => dropped = []
  | .highest n => kept.length = n ∧ ∀ a ∈ kept, ∀ b ∈ dropped, b ≤ a
  | .lowest n => kept.length = n ∧ ∀ a ∈ kept, ∀ b ∈ dropped, a ≤ b

/-- The front of a sorted list has the best elements. -/
theorem parts_of_sorted {r : Nat → Nat → Prop} {sorted faces : List Nat} (hperm : sorted.Perm faces)
    (hsorted : sorted.Pairwise r) {n : Nat} (hn : n ≤ faces.length) :
    (sorted.take n ++ sorted.drop n).Perm faces ∧
      (sorted.take n).length = n ∧ ∀ a ∈ sorted.take n, ∀ b ∈ sorted.drop n, r a b := by
  rw [← List.take_append_drop n sorted, List.pairwise_append] at hsorted
  refine ⟨?_, ?_, hsorted.2.2⟩
  · rwa [List.take_append_drop]
  · rw [List.length_take, hperm.length_eq, Nat.min_eq_left hn]

/-- **What a choice selects, and what it drops.** -/
theorem Keep.exists_parts {keep : Keep} {faces : List Nat} (h : keep.size faces.length ≤ faces.length) :
    ∃ dropped, (keep.select faces ++ dropped).Perm faces ∧ keep.Parts (keep.select faces) dropped := by
  cases keep with
  | all => exact ⟨[], by rw [List.append_nil]; exact .refl _, rfl⟩
  | highest n =>
    have hsorted : (faces.mergeSort fun a b => b ≤ a).Pairwise (· ≥ ·) := List.pairwise_mergeSort' (· ≥ ·) faces
    exact ⟨_, parts_of_sorted (List.mergeSort_perm ..) hsorted h⟩
  | lowest n =>
    have hsorted : (faces.mergeSort fun a b => a ≤ b).Pairwise (· ≤ ·) := List.pairwise_mergeSort' (· ≤ ·) faces
    exact ⟨_, parts_of_sorted (List.mergeSort_perm ..) hsorted h⟩

/-! ## Throws -/

variable {σ : Type} {die : Nat → σ → Nat × σ}

/-- The dice always fall on one of their faces. -/
def Honest (die : Nat → σ → Nat × σ) : Prop :=
  ∀ sides s, 1 ≤ sides → sides ≤ maxSides → 1 ≤ (die sides s).1 ∧ (die sides s).1 ≤ sides

/-- Dice with these sides, thrown one after the other. -/
def throws (die : Nat → σ → Nat × σ) : List Nat → σ → List Nat × σ
  | [], s => ([], s)
  | sides :: rest, s =>
    let behind := throws die rest (die sides s).2
    ((die sides s).1 :: behind.1, behind.2)

/-- The sides of the dice of a pool. -/
def Pool.dice (p : Pool) : List Nat := List.replicate p.count p.sides

theorem throws_append (a b : List Nat) (s : σ) :
    throws die (a ++ b) s =
      ((throws die a s).1 ++ (throws die b (throws die a s).2).1, (throws die b (throws die a s).2).2) := by
  induction a generalizing s with
  | nil => rfl
  | cons sides a ih =>
    rw [List.cons_append, throws, throws, ih]
    rfl

theorem rollFaces_eq (sides n : Nat) (s : σ) :
    rollFaces die sides n s = throws die (List.replicate n sides) s := by
  induction n generalizing s with
  | zero => rfl
  | succ n ih =>
    have hfirst : rollFaces die sides (n + 1) s = ((die sides s).1 :: (rollFaces die sides n (die sides s).2).1,
        (rollFaces die sides n (die sides s).2).2) := rfl
    rw [hfirst, ih]
    rfl

theorem mem_rollFaces (honest : Honest die) {sides : Nat} (hpos : 1 ≤ sides) (hle : sides ≤ maxSides)
    (n : Nat) (s : σ) : ∀ f ∈ (rollFaces die sides n s).1, 1 ≤ f ∧ f ≤ sides := by
  induction n generalizing s with
  | zero => exact nofun
  | succ n ih => exact List.forall_mem_cons.2 ⟨honest sides s hpos hle, ih (die sides s).2⟩

/-- **The pools record all faces** in the order in which the dice were thrown. -/
theorem faces_rollPools (ps : List Pool) (s : σ) :
    ((rollPools die ps s).1.flatMap PoolRoll.faces, (rollPools die ps s).2) =
      throws die (ps.flatMap Pool.dice) s := by
  induction ps generalizing s with
  | nil => rfl
  | cons p ps ih =>
    rw [List.flatMap_cons, throws_append, ← ih, Pool.dice, ← rollFaces_eq]
    rfl

/-! ## One pool -/

/-- A record of a roll of a pool: all faces, and the sum of those that the choice keeps. -/
structure Pool.Records (p : Pool) (r : PoolRoll) : Prop where
  length : r.faces.length = p.count
  faces : ∀ f ∈ r.faces, 1 ≤ f ∧ f ≤ p.sides
  sum : ∃ kept dropped, (kept ++ dropped).Perm r.faces ∧ p.keep.Parts kept dropped ∧ r.sum = faceSum kept
  /-- Whichever of the faces are added, the sum stays within a word. -/
  inWord : ∀ part : List Nat, part.Subperm r.faces → Decimal.InWord (faceSum part)

theorem faceSum_le {bound : Nat} {faces : List Nat} (h : ∀ f ∈ faces, f ≤ bound) :
    faceSum faces ≤ faces.length * bound := by
  induction faces with
  | nil => exact Nat.zero_le _
  | cons f faces ih =>
    obtain ⟨hf, hfaces⟩ := List.forall_mem_cons.1 h
    have hrest := ih hfaces
    have hsum : faceSum (f :: faces) = f + faceSum faces := rfl
    rw [hsum, List.length_cons, Nat.succ_mul]
    omega

/-- Faces of at most `maxDice` dice add up to a number far inside of a word. -/
theorem faceSum_inWord {faces : List Nat} (hlength : faces.length ≤ maxDice) (h : ∀ f ∈ faces, f ≤ maxSides) :
    Decimal.InWord (faceSum faces) := by
  have hsum : faceSum faces ≤ maxDice * maxSides :=
    Nat.le_trans (faceSum_le h) (Nat.mul_le_mul_right maxSides hlength)
  have hbound : maxDice * maxSides = 10000000000 := rfl
  constructor <;> omega

/-- **A pool that is rolled is recorded.** -/
theorem Pool.records_score {p : Pool} (legal : p.Legal) (honest : Honest die) (s : σ) :
    p.Records (p.score (rollFaces die p.sides p.count s).1) := by
  have hlength := length_rollFaces die p.sides p.count s
  have hfaces := mem_rollFaces honest legal.sides_pos legal.sides_le p.count s
  have hkeep : p.keep.size (rollFaces die p.sides p.count s).1.length ≤
      (rollFaces die p.sides p.count s).1.length := by
    rw [hlength]
    exact legal.keep_le
  obtain ⟨dropped, hperm, hparts⟩ := Keep.exists_parts hkeep
  refine ⟨hlength, hfaces, ⟨_, dropped, hperm, hparts, rfl⟩, fun part hpart => ?_⟩
  refine faceSum_inWord ?_ fun f hf => Nat.le_trans (hfaces f (hpart.subset hf)).2 legal.sides_le
  exact Nat.le_trans hpart.length_le (Nat.le_trans (Nat.le_of_eq hlength) legal.count_le)

theorem records_rollPools {ps : List Pool} (legal : ∀ p ∈ ps, p.Legal) (honest : Honest die) (s : σ) :
    List.Forall₂ Pool.Records ps (rollPools die ps s).1 := by
  induction ps generalizing s with
  | nil => exact .nil
  | cons p ps ih =>
    obtain ⟨hp, hps⟩ := List.forall_mem_cons.1 legal
    exact .cons (Pool.records_score hp honest s) (ih hps _)

/-! ## The total -/

/-- Sums that are not negative leave a word exactly if the last one does. -/
theorem foldlM_addWord {m : Int} (hm : Decimal.InWord m) (rolls : List PoolRoll) :
    rolls.foldlM (fun total r => addWord total r.sum) m =
      if Decimal.InWord (m + poolSum rolls) then .ok (m + poolSum rolls) else .error .overflow := by
  induction rolls generalizing m with
  | nil =>
    have hzero : m + poolSum [] = m := Int.add_zero m
    rw [hzero, if_pos hm]
    rfl
  | cons r rolls ih =>
    have hsum : m + poolSum (r :: rolls) = m + r.sum + poolSum rolls := by
      show m + ((r.sum + poolSum rolls : Nat) : Int) = _
      omega
    rw [hsum, List.foldlM_cons, addWord]
    by_cases hword : Decimal.InWord (m + r.sum)
    · rw [if_pos hword]
      exact ih hword
    · -- what comes behind makes it only larger
      have hlarge : ¬Decimal.InWord (m + r.sum + poolSum rolls) := by
        intro hin
        obtain ⟨hlow, -⟩ := hm
        obtain ⟨-, hhigh⟩ := hin
        exact hword ⟨by omega, by omega⟩
      rw [if_neg hword, if_neg hlarge]
      rfl

/-- **The total is exact, or it is too large.** -/
theorem totalOf_eq {e : Expression} (h : Decimal.InWord e.modifier) (rolls : List PoolRoll) :
    e.totalOf rolls =
      if Decimal.InWord (e.modifier + poolSum rolls) then .ok (e.modifier + poolSum rolls)
      else .error .overflow := foldlM_addWord h rolls

/-- What a roll of an expression comes to, in terms of the faces that are thrown. -/
structure Expression.RollsTo (e : Expression) (die : Nat → σ → Nat × σ) (s : σ) (rolls : List PoolRoll) :
    Prop where
  /-- The pools record the faces in the order in which they are thrown. -/
  thrown : (rolls.flatMap PoolRoll.faces, (e.rollWith die s).2) = throws die (e.pools.flatMap Pool.dice) s
  records : List.Forall₂ Pool.Records e.pools rolls
  total : (e.rollWith die s).1 =
    if Decimal.InWord (e.modifier + poolSum rolls) then .ok ⟨rolls, e.modifier + poolSum rolls⟩
    else .error .overflow

theorem Expression.exists_rollsTo {e : Expression} (legal : e.Legal) (honest : Honest die) (s : σ) :
    ∃ rolls, e.RollsTo die s rolls := by
  refine ⟨_, faces_rollPools e.pools s, records_rollPools legal.pools honest s, ?_⟩
  have hroll : (e.rollWith die s).1 =
      (e.totalOf (rollPools die e.pools s).1).map fun total => ⟨(rollPools die e.pools s).1, total⟩ := rfl
  rw [hroll, totalOf_eq legal.modifier]
  split <;> rfl

/-- **Rolls are exact.**  For an expression that was read and dice that always fall on one of their
    faces, the pools record all faces in the order in which the dice were thrown; each pool records as
    many as it has dice, between 1 and the number of sides, and adds up all of them, the highest, or the
    lowest, as its choice asks.  The roll is the exact total if it is one of 64 bits, and an overflow if
    it is not; nothing else leaves a word. -/
theorem rollWith_exact {die : Nat → σ → Nat × σ} (honest : Honest die) {source : String} {e : Expression}
    (h : Expression.parse source = .ok e) (s : σ) :
    ∃ rolls : List PoolRoll,
      (rolls.flatMap PoolRoll.faces, (e.rollWith die s).2) = throws die (e.pools.flatMap Pool.dice) s ∧
      List.Forall₂ Pool.Records e.pools rolls ∧
      (e.rollWith die s).1 =
        if Decimal.InWord (e.modifier + poolSum rolls) then .ok ⟨rolls, e.modifier + poolSum rolls⟩
        else .error .overflow := by
  obtain ⟨rolls, hrolls⟩ := Expression.exists_rollsTo (Expression.legal_of_parse h) honest s
  exact ⟨rolls, hrolls.thrown, hrolls.records, hrolls.total⟩

/-! ## Words -/

theorem faceOfWords_isSuffix (n : Nat) (ws : List Nat) : (faceOfWords n ws).2 <:+ ws := by
  induction ws with
  | nil => exact List.suffix_refl []
  | cons w ws ih =>
    rw [faceOfWords]
    split
    · exact List.suffix_cons w ws
    · exact ih.trans (List.suffix_cons w ws)

/-- Random words of 32 bits. -/
structure Words where
  words : List Nat
  small : ∀ w ∈ words, w < 2 ^ 32

namespace Words

/-- Throws a die with `n` sides. -/
def face (n : Nat) (ws : Words) : Nat × Words :=
  ((faceOfWords n ws.words).1,
    ⟨(faceOfWords n ws.words).2, fun w hw => ws.small w ((faceOfWords_isSuffix n ws.words).subset hw)⟩)

/-- **Faces that are made from words lie on the die.** -/
theorem honest : Honest face := fun _ ws hpos _ => faceOfWords_mem hpos ws.words ws.small

end Words

/-- Words for five dice; the fourth one is thrown away, as it would favour a face. -/
def fiveDice : Words := ⟨[2 ^ 31, 0, 3 * 2 ^ 30, 2 ^ 32 - 1, 2 ^ 30, 2 ^ 29], by decide⟩

/-- The three highest of four dice, and one die more. -/
theorem rollWith_exact_fiveDice :
    Honest Words.face ∧
    Expression.parse "4d6kh3+d20-2" = .ok ⟨[⟨4, 6, .highest 3⟩, ⟨1, 20, .all⟩], -2⟩ ∧
    (throws Words.face [6, 6, 6, 6, 20] fiveDice).1 = [4, 1, 5, 2, 3] ∧
    ∃ rolls : List PoolRoll, rolls.flatMap PoolRoll.faces = [4, 1, 5, 2, 3] ∧
      List.Forall₂ Pool.Records [⟨4, 6, .highest 3⟩, ⟨1, 20, .all⟩] rolls ∧
      ((⟨[⟨4, 6, .highest 3⟩, ⟨1, 20, .all⟩], -2⟩ : Expression).rollWith Words.face fiveDice).1 =
        if Decimal.InWord (-2 + poolSum rolls) then .ok ⟨rolls, -2 + poolSum rolls⟩
        else .error .overflow := by
  have hparse : Expression.parse "4d6kh3+d20-2" = .ok ⟨[⟨4, 6, .highest 3⟩, ⟨1, 20, .all⟩], -2⟩ := by rfl
  have hthrows : (throws Words.face [6, 6, 6, 6, 20] fiveDice).1 = [4, 1, 5, 2, 3] := by decide +kernel
  obtain ⟨rolls, hfaces, hrecords, hroll⟩ := rollWith_exact Words.honest hparse fiveDice
  refine ⟨Words.honest, hparse, hthrows, rolls, ?_, hrecords, hroll⟩
  rw [← hthrows]
  exact congrArg Prod.fst hfaces

/-! ## At a table -/

/-- The dice of a table always fall on one of their faces. -/
theorem Generator.honest : Honest Generator.face := fun _ g hpos _ => face_mem hpos g

/-- **The value of dice in a macro** is the exact total of what the generator of the table throws, or an
    overflow.  All dice are thrown in both cases, and nothing else at the table changes. -/
theorem evaluateDice_exact {source : String} {e : Expression} (h : Expression.parse source = .ok e)
    (f : Frame) (s : RunState) :
    ∃ rolls, e.RollsTo Generator.face s.table.dice rolls ∧
      evaluateDice source f s =
        (if Decimal.InWord (e.modifier + poolSum rolls) then .ok (.ofInt (e.modifier + poolSum rolls))
          else .error (.error (.evaluation (.dice .overflow))),
        { s with table := { s.table with
            dice := (throws Generator.face (e.pools.flatMap Pool.dice) s.table.dice).2 } }) := by
  obtain ⟨rolls, hrolls⟩ :=
    Expression.exists_rollsTo (Expression.legal_of_parse h) Generator.honest s.table.dice
  refine ⟨rolls, hrolls, ?_⟩
  have hroll : rollDice e f s = ((.ok (e.rollWith Generator.face s.table.dice).1),
      { s with table := { s.table with dice := (e.rollWith Generator.face s.table.dice).2 } }) := rfl
  unfold evaluateDice
  rw [h]
  dsimp only
  rw [Action.bind_apply, hroll, hrolls.total, ← hrolls.thrown]
  dsimp only
  split <;> rfl

end Tabletop.Dice
