import Tabletop.Proofs.Json.Layout
import Tabletop.Json.Record

/-
  Records that are read as they were written.

  1. **Plain and not too deep** — `Within n j`: the text of `j` can be read back where `n` levels are
     left.  The lemmas follow the ways in which a document is put together.

  2. **Read as written** — `ReadsBack n write read a`: what is written of `a` is within `n` levels, and
     it is read as `a`.  A list has it if its items do.

  3. **Records** — an object whose keys are all different passes the check that no field is there twice
     (`JsonRecord.ofJson?_object`).  So a record that writes all its fields is read back if it finds
     them again (`ReadsBack.record`).
-/
namespace Tabletop

namespace Json

/-! ## Plain and not too deep -/

/-- A plain document that is nested at most so deep. -/
structure Within (n : Nat) (j : Json) : Prop where
  plain : j.Plain
  depth : j.nesting ≤ n

/-- The elements of an array are plain, each by itself. -/
theorem plainItems_iff (xs : List Json) : PlainItems xs ↔ ∀ x ∈ xs, x.Plain := by
  induction xs with
  | nil => simp [PlainItems]
  | cons x xs ih => rw [PlainItems, ih, List.forall_mem_cons]

/-- None of them is nested more deeply. -/
theorem nestingItems_le_iff (xs : List Json) (n : Nat) :
    nestingItems xs ≤ n ↔ ∀ x ∈ xs, x.nesting ≤ n := by
  induction xs with
  | nil => simp [nestingItems]
  | cons x xs ih => rw [nestingItems, Nat.max_le, ih, List.forall_mem_cons]

/-- The values of an object are plain, each by itself. -/
theorem plainFields_iff (fs : List (String × Json)) : PlainFields fs ↔ ∀ f ∈ fs, f.2.Plain := by
  induction fs with
  | nil => simp [PlainFields]
  | cons f fs ih => rw [PlainFields, ih, List.forall_mem_cons]

/-- None of them is nested more deeply. -/
theorem nestingFields_le_iff (fs : List (String × Json)) (n : Nat) :
    nestingFields fs ≤ n ↔ ∀ f ∈ fs, f.2.nesting ≤ n := by
  induction fs with
  | nil => simp [nestingFields]
  | cons f fs ih => rw [nestingFields, Nat.max_le, ih, List.forall_mem_cons]

namespace Within

variable {n : Nat}

theorem null : Within n .null := ⟨by simp [Plain], by simp [nesting]⟩

theorem bool (b : Bool) : Within n (.bool b) := ⟨by simp [Plain], by simp [nesting]⟩

theorem string (s : String) : Within n (.string s) := ⟨by simp [Plain], by simp [nesting]⟩

theorem ofInt {k : Int} (h : InWords k) : Within n (Json.ofInt k) :=
  ⟨by simpa [Json.ofInt, Plain] using h, by simp [Json.ofInt, nesting]⟩

/-- An array takes up one level. -/
theorem array {xs : List Json} (h : ∀ x ∈ xs, Within n x) : Within (n + 1) (.array xs) where
  plain := by
    rw [Plain, plainItems_iff]
    exact fun x hx => (h x hx).plain
  depth := by
    rw [nesting]
    exact Nat.succ_le_succ ((nestingItems_le_iff xs n).2 fun x hx => (h x hx).depth)

/-- So does an object, whose keys must differ. -/
theorem object {fs : List (String × Json)} (keys : (Assoc.keys fs).Nodup)
    (h : ∀ f ∈ fs, Within n f.2) : Within (n + 1) (.object fs) where
  plain := by
    rw [Plain, plainFields_iff]
    exact ⟨keys, fun f hf => (h f hf).plain⟩
  depth := by
    rw [nesting]
    exact Nat.succ_le_succ ((nestingFields_le_iff fs n).2 fun f hf => (h f hf).depth)

end Within

/-! ## Read as written -/

/-- What is written of a value is within so many levels, and is read as the value. -/
structure ReadsBack {α : Type} (n : Nat) (write : α → Json) (read : Json → Option α) (a : α) :
    Prop where
  within : Within n (write a)
  read_write : read (write a) = some a

/-- A list that was written element by element is read back element by element. -/
theorem mapM_map {α β : Type} {write : α → β} {read : β → Option α} {as : List α}
    (h : ∀ a ∈ as, read (write a) = some a) : (as.map write).mapM read = some as := by
  induction as with
  | nil => rfl
  | cons a as ih =>
    have ha := h a List.mem_cons_self
    have has := ih fun x hx => h x (List.mem_cons_of_mem _ hx)
    rw [List.map_cons, List.mapM_cons, ha, has]
    rfl

namespace ReadsBack

variable {α : Type} {n : Nat} {write : α → Json} {read : Json → Option α}

theorem text (s : String) : ReadsBack n .string readText s := ⟨.string s, rfl⟩

theorem flag (b : Bool) : ReadsBack n .bool readFlag b := ⟨.bool b, rfl⟩

/-- An integer of a range that fits a document. -/
theorem int {low high k : Int} (hlow : low ≤ k) (hhigh : k < high) (hwords : InWords k) :
    ReadsBack n Json.ofInt (readIntWithin low high) k :=
  ⟨.ofInt hwords, if_pos ⟨hlow, hhigh⟩⟩

/-- A natural number below a bound that fits a document. -/
theorem nat {bound k : Nat} (hk : k < bound) (hbound : bound ≤ 2 ^ 64) :
    ReadsBack n (fun k : Nat => Json.ofInt k) (readNatBelow bound) k where
  within := .ofInt ⟨by omega, by omega⟩
  read_write := by
    have hrange : (0 : Int) ≤ k ∧ (k : Int) < bound := ⟨Int.natCast_nonneg k, Int.ofNat_lt.2 hk⟩
    show (if (0 : Int) ≤ k ∧ (k : Int) < bound then some (k : Int) else none).map Int.toNat = some k
    rw [if_pos hrange]
    rfl

/-- A list is read back if its elements are. -/
theorem list {as : List α} (h : ∀ a ∈ as, ReadsBack n write read a) :
    ReadsBack (n + 1) (fun as => .array (as.map write)) (readList read) as where
  within := .array fun x hx => by
    obtain ⟨a, ha, rfl⟩ := List.mem_map.1 hx
    exact (h a ha).within
  read_write := mapM_map fun a ha => (h a ha).read_write

end ReadsBack

end Json

/-! ## Records -/

namespace JsonRecord

/-- A key that is there once is not there twice. -/
theorem onceEach_of_nodup {fields : List (String × Json)} (h : (Assoc.keys fields).Nodup)
    (names : List String) : onceEach names fields = true := by
  refine List.all_eq_true.2 fun name _ => decide_eq_true ?_
  have hcount : (Assoc.keys fields).count name ≤ 1 := List.nodup_iff_count.1 h name
  rw [List.count, Assoc.keys, List.countP_map, List.countP_eq_length_filter] at hcount
  exact hcount

/-- An object without repeated keys is a record. -/
theorem ofJson?_object {fields : List (String × Json)} (h : (Assoc.keys fields).Nodup)
    (names : List String) : ofJson? names (.object fields) = some ⟨fields, false⟩ :=
  if_pos (onceEach_of_nodup h names)

end JsonRecord

/-- **A record is read back** that is written with all its fields, if its fields are found again. -/
theorem Json.ReadsBack.record {α : Type} {n : Nat} {write : α → Json} {read : Json → Option α} {a : α}
    {fields : List (String × Json)} {names : List String} {build : JsonRecord → Option α}
    (hwrite : write a = .object fields) (hread : ∀ j, read j = JsonRecord.ofJson? names j >>= build)
    (hkeys : Assoc.keys fields = names) (hnames : names.Nodup)
    (hwithin : ∀ f ∈ fields, Json.Within n f.2) (hbuild : build ⟨fields, false⟩ = some a) :
    Json.ReadsBack (n + 1) write read a where
  within := by
    rw [hwrite]
    exact .object (hkeys ▸ hnames) hwithin
  read_write := by
    rw [hread, hwrite, JsonRecord.ofJson?_object (hkeys ▸ hnames)]
    exact hbuild

end Tabletop
