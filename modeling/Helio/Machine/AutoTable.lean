import Mathlib.Algebra.BigOperators.Group.List.Basic
import Mathlib.Algebra.Ring.Int.Defs
import Mathlib.Data.Int.Order.Basic
import Mathlib.Data.List.Nodup
import Mathlib.Tactic.Common

/-! # Tables with an automatic key

The rows of an `INTEGER PRIMARY KEY AUTOINCREMENT` table in the order of their insertion, and the
largest id used so far. Ids ascend along the rows, so every id occurs at most once. An insertion
appends a row under the next id; an update changes the row of an id in place.
-/

namespace Helio

/-- Rows under ascending ids, none above the sequence. -/
structure AutoTable (ρ : Type) where
  rows : List (ℤ × ρ)
  sequence : ℤ
  ascending : rows.Pairwise fun row later => row.1 < later.1
  bounded : ∀ row ∈ rows, row.1 ≤ sequence

namespace AutoTable

variable {ρ : Type}

def empty : AutoTable ρ := ⟨[], 0, List.Pairwise.nil, by simp⟩

/-- `INSERT`: the row gets the next id. -/
def insert (t : AutoTable ρ) (row : ρ) : AutoTable ρ where
  rows := t.rows ++ [(t.sequence + 1, row)]
  sequence := t.sequence + 1
  ascending := by
    rw [List.pairwise_append]
    refine ⟨t.ascending, List.pairwise_singleton _ _, fun old member new isNew => ?_⟩
    have bound := t.bounded old member
    rw [List.mem_singleton.mp isNew]
    dsimp only
    omega
  bounded := by
    intro row member
    rcases List.mem_append.mp member with old | new
    · have bound := t.bounded row old
      omega
    · rw [List.mem_singleton.mp new]

@[simp] theorem insert_rows (t : AutoTable ρ) (row : ρ) :
    (t.insert row).rows = t.rows ++ [(t.sequence + 1, row)] := rfl

/-- The new row is the last one. -/
theorem mem_insert {t : AutoTable ρ} {row : ρ} {entry : ℤ × ρ} :
    entry ∈ (t.insert row).rows ↔ entry ∈ t.rows ∨ entry = (t.sequence + 1, row) := by
  rw [insert_rows, List.mem_append, List.mem_singleton]

/-- Change every row by a function of its id and value. -/
def mapRows (f : ℤ → ρ → ρ) (t : AutoTable ρ) : AutoTable ρ where
  rows := t.rows.map fun row => (row.1, f row.1 row.2)
  sequence := t.sequence
  ascending := List.pairwise_map.mpr t.ascending
  bounded := by
    intro row member
    obtain ⟨old, oldMember, rfl⟩ := List.mem_map.mp member
    exact t.bounded old oldMember

@[simp] theorem mapRows_rows (f : ℤ → ρ → ρ) (t : AutoTable ρ) :
    (t.mapRows f).rows = t.rows.map fun row => (row.1, f row.1 row.2) := rfl

@[simp] theorem mapRows_sequence (f : ℤ → ρ → ρ) (t : AutoTable ρ) :
    (t.mapRows f).sequence = t.sequence := rfl

@[ext] theorem ext {t u : AutoTable ρ} (rows : t.rows = u.rows) (sequence : t.sequence = u.sequence) :
    t = u := by
  cases t
  cases u
  cases rows
  cases sequence
  rfl

/-- `UPDATE … WHERE id=?`. -/
def update (t : AutoTable ρ) (id : ℤ) (f : ρ → ρ) : AutoTable ρ :=
  t.mapRows fun other row => if other = id then f row else row

/-- An update changes the row of its id and leaves the others. -/
theorem mem_update {t : AutoTable ρ} {id : ℤ} {f : ρ → ρ} {entry : ℤ × ρ} : entry ∈ (t.update id f).rows ↔
    entry ∈ t.rows ∧ entry.1 ≠ id ∨ entry.1 = id ∧ ∃ row, (id, row) ∈ t.rows ∧ entry.2 = f row := by
  rw [update, mapRows_rows, List.mem_map]
  constructor
  · rintro ⟨⟨other, row⟩, stored, rfl⟩
    by_cases same : other = id
    · subst same
      exact Or.inr ⟨rfl, row, stored, if_pos rfl⟩
    · dsimp only
      rw [if_neg same]
      exact Or.inl ⟨stored, same⟩
  · rintro (⟨stored, differ⟩ | ⟨same, row, stored, changed⟩)
    · exact ⟨entry, stored, by rw [if_neg differ]⟩
    · refine ⟨_, stored, Prod.ext same.symm ?_⟩
      rw [changed]
      exact if_pos rfl

theorem mapRows_mapRows (f g : ℤ → ρ → ρ) (t : AutoTable ρ) :
    (t.mapRows f).mapRows g = t.mapRows fun id row => g id (f id row) := by
  apply ext
  · simp
  · rfl

theorem nodup_ids (t : AutoTable ρ) : (t.rows.map Prod.fst).Nodup :=
  List.pairwise_map.mpr (t.ascending.imp fun less => by omega)

/-- Two rows with one id are the same row. -/
theorem row_eq_of_id {t : AutoTable ρ} {id : ℤ} {row other : ρ} (left : (id, row) ∈ t.rows)
    (right : (id, other) ∈ t.rows) : row = other := by
  have same := List.inj_on_of_nodup_map t.nodup_ids left right rfl
  exact congrArg Prod.snd same

def find? (t : AutoTable ρ) (id : ℤ) : Option ρ := t.rows.lookup id

theorem find?_eq_some_iff {t : AutoTable ρ} {id : ℤ} {row : ρ} :
    t.find? id = some row ↔ (id, row) ∈ t.rows := by
  rw [find?, List.lookup_eq_some_iff]
  constructor
  · rintro ⟨front, back, rows, -⟩
    rw [rows]
    exact List.mem_append_right _ List.mem_cons_self
  · intro member
    obtain ⟨front, back, rows⟩ := List.append_of_mem member
    refine ⟨front, back, rows, fun other before => ?_⟩
    have apart := t.ascending
    rw [rows, List.pairwise_append] at apart
    have less := apart.2.2 other before (id, row) List.mem_cons_self
    exact bne_iff_ne.mpr less.ne'

/-- A total over the rows. -/
def total (weight : ρ → ℤ) (t : AutoTable ρ) : ℤ := (t.rows.map fun row => weight row.2).sum

@[simp] theorem total_insert (weight : ρ → ℤ) (t : AutoTable ρ) (row : ρ) :
    (t.insert row).total weight = t.total weight + weight row := by
  simp [total]

/-- A total of amounts that each row gives up in part. -/
theorem total_mapRows {weight : ρ → ℤ} {f : ℤ → ρ → ρ} {taken : ℤ → ℤ}
    (gives : ∀ id row, weight (f id row) = weight row - taken id) (t : AutoTable ρ) :
    (t.mapRows f).total weight = t.total weight - (t.rows.map fun row => taken row.1).sum := by
  simp only [total, mapRows_rows, List.map_map]
  induction t.rows with
  | nil => rfl
  | cons row rest ih =>
    simp only [List.map_cons, List.sum_cons, Function.comp_apply, gives] at ih ⊢
    omega

end AutoTable

end Helio
