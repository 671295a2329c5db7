import Mathlib.Data.List.Dedup
import Mathlib.Tactic.Common

/-! # Tables with a primary key

A table is a list of rows whose keys are distinct, so a duplicate row cannot be built. `upsert`
is the statement `INSERT … ON CONFLICT(key) DO UPDATE`, `keep` is a `DELETE` of the other rows.
Lookup by key and membership agree, and both operations are described by what they do to either.
-/

namespace Helio

/-- Rows under distinct keys. -/
structure Table (κ ρ : Type) where
  rows : List (κ × ρ)
  unique : (rows.map Prod.fst).Nodup

namespace Table

variable {κ ρ : Type}

@[ext] theorem ext {t u : Table κ ρ} (same : t.rows = u.rows) : t = u := by
  cases t
  cases u
  cases same
  rfl

def empty : Table κ ρ := ⟨[], List.nodup_nil⟩

@[simp] theorem empty_rows : (empty : Table κ ρ).rows = [] := rfl

/-- Delete the rows that fail the test. -/
def keep (test : κ × ρ → Bool) (t : Table κ ρ) : Table κ ρ :=
  ⟨t.rows.filter test, t.unique.sublist (List.filter_sublist.map _)⟩

@[simp] theorem mem_keep {test : κ × ρ → Bool} {t : Table κ ρ} {row : κ × ρ} :
    row ∈ (t.keep test).rows ↔ row ∈ t.rows ∧ test row = true := List.mem_filter

/-- Two rows with one key are the same row. -/
theorem row_eq_of_key {t : Table κ ρ} {key : κ} {row other : ρ}
    (left : (key, row) ∈ t.rows) (right : (key, other) ∈ t.rows) : row = other := by
  have same := List.inj_on_of_nodup_map t.unique left right rfl
  exact congrArg Prod.snd same

/-- Change every row, keeping its key. -/
def mapRows (f : ρ → ρ) (t : Table κ ρ) : Table κ ρ where
  rows := t.rows.map fun row => (row.1, f row.2)
  unique := by
    simp only [List.map_map, Function.comp_def]
    exact t.unique

variable [DecidableEq κ]

/-- Insert a row, or replace the row that has its key. -/
def upsert (t : Table κ ρ) (key : κ) (row : ρ) : Table κ ρ where
  rows := (key, row) :: t.rows.filter (fun other => other.1 ≠ key)
  unique := by
    rw [List.map_cons, List.nodup_cons]
    refine ⟨?_, t.unique.sublist (List.filter_sublist.map _)⟩
    simp

/-- One row under every listed key. -/
def tabulate (keys : List κ) (row : κ → ρ) : Table κ ρ where
  rows := keys.dedup.map fun key => (key, row key)
  unique := by
    rw [List.map_map]
    exact (List.map_id _).symm ▸ keys.nodup_dedup

theorem mem_tabulate {keys : List κ} {row : κ → ρ} {key : κ} {value : ρ} :
    (key, value) ∈ (tabulate keys row).rows ↔ key ∈ keys ∧ value = row key := by
  rw [tabulate, List.mem_map]
  constructor
  · rintro ⟨other, listed, same⟩
    cases same
    exact ⟨List.mem_dedup.mp listed, rfl⟩
  · rintro ⟨listed, rfl⟩
    exact ⟨key, List.mem_dedup.mpr listed, rfl⟩

def find? (t : Table κ ρ) (key : κ) : Option ρ := t.rows.lookup key

@[simp] theorem find?_empty (key : κ) : (empty : Table κ ρ).find? key = none := rfl

theorem mem_upsert {t : Table κ ρ} {key : κ} {row : ρ} {other : κ × ρ} :
    other ∈ (t.upsert key row).rows ↔ other = (key, row) ∨ other ∈ t.rows ∧ other.1 ≠ key := by
  simp [upsert]

theorem mem_keys_upsert {t : Table κ ρ} {key other : κ} {row : ρ} :
    other ∈ (t.upsert key row).rows.map Prod.fst ↔ other = key ∨ other ∈ t.rows.map Prod.fst := by
  simp only [List.mem_map, mem_upsert]
  constructor
  · rintro ⟨found, rfl | ⟨member, -⟩, rfl⟩
    · exact Or.inl rfl
    · exact Or.inr ⟨found, member, rfl⟩
  · rintro (rfl | ⟨found, member, rfl⟩)
    · exact ⟨(other, row), Or.inl rfl, rfl⟩
    · by_cases same : found.1 = key
      · exact ⟨(key, row), Or.inl rfl, same.symm⟩
      · exact ⟨found, Or.inr ⟨member, same⟩, rfl⟩

/-- Lookup finds exactly the rows of the table. -/
theorem find?_eq_some_iff {t : Table κ ρ} {key : κ} {row : ρ} :
    t.find? key = some row ↔ (key, row) ∈ t.rows := by
  rcases t with ⟨rows, unique⟩
  unfold find?
  dsimp only
  induction rows with
  | nil => simp
  | cons head rest ih =>
    rcases head with ⟨first, value⟩
    have parts := List.nodup_cons.mp unique
    by_cases same : key = first
    · subst first
      have absent : (key, row) ∉ rest := fun member =>
        parts.1 (List.mem_map.mpr ⟨(key, row), member, rfl⟩)
      simp [absent, eq_comm]
    · have other : (key == first) = false := beq_eq_false_iff_ne.mpr same
      simp only [List.lookup_cons, other, ih parts.2, List.mem_cons, Prod.mk.injEq, same, false_and,
        false_or]

/-- Tables that lookup cannot tell apart have the same rows. -/
theorem perm_of_find? {t u : Table κ ρ} (same : ∀ key, t.find? key = u.find? key) : t.rows.Perm u.rows := by
  apply (List.perm_ext_iff_of_nodup t.unique.of_map u.unique.of_map).mpr
  rintro ⟨key, row⟩
  rw [← find?_eq_some_iff, ← find?_eq_some_iff, same]

/-- Rows of one kind are the same when lookup cannot tell them apart. -/
theorem filter_perm {test : κ × ρ → Bool} {t u : Table κ ρ}
    (same : ∀ row, test row = true → t.find? row.1 = u.find? row.1) :
    (t.rows.filter test).Perm (u.rows.filter test) := by
  apply (List.perm_ext_iff_of_nodup (t.unique.of_map.filter _) (u.unique.of_map.filter _)).mpr
  rintro ⟨key, row⟩
  rw [List.mem_filter, List.mem_filter, ← find?_eq_some_iff, ← find?_eq_some_iff]
  exact and_congr_left fun passes => by rw [same _ passes]

/-- A row that passes the test is still found. -/
theorem find?_keep {test : κ × ρ → Bool} {t : Table κ ρ} {key : κ} (passes : ∀ row, test (key, row) = true) :
    (t.keep test).find? key = t.find? key := by
  apply Option.ext
  intro row
  rw [find?_eq_some_iff, find?_eq_some_iff, mem_keep]
  exact and_iff_left (passes row)

@[simp] theorem find?_mapRows (f : ρ → ρ) (t : Table κ ρ) (key : κ) :
    (t.mapRows f).find? key = (t.find? key).map f := by
  apply Option.ext
  intro row
  rw [find?_eq_some_iff, Option.map_eq_some_iff, mapRows, List.mem_map]
  constructor
  · rintro ⟨⟨_, old⟩, member, same⟩
    cases same
    exact ⟨old, find?_eq_some_iff.mpr member, rfl⟩
  · rintro ⟨old, found, rfl⟩
    exact ⟨(key, old), find?_eq_some_iff.mp found, rfl⟩

theorem find?_upsert_self (t : Table κ ρ) (key : κ) (row : ρ) :
    (t.upsert key row).find? key = some row :=
  find?_eq_some_iff.mpr (mem_upsert.mpr (Or.inl rfl))

theorem find?_upsert_ne (t : Table κ ρ) {key other : κ} (row : ρ) (differ : other ≠ key) :
    (t.upsert key row).find? other = t.find? other := by
  apply Option.ext
  intro value
  rw [find?_eq_some_iff, find?_eq_some_iff, mem_upsert]
  simp [differ]

@[simp] theorem find?_upsert (t : Table κ ρ) (key other : κ) (row : ρ) :
    (t.upsert key row).find? other = if other = key then some row else t.find? other := by
  split
  · next same => rw [same, find?_upsert_self]
  · next differ => exact find?_upsert_ne t row differ

/-- Delete the row of a key. -/
def erase (t : Table κ ρ) (key : κ) : Table κ ρ := t.keep fun row => row.1 ≠ key

@[simp] theorem find?_erase (t : Table κ ρ) (key other : κ) :
    (t.erase key).find? other = if other = key then none else t.find? other := by
  apply Option.ext
  intro value
  rw [find?_eq_some_iff, erase, mem_keep]
  split
  · next same => simp [same]
  · next differ => simp [differ, find?_eq_some_iff]

theorem erase_length_lt {t : Table κ ρ} {key : κ} {row : ρ} (found : t.find? key = some row) :
    (t.erase key).rows.length < t.rows.length := by
  apply List.length_filter_lt_length_iff_exists.mpr
  exact ⟨(key, row), find?_eq_some_iff.mp found, by simp⟩

theorem upsert_rows {t : Table κ ρ} {key : κ} (absent : t.find? key = none) (row : ρ) :
    (t.upsert key row).rows = (key, row) :: t.rows := by
  have others : t.rows.filter (fun other => decide (other.1 ≠ key)) = t.rows := by
    apply List.filter_eq_self.mpr
    intro other member
    have differ : other.1 ≠ key := by
      rintro rfl
      rw [find?_eq_some_iff.mpr member] at absent
      cases absent
    simp [differ]
  exact congrArg ((key, row) :: ·) others

theorem upsert_length {t : Table κ ρ} {key : κ} (absent : t.find? key = none) (row : ρ) :
    (t.upsert key row).rows.length = t.rows.length + 1 := by
  rw [upsert_rows absent, List.length_cons]

end Table

end Helio
