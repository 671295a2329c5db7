import Helio.Calendar.TextOrder
import Helio.Model.MinuteRows
import Helio.ToMathlib.Argmax
import Helio.ToMathlib.Except

/-! # Saving minutes in any order

What is saved under one minute merges into the row of the latest source time with the highest
lifetime energy. Source times are compared as texts, so while years have four digits the merge
depends on which snapshots were saved, and not on their order or on repetitions.
-/

namespace Helio.Storage

open Calendar Domain

/-- All columns but the lifetime energy move together. -/
theorem MinuteRow.update_eq (stored excluded : MinuteRow) :
    stored.update excluded =
      { (if stored.observedAtUtc < excluded.observedAtUtc then excluded else stored) with
        energyLifetimeWh := max stored.energyLifetimeWh excluded.energyLifetimeWh } := by
  rcases lt_or_ge stored.observedAtUtc excluded.observedAtUtc with later | kept
  · simp only [update, MinuteRow.later, gt_iff_lt, if_pos later, max_eq_right later.le]
  · simp only [update, MinuteRow.later, gt_iff_lt, if_neg (not_lt.mpr kept), max_eq_left kept]

/-- The row that rows saved one after the other merge into. -/
def merged (rows : List MinuteRow) : Option MinuteRow := do
  let latest ← rows.firstMax (·.observedAtUtc)
  let highest ← (rows.map (·.energyLifetimeWh)).firstMax id
  return { latest with energyLifetimeWh := highest }

private theorem merged_concat (rows : List MinuteRow) (row : MinuteRow) :
    merged (rows ++ [row]) = some (match merged rows with | none => row | some stored => stored.update row) := by
  simp only [merged, List.map_append, List.map_cons, List.map_nil, List.firstMax_concat]
  cases latest : rows.firstMax (·.observedAtUtc) with
  | none =>
    obtain rfl := List.firstMax_eq_none.mp latest
    rfl
  | some stored =>
    cases highest : (rows.map (·.energyLifetimeWh)).firstMax id with
    | none =>
      rw [List.firstMax_eq_none, List.map_eq_nil_iff] at highest
      rw [highest] at latest
      cases latest
    | some lifetime =>
      simp only [id, Option.elim_some, Option.bind_eq_bind, Option.bind_some, Option.pure_def,
        MinuteRow.update_eq, max_def_lt]
      split_ifs <;> rfl

private theorem merged_eq_none {rows : List MinuteRow} : merged rows = none ↔ rows = [] := by
  constructor
  · intro nothing
    cases rows using List.reverseRecOn with
    | nil => rfl
    | append_singleton rows row =>
      rw [merged_concat] at nothing
      cases nothing
  · rintro rfl
    rfl

/-- The row a snapshot is saved as under a key, if it is. -/
def rowAt (key : List Char) (s : TelemetrySnapshot) : Option MinuteRow :=
  if s.observedAt ≠ zeroTime ∧ minuteKey s.observedAt = key then (excluded s).toOption else none

/-- A save reaches only the row of its own minute. -/
theorem saved_find? (minutes : MinuteTable) (s : TelemetrySnapshot) (key : List Char) :
    (saved minutes s).find? key =
      match rowAt key s with
      | none => minutes.find? key
      | some row => some (match minutes.find? key with | none => row | some stored => stored.update row) := by
  simp only [saved, saveMinute, rowAt]
  rcases eq_or_ne s.observedAt zeroTime with zero | given
  · rw [if_pos zero, if_neg (fun both => both.1 zero)]
    rfl
  · rw [if_neg given]
    cases values : excluded s with
    | error detail =>
      rw [Except.toOption, ite_self]
      rfl
    | ok row =>
      simp only [given, ne_eq, not_false_eq_true, true_and]
      cases found : minutes.find? (minuteKey s.observedAt) with
      | none =>
        change (minutes.upsert (minuteKey s.observedAt) row).find? key = _
        rw [Table.find?_upsert]
        rcases eq_or_ne (minuteKey s.observedAt) key with rfl | other
        · simp [found, Except.toOption]
        · simp [other, other.symm]
      | some stored =>
        change (minutes.upsert (minuteKey s.observedAt) (stored.update row)).find? key = _
        rw [Table.find?_upsert]
        rcases eq_or_ne (minuteKey s.observedAt) key with rfl | other
        · simp [found, Except.toOption]
        · simp [other, other.symm]

private theorem saves_find? (minutes : MinuteTable) (saves : List TelemetrySnapshot) (key : List Char) :
    (saves.foldl saved minutes).find? key =
      merged ((minutes.find? key).toList ++ saves.filterMap (rowAt key)) := by
  induction saves using List.reverseRecOn with
  | nil =>
    rw [List.foldl_nil, List.filterMap_nil, List.append_nil]
    cases minutes.find? key with
    | none => rfl
    | some stored => rfl
  | append_singleton saves s ih =>
    rw [List.foldl_append, List.foldl_cons, List.foldl_nil, saved_find?, ih, List.filterMap_append,
      List.filterMap_cons, List.filterMap_nil]
    cases rowAt key s with
    | none => simp
    | some row => rw [← List.append_assoc, merged_concat]

private theorem excluded_ok {s : TelemetrySnapshot} {row : MinuteRow} (values : excluded s = .ok row) :
    row.observedAtUtc = formatTime s.observedAt ∧ row.status = s.status := by
  simp only [excluded, Except.bind_eq_ok] at values
  obtain ⟨_, -, _, -, _, -, _, -, _, -, _, -, _, -, _, -, _, -, _, -, _, -, last⟩ := values
  cases last
  exact ⟨rfl, rfl⟩

theorem rowAt_some {key : List Char} {s : TelemetrySnapshot} {row : MinuteRow}
    (saves : rowAt key s = some row) : row.observedAtUtc = formatTime s.observedAt := by
  obtain ⟨-, values⟩ := Option.ite_none_right_eq_some.mp saves
  exact (excluded_ok (Except.toOption_eq_some.mp values)).1

theorem rowAt_status {key : List Char} {s : TelemetrySnapshot} {row : MinuteRow}
    (saves : rowAt key s = some row) : row.status = s.status := by
  obtain ⟨-, values⟩ := Option.ite_none_right_eq_some.mp saves
  exact (excluded_ok (Except.toOption_eq_some.mp values)).2

/-- What the row of a minute holds after snapshots were saved: the columns of the latest of them and
the highest lifetime energy. -/
structure Merges (key : List Char) (snapshots : List TelemetrySnapshot) (row : MinuteRow) : Prop where
  latest : ∃ s ∈ snapshots, ∃ own, rowAt key s = some own ∧
    (∀ t ∈ snapshots, (rowAt key t).isSome → t.observedAt ≤ s.observedAt) ∧
    row = { own with energyLifetimeWh := row.energyLifetimeWh } ∧ row.observedAtUtc = formatTime s.observedAt
  highest : IsGreatest {wh | ∃ t ∈ snapshots, ∃ own, rowAt key t = some own ∧ own.energyLifetimeWh = wh}
    row.energyLifetimeWh

section

variable {key : List Char} {snapshots saves : List TelemetrySnapshot} {stored : MinuteTable}

private theorem rows_distinct (years : ∀ s ∈ snapshots, FourDigitYear s.observedAt)
    (distinct : (snapshots.map (·.observedAt)).Nodup) :
    ∀ x ∈ snapshots.filterMap (rowAt key), ∀ y ∈ snapshots.filterMap (rowAt key),
      x.observedAtUtc = y.observedAtUtc → x = y := by
  intro x left y right texts
  obtain ⟨s, sMem, sRow⟩ := List.mem_filterMap.mp left
  obtain ⟨t, tMem, tRow⟩ := List.mem_filterMap.mp right
  rw [rowAt_some sRow, rowAt_some tRow, formatTime_inj (years s sMem) (years t tMem)] at texts
  obtain rfl := List.inj_on_of_nodup_map distinct sMem tMem texts
  exact Option.some.inj (sRow.symm.trans tRow)

private theorem saves_congr (years : ∀ s ∈ snapshots, FourDigitYear s.observedAt)
    (distinct : (snapshots.map (·.observedAt)).Nodup) (same : ∀ s, s ∈ saves ↔ s ∈ snapshots) :
    (saves.foldl saved stored).find? key = (snapshots.foldl saved stored).find? key := by
  have rows (x : MinuteRow) : x ∈ snapshots.filterMap (rowAt key) ↔ x ∈ saves.filterMap (rowAt key) := by
    simp only [List.mem_filterMap, same]
  have latest := List.firstMax_congr rows (rows_distinct years distinct)
  rw [saves_find?, saves_find?]
  simp only [merged]
  congr 1
  · cases stored.find? key with
    | none => exact latest.symm
    | some row => simp only [Option.toList_some, List.singleton_append, List.firstMax_cons, latest]
  · funext row
    congr 1
    apply List.firstMax_congr
    · intro wh
      simp only [List.mem_map, List.mem_append, rows]
    · intro x _ y _ lifetimes
      exact lifetimes

/-- A merged row has the columns of the row with the latest source time. -/
private theorem merged_some {rows : List MinuteRow} {row : MinuteRow} (merges : merged rows = some row) :
    (∃ own ∈ rows, (∀ other ∈ rows, other.observedAtUtc ≤ own.observedAtUtc) ∧
      row = { own with energyLifetimeWh := row.energyLifetimeWh }) ∧
    IsGreatest {wh | ∃ own ∈ rows, own.energyLifetimeWh = wh} row.energyLifetimeWh := by
  obtain ⟨own, latest, rest⟩ := Option.bind_eq_some_iff.mp merges
  obtain ⟨wh, highest, found⟩ := Option.bind_eq_some_iff.mp rest
  cases found
  refine ⟨⟨own, List.firstMax_mem latest, fun other => List.le_of_firstMax latest, rfl⟩, ?_, ?_⟩
  · exact List.mem_map.mp (List.firstMax_mem highest)
  · rintro _ ⟨other, member, rfl⟩
    exact List.le_of_firstMax highest (List.mem_map_of_mem member)

private theorem merges_of_merged (years : ∀ s ∈ snapshots, FourDigitYear s.observedAt) {row : MinuteRow}
    (merges : merged (snapshots.filterMap (rowAt key)) = some row) : Merges key snapshots row := by
  obtain ⟨⟨own, member, latest, columns⟩, attained, highest⟩ := merged_some merges
  obtain ⟨s, saved, saves⟩ := List.mem_filterMap.mp member
  refine ⟨⟨s, saved, own, saves, fun t other accepted => ?_, columns, ?_⟩, ?_, ?_⟩
  · obtain ⟨its, found⟩ := Option.isSome_iff_exists.mp accepted
    have order := latest its (List.mem_filterMap.mpr ⟨t, other, found⟩)
    rw [rowAt_some found, rowAt_some saves] at order
    exact not_lt.mp fun later => order.not_gt (formatTime_strictMono (years s saved) (years t other) later)
  · have stamp : row.observedAtUtc = own.observedAtUtc := by rw [columns]
    rw [stamp, rowAt_some saves]
  · obtain ⟨other, found, lifetime⟩ := attained
    obtain ⟨t, inMinute, writes⟩ := List.mem_filterMap.mp found
    exact ⟨t, inMinute, other, writes, lifetime⟩
  · rintro _ ⟨t, inMinute, other, writes, rfl⟩
    exact highest ⟨other, List.mem_filterMap.mpr ⟨t, inMinute, writes⟩, rfl⟩

private theorem Merges.unique (distinct : (snapshots.map (·.observedAt)).Nodup) {row other : MinuteRow}
    (left : Merges key snapshots row) (right : Merges key snapshots other) : row = other := by
  obtain ⟨⟨s, sMem, own, sRow, sLatest, columns, -⟩, highest⟩ := left
  obtain ⟨⟨t, tMem, its, tRow, tLatest, columns', -⟩, highest'⟩ := right
  have times : s.observedAt = t.observedAt :=
    le_antisymm (tLatest s sMem (Option.isSome_of_eq_some sRow)) (sLatest t tMem (Option.isSome_of_eq_some tRow))
  obtain rfl := List.inj_on_of_nodup_map distinct sMem tMem times
  obtain rfl : own = its := Option.some.inj (sRow.symm.trans tRow)
  rw [columns, columns', highest.unique highest']

end

/-- Saving snapshots whose source times differ leaves the same rows in any order and with any
repetitions. The row of a minute that was empty holds the columns of its latest snapshot and the
highest lifetime energy of the minute. -/
theorem minutes_merge {snapshots : List TelemetrySnapshot} (years : ∀ s ∈ snapshots, FourDigitYear s.observedAt)
    (distinct : (snapshots.map (·.observedAt)).Nodup) (stored : MinuteTable) {saves : List TelemetrySnapshot}
    (same : ∀ s, s ∈ saves ↔ s ∈ snapshots) :
    (saves.foldl saved stored).rows.Perm (snapshots.foldl saved stored).rows ∧
    ∀ key, stored.find? key = none → ∀ row,
      (saves.foldl saved stored).find? key = some row ↔ Merges key snapshots row := by
  refine ⟨Table.perm_of_find? fun key => saves_congr years distinct same, fun key empty row => ?_⟩
  rw [saves_congr years distinct same, saves_find?, empty]
  change merged (snapshots.filterMap (rowAt key)) = some row ↔ _
  refine ⟨merges_of_merged years, fun merges => ?_⟩
  obtain ⟨s, member, own, writes, -⟩ := merges.latest
  have found : own ∈ snapshots.filterMap (rowAt key) := List.mem_filterMap.mpr ⟨s, member, writes⟩
  cases stored : merged (snapshots.filterMap (rowAt key)) with
  | none =>
    rw [merged_eq_none.mp stored] at found
    cases found
  | some other => rw [(merges_of_merged years stored).unique distinct merges]

/-- A reading 45 seconds into a minute. -/
def newer : TelemetrySnapshot where
  observedAt := 1767348045 * second
  status := "normal"
  acPowerW := .finite 200
  energyLifetimeWh := .finite 1000

/-- A reading of the same minute, saved after it. -/
def older : TelemetrySnapshot where
  observedAt := 1767348005 * second
  status := "waiting"
  acPowerW := .finite 100
  energyLifetimeWh := .finite 1100

theorem readings_merge :
    ([newer, older, newer].foldl saved .empty).rows.Perm ([older, newer].foldl saved .empty).rows ∧
    (([newer, older, newer].foldl saved .empty).find? (minuteKey older.observedAt)).map
        (fun row => (some row.acPowerW, row.status, some row.energyLifetimeWh)) =
      some (newer.acPowerW.stored, newer.status, older.energyLifetimeWh.stored) := by
  have same (s : TelemetrySnapshot) : s ∈ [newer, older, newer] ↔ s ∈ [older, newer] := by
    simp only [List.mem_cons, List.not_mem_nil, or_false]
    tauto
  exact ⟨(minutes_merge (by decide +kernel) (by decide) .empty same).1, by decide +kernel⟩

end Helio.Storage
