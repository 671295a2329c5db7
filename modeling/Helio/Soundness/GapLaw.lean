import Helio.Model.MinuteHistory
import Helio.Model.Telemetry
import Helio.Soundness.MinuteMerge
import Helio.ToMathlib.Neighbours

/-! # The gap between readings

The hour compares the minutes of neighbouring rows, from which the time of a reading within its minute is gone.
So readings of neighbouring minutes are always joined, however early the first and however late the second is.
-/

namespace Helio.Storage

open Calendar Domain

section Loop

variable {E : Type} {add : E → HistoryPoint → HistoryPoint → E}

/-- The neighbours that the loop joins. -/
def joined (points : List HistoryPoint) : List (HistoryPoint × HistoryPoint) :=
  (points.zip points.tail).filter fun pair => continuous pair.1 pair.2

theorem energyFrom_eq (energyWh : E) (previous : HistoryPoint) (points : List HistoryPoint) :
    energyFrom add energyWh previous points =
      (joined (previous :: points)).foldl (fun sum pair => add sum pair.1 pair.2) energyWh := by
  induction points generalizing energyWh previous with
  | nil => rfl
  | cons point rest ih =>
    rw [energyFrom, ih]
    simp only [joined, List.tail_cons, List.zip_cons_cons, List.filter_cons]
    split
    · rw [List.foldl_cons]
    · rfl

theorem hourEnergy_eq (zero : E) (points : List HistoryPoint) :
    hourEnergy add zero points = (joined points).foldl (fun sum pair => add sum pair.1 pair.2) zero := by
  cases points with
  | nil => rfl
  | cons first rest => exact energyFrom_eq zero first rest

theorem collected (points : List HistoryPoint) :
    hourEnergy (fun intervals previous point => intervals ++ [(previous, point)]) [] points = joined points := by
  rw [hourEnergy_eq, List.foldl_append_eq_append, List.nil_append, ← List.flatMap_def]
  exact List.flatMap_singleton' _

/-- The energy of an hour is the sum over the intervals that it integrates, in any arithmetic. -/
theorem aggregateEnergy_eq (zero : E) (minutes : MinuteTable) (start stop : ℤ) :
    aggregateEnergy add zero minutes start stop = (integratedIntervals minutes start stop).map
      fun intervals => intervals.foldl (fun sum interval => add sum interval.1 interval.2) zero := by
  simp only [integratedIntervals, aggregateEnergy]
  split
  · cases history minutes start stop with
    | error detail => rfl
    | ok points =>
      simp only [Except.map, collected]
      rw [hourEnergy_eq]
  · rfl

end Loop

theorem continuous_iff {previous point : HistoryPoint} : continuous previous point = true ↔
    0 < point.at_ - previous.at_ ∧ (point.at_ - previous.at_ ≤ 90 * second ∨
      (previous.status = "cloud_history" ∧ point.status = "cloud_history") ∧
        point.at_ - previous.at_ ≤ 5 * minute + 15 * second) := by
  have gap : ∀ {bound : ℤ}, 0 < bound → bound < maxInt64 → (0 < durationSince point.at_ previous.at_ ∧
      durationSince point.at_ previous.at_ ≤ bound ↔ 0 < point.at_ - previous.at_ ∧
        point.at_ - previous.at_ ≤ bound) := by
    intro bound positive fits
    simp only [durationSince, minInt64, maxInt64] at *
    omega
  unfold continuous
  rw [Bool.or_eq_true, Bool.and_eq_true, Bool.and_eq_true, Bool.and_eq_true, Bool.and_eq_true, decide_eq_true_eq,
    decide_eq_true_eq, decide_eq_true_eq, decide_eq_true_eq, decide_eq_true_eq, and_assoc, gap (by decide) (by decide),
    gap (by decide) (by decide)]
  simp only [maximumIntegratedGap, maximumCloudIntegratedGap]
  tauto

/-- On whole seconds the loop joins the points that the repository's model in seconds joins. -/
theorem continuous_eq {previous point : HistoryPoint} {before after : Telemetry.HistoryPoint}
    (start : previous.at_ = before.observedAt * second) (stop : point.at_ = after.observedAt * second)
    (first : previous.status = "cloud_history" ↔ before.status = .cloudHistory)
    (last : point.status = "cloud_history" ↔ after.status = .cloudHistory) :
    continuous previous point = Telemetry.continuous before after := by
  rw [Bool.eq_iff_iff, continuous_iff, start, stop, first, last]
  unfold Telemetry.continuous
  rw [Bool.and_eq_true, Bool.or_eq_true, Bool.and_eq_true, Bool.and_eq_true, decide_eq_true_eq, decide_eq_true_eq,
    decide_eq_true_eq, decide_eq_true_eq, decide_eq_true_eq]
  simp only [Telemetry.maximumIntegratedGap, Telemetry.maximumCloudIntegratedGap, minute, second]
  refine and_congr (by omega) (or_congr (by omega) (and_congr and_comm (by omega)))

/-- A reading that the database takes. -/
def Accepted (s : TelemetrySnapshot) : Prop := s.observedAt ≠ zeroTime ∧ (excluded s).isOk = true

instance (s : TelemetrySnapshot) : Decidable (Accepted s) := inferInstanceAs (Decidable (_ ∧ _))

theorem saveMinute_isOk {minutes : MinuteTable} {s : TelemetrySnapshot} :
    (saveMinute minutes s).isOk = true ↔ Accepted s := by
  unfold saveMinute Accepted
  rcases eq_or_ne s.observedAt zeroTime with zero | given
  · rw [if_pos zero]
    exact iff_of_false Bool.false_ne_true fun both => both.1 zero
  · rw [if_neg given]
    cases excluded s with
    | error detail => exact iff_of_false Bool.false_ne_true fun both => Bool.false_ne_true both.2
    | ok row =>
      refine iff_of_true ?_ ⟨given, rfl⟩
      cases found : minutes.find? (minuteKey s.observedAt) with
      | none =>
        simp only [Except.ok_bind, found]
        rfl
      | some stored =>
        simp only [Except.ok_bind, found]
        rfl

/-- The reading whose status stands in the row of a minute: the latest, of equal ones the first that was saved. -/
def kept (saves : List TelemetrySnapshot) (m : ℤ) : Option TelemetrySnapshot :=
  (saves.filter fun s => Accepted s ∧ s.observedAt / minute = m).firstMax (·.observedAt)

theorem fourDigitYear_minute {t : ℤ} (year : FourDigitYear t) : FourDigitYear (t / minute * minute) := by
  have same : yearOf (t / minute * minute) = yearOf t := by
    simp only [yearOf, minute, second]
    congr 2
    omega
  rw [FourDigitYear, same]
  exact year

section Rows

variable {saves : List TelemetrySnapshot} {m : ℤ} {s : TelemetrySnapshot}

theorem minuteKey_eq_iff (year : FourDigitYear s.observedAt) (other : FourDigitYear (m * minute)) :
    minuteKey s.observedAt = formatTime (m * minute) ↔ s.observedAt / minute = m := by
  rw [minuteKey, formatTime_inj (fourDigitYear_minute year) other]
  simp only [minute, second]
  omega

theorem rowAt_isSome (year : FourDigitYear s.observedAt) (other : FourDigitYear (m * minute)) :
    (rowAt (formatTime (m * minute)) s).isSome = true ↔ Accepted s ∧ s.observedAt / minute = m := by
  rw [rowAt, ← minuteKey_eq_iff year other, Accepted]
  split
  · next both =>
    cases excluded s <;> simp [both.1, both.2, Except.toOption, Except.isOk, Except.toBool]
  · next neither =>
    simp only [Option.isSome_none, Bool.false_eq_true, false_iff]
    tauto

/-- A minute has a row when it has an accepted reading, and the row shows the kept one. -/
theorem find?_saves (years : ∀ s ∈ saves, FourDigitYear s.observedAt) (other : FourDigitYear (m * minute)) :
    ((saves.foldl saved .empty).find? (formatTime (m * minute))).map (fun row => (row.status, row.observedAtUtc)) =
      (kept saves m).map fun s => (s.status, formatTime s.observedAt) := by
  induction saves using List.reverseRecOn with
  | nil => rfl
  | append_singleton saves u ih =>
    have year := years u (List.mem_append_right _ List.mem_cons_self)
    have before : ∀ s ∈ saves, FourDigitYear s.observedAt := fun s member => years s (List.mem_append_left _ member)
    have ih := ih before
    have own := rowAt_isSome year other
    rw [List.foldl_append, List.foldl_cons, List.foldl_nil, saved_find?]
    unfold kept at ih ⊢
    rw [List.filter_append, List.filter_cons, List.filter_nil]
    cases written : rowAt (formatTime (m * minute)) u with
    | none =>
      rw [written] at own
      rw [if_neg (by simpa using own), List.append_nil]
      exact ih
    | some row =>
      rw [written] at own
      rw [if_pos (by simpa using own), List.firstMax_concat]
      cases latest : (saves.filter fun s => Accepted s ∧ s.observedAt / minute = m).firstMax (·.observedAt) with
      | none =>
        rw [latest, Option.map_none, Option.map_eq_none_iff] at ih
        simp only [ih, Option.map_some, Option.elim_none, rowAt_some written, rowAt_status written]
      | some s =>
        rw [latest, Option.map_some, Option.map_eq_some_iff] at ih
        obtain ⟨stored, found, columns⟩ := ih
        obtain ⟨status, stamp⟩ := Prod.mk.inj columns
        have member := List.mem_of_mem_filter (List.firstMax_mem latest)
        have later := formatTime_lt_iff (before s member) year
        simp only [found, Option.map_some, Option.elim_some, MinuteRow.update, MinuteRow.later, gt_iff_lt, stamp,
          rowAt_some written, later]
        split
        · next after => simp [rowAt_status written, max_eq_right (later.mpr after).le]
        · next before => simp [status, max_eq_left (not_lt.mp (later.not.mpr before))]

end Rows

/-- Every row comes from a reading of its minute. -/
theorem exists_reading {saves : List TelemetrySnapshot} {key : List Char} {row : MinuteRow}
    (found : (saves.foldl saved .empty).find? key = some row) :
    ∃ s ∈ saves, Accepted s ∧ minuteKey s.observedAt = key := by
  induction saves using List.reverseRecOn generalizing row with
  | nil => cases found
  | append_singleton saves u ih =>
    rw [List.foldl_append, List.foldl_cons, List.foldl_nil, saved_find?] at found
    cases written : rowAt key u with
    | none =>
      rw [written] at found
      obtain ⟨s, member, reading⟩ := ih found
      exact ⟨s, List.mem_append_left _ member, reading⟩
    | some own =>
      obtain ⟨⟨given, same⟩, values⟩ := Option.ite_none_right_eq_some.mp written
      have taken : (excluded u).isOk = true := by
        rw [Except.toOption_eq_some.mp values]
        rfl
      exact ⟨u, List.mem_append_right _ List.mem_cons_self, ⟨given, taken⟩, same⟩

theorem mem_windowRows {minutes : MinuteTable} {start stop : ℤ} {row : List Char × MinuteRow} :
    row ∈ windowRows minutes start stop ↔
      row ∈ minutes.rows ∧ formatTime start ≤ row.1 ∧ row.1 < formatTime stop := by
  rw [windowRows, List.mem_insertionSort, List.mem_filter, decide_eq_true_eq]

theorem windowRows_sorted (minutes : MinuteTable) (start stop : ℤ) :
    (windowRows minutes start stop).Pairwise fun a b => a.1 < b.1 := by
  let inside := minutes.rows.filter fun row => formatTime start ≤ row.1 ∧ row.1 < formatTime stop
  let order := fun a b : List Char × MinuteRow => a.1 ≤ b.1
  have sorted := List.pairwise_insertionSort order inside
  have keys : ((inside.insertionSort order).map Prod.fst).Nodup :=
    ((List.perm_insertionSort order inside).map Prod.fst).nodup_iff.mpr
      (minutes.unique.sublist (List.filter_sublist.map _))
  exact (sorted.and (List.pairwise_map.mp keys)).imp fun both => lt_of_le_of_ne both.1 both.2

/-- The points of a window: one for every minute that has a row, in order, with the status of the kept reading. -/
theorem history_saves {saves : List TelemetrySnapshot} {start stop : ℤ}
    (years : ∀ s ∈ saves, FourDigitYear s.observedAt) (window : FourDigitYear start ∧ FourDigitYear stop)
    (order : start < stop) :
    ∃ points, history (saves.foldl saved .empty) start stop = .ok points ∧
      points.Pairwise (fun p q => p.at_ < q.at_) ∧
      (∀ p ∈ points, ∃ s ∈ saves, Accepted s ∧ p.at_ = s.observedAt / minute * minute) ∧
      ∀ m u, kept saves m = some u → start ≤ m * minute → m * minute < stop →
        ∃ p ∈ points, p.at_ = m * minute ∧ p.status = u.status := by
  let rows := windowRows (saves.foldl saved .empty) start stop
  let read (row : List Char × MinuteRow) : HistoryPoint := {
    at_ := (readTime row.1).getD 0
    powerW := row.2.acPowerW
    status := row.2.status
    sampleIntervalMinutes := if row.2.status = "cloud_history" then cloudHistorySampleMinutes else 0 }
  have readings : ∀ row ∈ rows, ∃ s ∈ saves, Accepted s ∧ FourDigitYear (s.observedAt / minute * minute) ∧
      row.1 = formatTime (s.observedAt / minute * minute) := by
    intro row member
    obtain ⟨stored, -⟩ := mem_windowRows.mp member
    obtain ⟨s, saved, accepted, key⟩ := exists_reading (Table.find?_eq_some_iff.mpr stored)
    exact ⟨s, saved, accepted, fourDigitYear_minute (years s saved), key.symm⟩
  have scanned : ∀ row ∈ rows, scanPoint row = .ok (read row) := by
    intro row member
    obtain ⟨s, -, -, year, key⟩ := readings row member
    have text := readTime_formatTime year
    rw [← key] at text
    simp only [scanPoint, read, text, Option.getD_some]
  refine ⟨rows.map read, ?_, ?_, ?_, ?_⟩
  · rw [history, if_pos order]
    exact Except.mapM_ok scanned
  · rw [List.pairwise_map]
    refine (windowRows_sorted _ start stop).imp_of_mem fun {a b} left right texts => ?_
    obtain ⟨s, -, -, year, key⟩ := readings a left
    obtain ⟨t, -, -, year', key'⟩ := readings b right
    rw [key, key', formatTime_lt_iff year year'] at texts
    simp only [read, key, key', readTime_formatTime year, readTime_formatTime year', Option.getD_some]
    exact texts
  · intro p member
    obtain ⟨row, inside, rfl⟩ := List.mem_map.mp member
    obtain ⟨s, saved, accepted, year, key⟩ := readings row inside
    exact ⟨s, saved, accepted, by simp only [read, key, readTime_formatTime year, Option.getD_some]⟩
  · intro m u latest low high
    have year : FourDigitYear (m * minute) := window.1.between window.2 low high.le
    have shown := find?_saves years year
    rw [latest, Option.map_some, Option.map_eq_some_iff] at shown
    obtain ⟨row, found, columns⟩ := shown
    have member : (formatTime (m * minute), row) ∈ rows := by
      refine mem_windowRows.mpr ⟨Table.find?_eq_some_iff.mp found, ?_, (formatTime_lt_iff year window.2).mpr high⟩
      exact not_lt.mp fun before => not_lt.mpr low ((formatTime_lt_iff year window.1).mp before)
    refine ⟨read (formatTime (m * minute), row), List.mem_map_of_mem member, ?_, (Prod.mk.inj columns).1⟩
    simp only [read, readTime_formatTime year, Option.getD_some]

/-- The hour integrates the interval between the rows of two readings. -/
def Integrated (minutes : MinuteTable) (start stop : ℤ) (s t : TelemetrySnapshot) : Prop :=
  ∃ intervals, integratedIntervals minutes start stop = .ok intervals ∧ ∃ interval ∈ intervals,
    interval.1.at_ = s.observedAt / minute * minute ∧ interval.2.at_ = t.observedAt / minute * minute

/-- Readings of different minutes of a window, with no accepted reading between them. -/
structure Adjacent (saves : List TelemetrySnapshot) (start stop : ℤ) (s t : TelemetrySnapshot) : Prop where
  first : s ∈ saves ∧ Accepted s
  second : t ∈ saves ∧ Accepted t
  differ : s.observedAt / minute < t.observedAt / minute
  alone : ∀ u ∈ saves, Accepted u → ¬(s.observedAt < u.observedAt ∧ u.observedAt < t.observedAt)
  inside : start ≤ s.observedAt / minute * minute ∧ t.observedAt / minute * minute < stop

section Gap

variable (saves : List TelemetrySnapshot) (s t : TelemetrySnapshot)

def gap : ℤ := t.observedAt - s.observedAt

/-- How many minutes the rows are apart. -/
def apart : ℤ := t.observedAt / minute - s.observedAt / minute

/-- How much later in its minute the second reading is. -/
def delay : ℤ := t.observedAt % minute - s.observedAt % minute

def BothCloud : Prop := s.status = "cloud_history" ∧ t.status = "cloud_history"

instance : Decidable (BothCloud s t) := inferInstanceAs (Decidable (_ ∧ _))

/-- The kept readings of both minutes are of the cloud history. -/
def RowsCloud : Prop :=
  (kept saves (s.observedAt / minute)).map (·.status) = some "cloud_history" ∧
    (kept saves (t.observedAt / minute)).map (·.status) = some "cloud_history"

instance : Decidable (RowsCloud saves s t) := inferInstanceAs (Decidable (_ ∧ _))

/-- The gap up to which readings are meant to be integrated. -/
def Near : Prop := gap s t ≤ maximumIntegratedGap ∨ BothCloud s t ∧ gap s t ≤ maximumCloudIntegratedGap

/-- Readings whose places in their minutes do not hide the part of the bound that is less than a minute. -/
def Aligned (whole slack : ℤ) : Prop :=
  (apart s t = whole → delay s t ≤ slack) ∧ (apart s t = whole + 1 → slack - minute < delay s t)

/-- When the minutes tell whether the readings are near. -/
structure Telling : Prop where
  cloud : BothCloud s t → RowsCloud saves s t → Aligned s t 5 (15 * second)
  others : ¬BothCloud s t → ¬RowsCloud saves s t → Aligned s t 1 (30 * second)
  replaced : BothCloud s t → ¬RowsCloud saves s t → apart s t = 1 ∨ maximumCloudIntegratedGap < gap s t
  replacing : ¬BothCloud s t → RowsCloud saves s t → gap s t ≤ maximumIntegratedGap ∨ 5 < apart s t

end Gap

section Law

variable {saves : List TelemetrySnapshot} {start stop : ℤ} {s t : TelemetrySnapshot}

/-- The gap is made up of whole minutes and of the delay. -/
theorem gap_parts (differ : s.observedAt / minute < t.observedAt / minute) : gap s t = minute * apart s t + delay s t ∧
    (-minute < delay s t ∧ delay s t < minute) ∧ 1 ≤ apart s t := by
  simp only [gap, apart, delay, minute, second] at *
  omega

theorem telling_iff : Telling saves s t ↔
    if BothCloud s t then
      if RowsCloud saves s t then Aligned s t 5 (15 * second)
      else apart s t = 1 ∨ maximumCloudIntegratedGap < gap s t
    else if RowsCloud saves s t then gap s t ≤ maximumIntegratedGap ∨ 5 < apart s t
    else Aligned s t 1 (30 * second) := by
  constructor
  · rintro ⟨cloud, others, replaced, replacing⟩
    split_ifs with both rows rows
    · exact cloud both rows
    · exact replaced both rows
    · exact replacing both rows
    · exact others both rows
  · intro tells
    split_ifs at tells with both rows rows
    · exact ⟨fun _ _ => tells, fun other => absurd both other, fun _ other => absurd rows other,
        fun other => absurd both other⟩
    · exact ⟨fun _ other => absurd other rows, fun other => absurd both other, fun _ _ => tells,
        fun other => absurd both other⟩
    · exact ⟨fun other => absurd other both, fun _ other => absurd rows other, fun other => absurd other both,
        fun _ _ => tells⟩
    · exact ⟨fun other => absurd other both, fun _ _ => tells, fun other => absurd other both,
        fun _ other => absurd other rows⟩

theorem exists_kept (member : s ∈ saves) (accepted : Accepted s) :
    ∃ u, kept saves (s.observedAt / minute) = some u := by
  rw [← Option.ne_none_iff_exists', ne_eq, kept, List.firstMax_eq_none]
  refine List.ne_nil_of_mem (a := s) (List.mem_filter.mpr ⟨member, ?_⟩)
  exact decide_eq_true ⟨accepted, rfl⟩

/-- The hour joins readings of neighbouring minutes, and rows of the cloud history up to five minutes apart. -/
theorem integrated_iff (years : ∀ s ∈ saves, FourDigitYear s.observedAt)
    (window : FourDigitYear start ∧ FourDigitYear stop) (adjacent : Adjacent saves start stop s t) :
    Integrated (saves.foldl saved .empty) start stop s t ↔ apart s t = 1 ∨ RowsCloud saves s t ∧ apart s t ≤ 5 := by
  obtain ⟨first, second, differ, alone, low, high⟩ := adjacent
  have wide : s.observedAt / minute * minute < t.observedAt / minute * minute :=
    Int.mul_lt_mul_of_pos_right differ (by decide)
  obtain ⟨points, read, sorted, readings, rows⟩ := history_saves years window (low.trans_lt (wide.trans high))
  obtain ⟨u, keptFirst⟩ := exists_kept first.1 first.2
  obtain ⟨v, keptSecond⟩ := exists_kept second.1 second.2
  obtain ⟨p, pMember, pAt, pStatus⟩ := rows _ u keptFirst low (wide.trans high)
  obtain ⟨q, qMember, qAt, qStatus⟩ := rows _ v keptSecond (low.trans wide.le) high
  have neighbours : (p, q) ∈ points.zip points.tail := by
    refine List.mem_neighbours (f := HistoryPoint.at_) sorted pMember qMember (by rw [pAt, qAt]; exact wide) ?_
    rintro r member ⟨after, before⟩
    obtain ⟨w, saved, accepted, place⟩ := readings r member
    refine alone w saved accepted ?_
    rw [pAt, place] at after
    rw [qAt, place] at before
    simp only [minute, Calendar.second] at after before
    omega
  have distinct : (points.map HistoryPoint.at_).Nodup := List.pairwise_map.mpr (sorted.imp fun order => order.ne)
  have intervals : integratedIntervals (saves.foldl saved .empty) start stop = .ok (joined points) := by
    rw [integratedIntervals, aggregateEnergy, if_pos (low.trans_lt (wide.trans high)), read]
    exact congrArg Except.ok (collected points)
  have chosen : Integrated (saves.foldl saved .empty) start stop s t ↔ continuous p q = true := by
    constructor
    · rintro ⟨found, same, ⟨a, b⟩, member, aAt, bAt⟩
      rw [intervals] at same
      cases same
      obtain ⟨pair, joins⟩ := List.mem_filter.mp member
      obtain ⟨aMember, bMember⟩ := List.of_mem_zip pair
      obtain rfl := List.inj_on_of_nodup_map distinct aMember pMember (aAt.trans pAt.symm)
      obtain rfl := List.inj_on_of_nodup_map distinct (List.mem_of_mem_tail bMember) qMember (bAt.trans qAt.symm)
      exact joins
    · intro joins
      exact ⟨_, intervals, (p, q), List.mem_filter.mpr ⟨neighbours, joins⟩, pAt, qAt⟩
  rw [chosen, continuous_iff, pAt, qAt, pStatus, qStatus, RowsCloud, keptFirst, keptSecond, Option.map_some,
    Option.map_some, Option.some_inj, Option.some_inj, apart]
  simp only [minute, Calendar.second] at *
  constructor
  · rintro ⟨-, short | ⟨cloud, short⟩⟩
    · exact Or.inl (by omega)
    · exact Or.inr ⟨cloud, by omega⟩
  · rintro (next | ⟨cloud, short⟩)
    · exact ⟨by omega, Or.inl (by omega)⟩
    · exact ⟨by omega, Or.inr ⟨cloud, by omega⟩⟩

/-- Of readings that follow each other the hour integrates the interval exactly when they are near, unless their places
in their minutes or the readings kept for the minutes hide how far they are apart. -/
theorem gap_law_exactly (years : ∀ s ∈ saves, FourDigitYear s.observedAt)
    (window : FourDigitYear start ∧ FourDigitYear stop) (adjacent : Adjacent saves start stop s t) :
    (Integrated (saves.foldl saved .empty) start stop s t ↔ Near s t) ↔ Telling saves s t := by
  rw [integrated_iff years window adjacent, Near, telling_iff]
  obtain ⟨parts, within, positive⟩ := gap_parts adjacent.differ
  clear adjacent
  by_cases cloud : BothCloud s t <;> by_cases rows : RowsCloud saves s t
  all_goals
    simp only [cloud, rows, true_and, false_and, or_false, if_true, if_false, Aligned, parts, maximumIntegratedGap,
      maximumCloudIntegratedGap, minute, second] at *
    omega

end Law

/-- A local reading some seconds after 2026-01-02T10:00:00Z. -/
def localReading (seconds : ℤ) : TelemetrySnapshot where
  observedAt := (1767348000 + seconds) * second
  status := "normal"
  acPowerW := .finite 1000

def tenOClock : ℤ := 1767348000 * second
def elevenOClock : ℤ := 1767351600 * second

def readings (first second : ℤ) : List TelemetrySnapshot := [localReading first, localReading second]

theorem gap_law_regular :
    Integrated ((readings 10 80).foldl saved .empty) tenOClock elevenOClock (localReading 10) (localReading 80) := by
  have adjacent : Adjacent (readings 10 80) tenOClock elevenOClock (localReading 10) (localReading 80) :=
    ⟨by decide +kernel, by decide +kernel, by decide +kernel, by decide +kernel, by decide +kernel⟩
  have others : ¬BothCloud (localReading 10) (localReading 80) := by decide
  have rows : ¬RowsCloud (readings 10 80) (localReading 10) (localReading 80) := by decide +kernel
  have telling : Telling (readings 10 80) (localReading 10) (localReading 80) := by
    rw [telling_iff, if_neg others, if_neg rows]
    exact ⟨by decide +kernel, by decide +kernel⟩
  have near : Near (localReading 10) (localReading 80) := Or.inl (by decide +kernel)
  exact ((gap_law_exactly (by decide +kernel) (by decide +kernel) adjacent).mpr telling).mpr near

/-- Readings 61 seconds apart whose minutes are two apart are not joined, and readings 119 seconds apart in neighbouring
minutes are. -/
theorem gap_law_misplaced :
    (Adjacent (readings 59 120) tenOClock elevenOClock (localReading 59) (localReading 120) ∧
      Near (localReading 59) (localReading 120) ∧
      ¬Integrated ((readings 59 120).foldl saved .empty) tenOClock elevenOClock (localReading 59) (localReading 120)) ∧
    (Adjacent (readings 0 119) tenOClock elevenOClock (localReading 0) (localReading 119) ∧
      ¬Near (localReading 0) (localReading 119) ∧
      Integrated ((readings 0 119).foldl saved .empty) tenOClock elevenOClock (localReading 0) (localReading 119)) := by
  refine ⟨⟨⟨by decide +kernel, by decide +kernel, by decide +kernel, by decide +kernel, by decide +kernel⟩, ?_, ?_⟩,
    ⟨by decide +kernel, by decide +kernel, by decide +kernel, by decide +kernel, by decide +kernel⟩, ?_, ?_⟩
  · exact Or.inl (by decide +kernel)
  · rintro ⟨intervals, collects, interval, member, -⟩
    have none : integratedIntervals ((readings 59 120).foldl saved .empty) tenOClock elevenOClock = .ok [] := by
      decide +kernel
    rw [none] at collects
    cases collects
    cases member
  · rintro (short | ⟨⟨cloud, -⟩, -⟩)
    · exact absurd short (by decide +kernel)
    · exact absurd cloud (by decide)
  · exact ⟨_, rfl, _, List.mem_singleton_self _, by decide +kernel, by decide +kernel⟩

end Helio.Storage
