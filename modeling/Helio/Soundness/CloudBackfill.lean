import Helio.Soundness.MinuteMerge

/-! # The cloud history beside local readings

Frames of the cloud history and local snapshots share the minute rows. A frame that is later within
its minute than the local row replaces every column it does not carry by zero, and a negative
lifetime energy gives way to the frame's zero. Local rows are spared exactly when no frame that is
saved is like that.
-/

namespace Helio.Storage

open Calendar Domain

/-- One save of an interleaving: of a local snapshot, or of a frame by a recovery. -/
inductive Save where
  | observed (s : TelemetrySnapshot)
  | recovered (frame : Frame)

def Save.next (minutes : MinuteTable) : Save → MinuteTable
  | observed s => saved minutes s
  | recovered frame => saved minutes frame.snapshot

/-- A row that holds a locally observed snapshot. -/
def MinuteRow.IsLocal (row : MinuteRow) : Prop := row.status ≠ "cloud_history"

/-- Saving a frame changes no column of a local row. -/
def Spares (minutes : MinuteTable) : Save → Prop
  | .observed _ => True
  | .recovered frame => ∀ key row, minutes.find? key = some row → row.IsLocal →
      (saved minutes frame.snapshot).find? key = some row

/-- A frame that is not saved: it has no time, or its power is not a number. -/
def Frame.Refused (frame : Frame) : Prop := frame.at_ = zeroTime ∨ frame.powerW = .nan

/-- The frame is refused, or the local row of its minute is at least as late and its lifetime energy is
not negative. -/
def Harmless (minutes : MinuteTable) : Save → Prop
  | .observed _ => True
  | .recovered frame => frame.Refused ∨
      ∀ row, minutes.find? (minuteKey frame.at_) = some row → row.IsLocal →
        formatTime frame.at_ ≤ row.observedAtUtc ∧ 0 ≤ row.energyLifetimeWh

/-- A recovery saves its frames one after the other, up to a refusal. -/
theorem saveFrames_eq (minutes : MinuteTable) (frames : List Frame) :
    ∃ taken, taken <+: frames ∧
      (saveFrames minutes frames).1 = (taken.map Save.recovered).foldl Save.next minutes := by
  induction frames generalizing minutes with
  | nil => exact ⟨[], List.prefix_rfl, rfl⟩
  | cons frame rest ih =>
    cases save : saveMinute minutes frame.snapshot with
    | error detail => exact ⟨[], List.nil_prefix, by rw [saveFrames, save]; rfl⟩
    | ok next =>
      obtain ⟨taken, initial, same⟩ := ih next
      refine ⟨frame :: taken, List.cons_prefix_cons.mpr ⟨rfl, initial⟩, ?_⟩
      rw [saveFrames, save]
      change (saveFrames next rest).1 = (taken.map Save.recovered).foldl Save.next (saved minutes frame.snapshot)
      rw [same, saved, save]
      rfl

theorem MinuteRow.update_eq_self_iff {stored excluded : MinuteRow} :
    stored.update excluded = stored ↔
      excluded.observedAtUtc ≤ stored.observedAtUtc ∧ excluded.energyLifetimeWh ≤ stored.energyLifetimeWh := by
  constructor
  · intro unchanged
    have stamp := congrArg MinuteRow.observedAtUtc unchanged
    have lifetime := congrArg MinuteRow.energyLifetimeWh unchanged
    exact ⟨max_eq_left_iff.mp stamp, max_eq_left_iff.mp lifetime⟩
  · rintro ⟨stamp, lifetime⟩
    rw [update_eq, if_neg (not_lt.mpr stamp), max_eq_left lifetime]

private theorem rowAt_other {key : List Char} (s : TelemetrySnapshot) (other : minuteKey s.observedAt ≠ key) :
    rowAt key s = none := if_neg fun both => other both.2

private theorem rowAt_refused {frame : Frame} (refused : frame.Refused) (key : List Char) :
    rowAt key frame.snapshot = none := by
  rcases refused with untimed | power
  · exact if_neg fun both => both.1 untimed
  · have failed : (excluded frame.snapshot).toOption = none := by
      simp only [excluded, Frame.snapshot, power]
      rfl
    rw [rowAt, failed, ite_self]

/-- The row of a frame: its power and nothing else. -/
def Frame.row (frame : Frame) (power : StoredReal) : MinuteRow where
  observedAtUtc := formatTime frame.at_
  acPowerW := power
  energyTodayWh := 0
  energyLifetimeWh := 0
  pv1VoltageV := 0
  pv1CurrentA := 0
  pv1PowerW := 0
  pv2Active := 0
  pv2VoltageV := 0
  pv2CurrentA := 0
  pv2PowerW := 0
  gridVoltageV := 0
  gridFrequencyHz := 0
  status := "cloud_history"
  faultCodesJson := "null"

private theorem column_zero (name : String) : column name .zero = .ok 0 := rfl

private theorem excluded_frame {frame : Frame} {power : StoredReal} (stored : frame.powerW.stored = some power) :
    excluded frame.snapshot = .ok (frame.row power) := by
  have acPowerW : column "ac_power_w" frame.powerW = .ok power := by rw [column, stored]
  simp only [excluded, Frame.snapshot, acPowerW, column_zero]
  rfl

private theorem rowAt_frame {frame : Frame} (accepted : ¬ frame.Refused) :
    ∃ row, rowAt (minuteKey frame.at_) frame.snapshot = some row ∧
      row.observedAtUtc = formatTime frame.at_ ∧ row.energyLifetimeWh = 0 := by
  obtain ⟨timed, number⟩ := not_or.mp accepted
  obtain ⟨power, stored⟩ : ∃ power, frame.powerW.stored = some power := by
    cases value : frame.powerW with
    | nan => exact absurd value number
    | infinite negative => exact ⟨_, rfl⟩
    | finite value => exact ⟨_, rfl⟩
  have saves : rowAt (minuteKey frame.at_) frame.snapshot = some (frame.row power) := by
    have key : frame.snapshot.observedAt ≠ zeroTime ∧ minuteKey frame.snapshot.observedAt = minuteKey frame.at_ :=
      ⟨timed, rfl⟩
    rw [rowAt, if_pos key, excluded_frame stored]
    rfl
  exact ⟨frame.row power, saves, rfl, rfl⟩

/-- Saving a frame spares the local rows exactly when it is harmless. -/
theorem spares_iff (minutes : MinuteTable) (save : Save) : Spares minutes save ↔ Harmless minutes save := by
  cases save with
  | observed s => exact Iff.rfl
  | recovered frame =>
    simp only [Spares, Harmless]
    rcases em frame.Refused with refused | accepted
    · refine ⟨fun _ => Or.inl refused, fun _ key row found _ => ?_⟩
      rw [saved_find?, rowAt_refused refused]
      exact found
    · obtain ⟨own, writes, stamp, lifetime⟩ := rowAt_frame accepted
      have updated {row : MinuteRow} (found : minutes.find? (minuteKey frame.at_) = some row) :
          (saved minutes frame.snapshot).find? (minuteKey frame.at_) = some row ↔
            formatTime frame.at_ ≤ row.observedAtUtc ∧ 0 ≤ row.energyLifetimeWh := by
        rw [saved_find?, writes, found, Option.some.injEq, MinuteRow.update_eq_self_iff, stamp, lifetime]
      constructor
      · intro spared
        refine Or.inr fun row found local_ => ?_
        apply (updated found).mp
        exact spared (minuteKey frame.at_) row found local_
      · intro harmless key row found local_
        rcases eq_or_ne (minuteKey frame.at_) key with rfl | other
        · apply (updated found).mpr
          exact harmless.resolve_left accepted row found local_
        · rw [saved_find?, rowAt_other frame.snapshot other]
          exact found

/-- In every interleaving, the local rows are spared by every frame exactly when every frame is
harmless to the rows it meets. -/
theorem backfill_spares_iff (minutes : MinuteTable) (saves : List Save) :
    Meets Spares Save.next minutes saves ↔ Meets Harmless Save.next minutes saves := by
  induction saves generalizing minutes with
  | nil => exact Iff.rfl
  | cons save rest ih => exact and_congr (spares_iff minutes save) (ih _)

/-- A local reading 20 seconds into a minute. -/
def reading : TelemetrySnapshot where
  observedAt := 1767348020 * second
  status := "normal"
  acPowerW := .finite 500
  energyTodayWh := .finite 1200
  energyLifetimeWh := .finite 90000

/-- A frame of the same minute, ten seconds later. -/
def laterFrame : Frame := ⟨1767348030 * second, .finite 480⟩

theorem frame_replaces_reading :
    ¬ Meets Spares Save.next .empty [.observed reading, .recovered laterFrame] := by
  rintro ⟨-, spared, -⟩
  have stored : ∃ row, (saved .empty reading).find? (minuteKey reading.observedAt) = some row ∧ row.status = "normal" ∧
      (saved (saved .empty reading) laterFrame.snapshot).find? (minuteKey reading.observedAt) ≠ some row := by
    refine ⟨_, rfl, ?_, ?_⟩
    · decide +kernel
    · decide +kernel
  obtain ⟨row, found, normal, replaced⟩ := stored
  apply replaced
  apply spared (minuteKey reading.observedAt) row found
  rw [MinuteRow.IsLocal, normal]
  decide

end Helio.Storage
