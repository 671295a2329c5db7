import Helio.Soundness.FaultVisibility
import Helio.ToMathlib.Except
import Mathlib.Algebra.Order.Archimedean.Real.Basic
import Mathlib.Tactic.Linarith
import Mathlib.Tactic.NormNum
import Mathlib.Tactic.Positivity

/-! # The two energy counters

The energy of the day is counted in steps of 10 Wh and that of the lifetime in steps of 100 Wh, so the
lifetime's counter may stand below the day's although the energies are in order. The plausibility check
compares the counters; it refuses such a reading however healthy the inverter is.
-/

namespace Helio.Sofar

open Domain

/-- A counter of 32 bits as registers, high word first. -/
def highLow (count : ℕ) : List Register := [BitVec.ofNat 16 (count / 65536), BitVec.ofNat 16 count]

/-- The energy block of an inverter with these energies. -/
noncomputable def energyRegisters (today lifetime : ℝ) : List Register :=
  highLow ⌊today / 10⌋₊ ++ highLow ⌊lifetime / 100⌋₊

/-- The checked values other than the energies are within their limits. -/
def Image.WithinLimits (image : Image) : Prop :=
  ∀ check ∈ image.measurements.checks, check.2.2.1 ≤ check.2.1 ∧ check.2.1 ≤ check.2.2.2

instance (image : Image) : Decidable image.WithinLimits := inferInstanceAs (Decidable (∀ check ∈ _, _))

theorem joinHighLow_toNat (high low : Register) : (joinHighLow high low).toNat = high.toNat * 65536 + low.toNat := by
  have bound : high.toNat < 2 ^ 16 := high.isLt
  have below : low.toNat < 2 ^ 16 := low.isLt
  rw [joinHighLow, BitVec.toNat_or, BitVec.toNat_shiftLeft, BitVec.toNat_setWidth, BitVec.toNat_setWidth,
    Nat.mod_eq_of_lt (by omega : high.toNat < 2 ^ 32), Nat.mod_eq_of_lt (by omega : low.toNat < 2 ^ 32),
    Nat.shiftLeft_eq, Nat.mod_eq_of_lt (by omega : high.toNat * 2 ^ 16 < 2 ^ 32), ← Nat.shiftLeft_eq,
    ← Nat.shiftLeft_add_eq_or_of_lt below, Nat.shiftLeft_eq]

/-- The words of a counter join to its count. -/
theorem joinHighLow_highLow {count : ℕ} (fits : count < 2 ^ 32) :
    (joinHighLow (BitVec.ofNat 16 (count / 65536)) (BitVec.ofNat 16 count)).toNat = count := by
  rw [joinHighLow_toNat, BitVec.toNat_ofNat, BitVec.toNat_ofNat]
  omega

section Reading

variable {readHoldingRegisters : ℕ → ℕ → Except String (List Register)} {activeMPPT : ℤ → Bool} {now : ℤ}
  {image : Image}

/-- An image is accepted exactly when its values pass their checks. -/
theorem readSnapshot_accepts (read : readImage readHoldingRegisters = .ok image) :
    readSnapshot readHoldingRegisters activeMPPT now = .ok (image.snapshot activeMPPT now) ↔
      validateSnapshot image.measurements = .ok () := by
  rw [readSnapshot, read]
  change (validateSnapshot image.measurements >>= fun _ => pure (image.snapshot activeMPPT now)) = _ ↔ _
  rw [Except.bind_eq_ok]
  constructor
  · rintro ⟨_, valid, -⟩
    exact valid
  · intro valid
    exact ⟨(), valid, rfl⟩

/-- Within the limits only the energies can be refused. -/
theorem validateSnapshot_within (limits : image.WithinLimits) (low : 0 ≤ image.measurements.energyTodayWh) :
    validateSnapshot image.measurements = .ok () ↔
      image.measurements.energyTodayWh ≤ image.measurements.energyLifetimeWh := by
  unfold validateSnapshot
  split
  · next name value minimum maximum found =>
    obtain ⟨above, below⟩ := limits _ (List.mem_of_find?_eq_some found)
    have refused := List.find?_some found
    exact absurd (of_decide_eq_true refused) (not_or.mpr ⟨not_lt.mpr above, not_lt.mpr below⟩)
  · rw [if_neg (not_lt.mpr low), ← not_lt]
    split
    · next less => exact iff_of_false (fun impossible => by cases impossible) (not_not_intro less)
    · next fits => exact iff_of_true rfl fits

/-- The values that the energy block shows are the energies rounded down to the steps of the counters. -/
theorem measurements_energies {today lifetime : ℝ} (energies : image.energy = energyRegisters today lifetime)
    (todayFits : ⌊today / 10⌋₊ < 2 ^ 32) (lifetimeFits : ⌊lifetime / 100⌋₊ < 2 ^ 32) :
    image.measurements.energyTodayWh = (⌊today / 10⌋₊ : ℚ) * 10 ∧
      image.measurements.energyLifetimeWh = (⌊lifetime / 100⌋₊ : ℚ) * 100 := by
  rw [Image.measurements, energies]
  change ((joinHighLow (BitVec.ofNat 16 _) (BitVec.ofNat 16 _)).toNat : ℚ) * 10 = _ ∧
    ((joinHighLow (BitVec.ofNat 16 _) (BitVec.ofNat 16 _)).toNat : ℚ) * 100 = _
  rw [joinHighLow_highLow todayFits, joinHighLow_highLow lifetimeFits]
  exact ⟨rfl, rfl⟩

/-- Ten steps of the day make up one of the lifetime. -/
theorem floors_le_iff {today lifetime : ℝ} (low : 0 ≤ today) :
    (⌊today / 10⌋₊ : ℚ) * 10 ≤ (⌊lifetime / 100⌋₊ : ℚ) * 100 ↔ today < 100 * ⌊lifetime / 100⌋₊ + 10 := by
  have steps : (⌊today / 10⌋₊ : ℚ) * 10 ≤ (⌊lifetime / 100⌋₊ : ℚ) * 100 ↔
      ⌊today / 10⌋₊ < 10 * ⌊lifetime / 100⌋₊ + 1 := by
    rw [Nat.lt_succ_iff, ← @Nat.cast_le ℚ]
    push_cast
    constructor <;> intro le <;> linarith
  rw [steps, Nat.floor_lt (by positivity), div_lt_iff₀ (by norm_num)]
  push_cast
  constructor <;> intro less <;> linarith

/-- A healthy inverter is readable exactly while the energy of the day is less than 10 Wh above what the
lifetime's counter shows. -/
theorem readable_exactly {today lifetime : ℝ} (read : readImage readHoldingRegisters = .ok image)
    (limits : image.WithinLimits) (energies : image.energy = energyRegisters today lifetime) (low : 0 ≤ today)
    (order : today ≤ lifetime) (todayFits : today < 10 * 2 ^ 32) (lifetimeFits : lifetime < 100 * 2 ^ 32) :
    readSnapshot readHoldingRegisters activeMPPT now = .ok (image.snapshot activeMPPT now) ↔
      today < 100 * ⌊lifetime / 100⌋₊ + 10 := by
  have todayCount : ⌊today / 10⌋₊ < 2 ^ 32 := by
    rw [Nat.floor_lt (by positivity), div_lt_iff₀ (by norm_num)]
    push_cast
    linarith
  have lifetimeCount : ⌊lifetime / 100⌋₊ < 2 ^ 32 := by
    rw [Nat.floor_lt (div_nonneg (low.trans order) (by norm_num)), div_lt_iff₀ (by norm_num)]
    push_cast
    linarith
  obtain ⟨day, life⟩ := measurements_energies energies todayCount lifetimeCount
  have nonneg : 0 ≤ image.measurements.energyTodayWh := by
    rw [day]
    positivity
  rw [readSnapshot_accepts read, validateSnapshot_within limits nonneg, day, life]
  exact floors_le_iff low

end Reading

/-- The registers of an inverter at 60 Hz without power, with its energy block. -/
def energyReadings (energy : List Register) : ℕ → ℕ → Except String (List Register) := fun start count =>
  if start = 0x0684 then .ok energy else readings 2 0 start count

def energyImage (energy : List Register) : Image := { readingsImage 2 0 with energy }

/-- After 1 kWh of earlier days the inverter is readable with 50 Wh of the day. -/
theorem readable_second_day :
    readSnapshot (energyReadings (energyRegisters 50 1050)) (fun _ => true) 0 =
      .ok ((energyImage (energyRegisters 50 1050)).snapshot (fun _ => true) 0) := by
  have counts : energyRegisters 50 1050 = [0, 5, 0, 10] := by
    have day : ⌊(50 : ℝ) / 10⌋₊ = 5 := (Nat.floor_eq_iff (by norm_num)).mpr (by norm_num)
    have life : ⌊(1050 : ℝ) / 100⌋₊ = 10 := (Nat.floor_eq_iff (by norm_num)).mpr (by norm_num)
    rw [energyRegisters, day, life]
    rfl
  have limits : (energyImage [0, 5, 0, 10]).WithinLimits := by decide +kernel
  rw [← counts] at limits
  refine (readable_exactly ?_ limits rfl (by norm_num) (by norm_num) (by norm_num) (by norm_num)).mpr ?_
  · rw [counts]
    rfl
  · have life : ⌊(1050 : ℝ) / 100⌋₊ = 10 := (Nat.floor_eq_iff (by norm_num)).mpr (by norm_num)
    rw [life]
    norm_num

/-- On the first day of an inverter its first 50 Wh make it unreadable. -/
theorem unreadable_first_day :
    readImage (energyReadings (energyRegisters 50 50)) = .ok (energyImage (energyRegisters 50 50)) ∧
      (energyImage (energyRegisters 50 50)).WithinLimits ∧
      readSnapshot (energyReadings (energyRegisters 50 50)) (fun _ => true) 0 =
        .error "energy lifetime 0.00 below energy today 50.00" := by
  have counts : energyRegisters 50 50 = [0, 5, 0, 0] := by
    have day : ⌊(50 : ℝ) / 10⌋₊ = 5 := (Nat.floor_eq_iff (by norm_num)).mpr (by norm_num)
    have life : ⌊(50 : ℝ) / 100⌋₊ = 0 := Nat.floor_eq_zero.mpr (by norm_num)
    rw [energyRegisters, day, life]
    rfl
  rw [counts]
  refine ⟨rfl, ?_, ?_⟩
  · decide +kernel
  · decide +kernel

end Helio.Sofar
