import Helio.Model.AlertFeeds
import Helio.Model.Decoder
import Mathlib.Data.List.Basic

/-! # Faults of the inverter in the alert input

The codes of a snapshot are the numbers of the bits that are set in the fault words, in order, so they
determine the words. The alert input marks a fault for any code and for the status `fault`, but not for
the status `permanent_fault`.
-/

namespace Helio.Sofar

open Domain Alerts

section Codes

variable {words other : List Register}

theorem mem_decodeFaultCodes (few : words.length ≤ 4095) {code : ℕ} :
    code ∈ decodeFaultCodes words ↔
      ∃ index bit word, words[index]? = some word ∧ bit < 16 ∧ word.getLsbD bit = true ∧
        code = 16 * index + bit + 1 := by
  simp only [decodeFaultCodes, List.mem_flatMap, List.mem_map, List.mem_filter, List.mem_range, Prod.exists,
    List.mem_zipIdx_iff_getElem?]
  constructor
  · rintro ⟨word, index, here, bit, ⟨bound, set⟩, rfl⟩
    obtain ⟨inside, _⟩ := List.getElem?_eq_some_iff.mp here
    refine ⟨index, bit, word, here, bound, set, ?_⟩
    omega
  · rintro ⟨index, bit, word, here, bound, set, rfl⟩
    obtain ⟨inside, _⟩ := List.getElem?_eq_some_iff.mp here
    refine ⟨word, index, here, bit, ⟨bound, set⟩, ?_⟩
    omega

theorem decodeFaultCodes_increasing (few : words.length ≤ 4095) :
    (decodeFaultCodes words).Pairwise (· < ·) := by
  have numbered : words.zipIdx.Pairwise fun a b => a.2 < b.2 := by
    have indices : (words.zipIdx.map Prod.snd).Pairwise (· < ·) := by
      rw [List.zipIdx_map_snd]
      exact List.pairwise_lt_range'
    exact List.pairwise_map.mp indices
  have inside : ∀ pair ∈ words.zipIdx, pair.2 < 4095 := by
    intro pair member
    obtain ⟨bound, _⟩ := List.getElem?_eq_some_iff.mp (List.mem_zipIdx_iff_getElem?.mp member)
    omega
  refine List.pairwise_flatMap.mpr ⟨fun pair member => ?_, ?_⟩
  · have bound := inside pair member
    refine List.pairwise_map.mpr ?_
    refine (List.pairwise_lt_range.filter _).imp_of_mem fun first second less => ?_
    have low := List.mem_range.mp (List.mem_filter.mp first).1
    have high := List.mem_range.mp (List.mem_filter.mp second).1
    omega
  · refine numbered.imp_of_mem fun first second less => ?_
    have bound := inside _ second
    intro code own later others
    obtain ⟨bit, set, rfl⟩ := List.mem_map.mp own
    obtain ⟨laterBit, laterSet, rfl⟩ := List.mem_map.mp others
    have low := List.mem_range.mp (List.mem_filter.mp set).1
    have high := List.mem_range.mp (List.mem_filter.mp laterSet).1
    omega

/-- The codes determine the words. -/
theorem decodeFaultCodes_injective (few : words.length ≤ 4095) (length : other.length = words.length)
    (same : decodeFaultCodes other = decodeFaultCodes words) : other = words := by
  apply List.ext_getElem length
  intro index left right
  apply BitVec.eq_of_getLsbD_eq
  intro bit bound
  have set : ∀ {list : List Register} (inside : index < list.length), list.length ≤ 4095 →
      (list[index].getLsbD bit = true ↔ 16 * index + bit + 1 ∈ decodeFaultCodes list) := by
    intro list inside few
    rw [mem_decodeFaultCodes few]
    constructor
    · intro set
      exact ⟨index, bit, _, List.getElem?_eq_getElem inside, bound, set, rfl⟩
    · rintro ⟨place, position, word, here, small, set, equal⟩
      obtain ⟨rfl, rfl⟩ : place = index ∧ position = bit := by omega
      rw [List.getElem?_eq_getElem inside] at here
      cases here
      exact set
  rw [Bool.eq_iff_iff, set left (length ▸ few), set right few, same]

theorem decodeFaultCodes_eq_nil (few : words.length ≤ 4095) :
    decodeFaultCodes words = [] ↔ ∀ word ∈ words, word = 0 := by
  rw [List.eq_nil_iff_forall_not_mem]
  constructor
  · intro none word member
    obtain ⟨index, inside, here⟩ := List.getElem_of_mem member
    apply BitVec.eq_of_getLsbD_eq
    intro bit bound
    rw [show (0 : Register).getLsbD bit = false from BitVec.getLsbD_zero, ← Bool.not_eq_true]
    intro set
    refine none (16 * index + bit + 1) ((mem_decodeFaultCodes few).mpr ?_)
    exact ⟨index, bit, word, by rw [List.getElem?_eq_getElem inside, here], bound, set, rfl⟩
  · intro zero code member
    obtain ⟨index, bit, word, here, _, set, _⟩ := (mem_decodeFaultCodes few).mp member
    rw [zero word (List.mem_of_getElem? here), show (0 : Register).getLsbD bit = false from BitVec.getLsbD_zero]
      at set
    cases set

end Codes

/-- The inverter reports a fault: by its status or by a bit of the fault words. -/
def Image.ReportsFault (image : Image) : Prop :=
  statusName image.status = "fault" ∨ statusName image.status = "permanent_fault" ∨
    ∃ word ∈ image.faultWords, word ≠ 0

/-- The alert input shows a fault exactly when the inverter reports one, and the codes are in order and
determine the fault words. -/
structure Image.ShowsFault (image : Image) (input : Input) (codes : List ℕ) : Prop where
  active : 0 < input.activeFaults ↔ image.ReportsFault
  increasing : codes.Pairwise (· < ·)
  determined : ∀ words, words.length = faultWordCount → decodeFaultCodes words = codes → words = image.faultWords

section Reading

variable {readHoldingRegisters : ℕ → ℕ → Except String (List Register)} {activeMPPT : ℤ → Bool} {now handled : ℤ}
  {image : Image} {snapshot : TelemetrySnapshot} {weather : WeatherResult} {elevation : Option (ℤ → Float64)}
  {state : Collector.State}

theorem readBlock_length {block : RegisterBlock} {registers : List Register}
    (read : readBlock readHoldingRegisters block = .ok registers) : registers.length = block.count := by
  unfold readBlock at read
  split at read
  · cases read
  · split at read
    · cases read
    · next same =>
      cases read
      exact not_not.mp same

theorem readImage_length (read : readImage readHoldingRegisters = .ok image) : image.statusFault.length = 13 := by
  simp only [readImage, bind, Except.bind] at read
  split at read
  · cases read
  · next statusFault first =>
    split at read
    · cases read
    · split at read
      · cases read
      · split at read
        · cases read
        · cases read
          exact readBlock_length first

theorem faultWords_length (read : readImage readHoldingRegisters = .ok image) :
    image.faultWords.length = faultWordCount := by
  have length := readImage_length read
  simp only [Image.faultWords, List.length_take, List.length_drop, faultWordCount, faultFirstOffset]
  omega

theorem readSnapshot_ok (read : readSnapshot readHoldingRegisters activeMPPT now = .ok snapshot) :
    ∃ image, readImage readHoldingRegisters = .ok image ∧ validateSnapshot image.measurements = .ok () ∧
      snapshot = image.snapshot activeMPPT now := by
  simp only [readSnapshot, bind, Except.bind] at read
  split at read
  · cases read
  · next image reads =>
    split at read
    · cases read
    · next valid =>
      cases read
      exact ⟨image, reads, valid, rfl⟩

/-- Of a snapshot only the first input can show a fault. -/
theorem activeFaults_pos (event : Collector.Event) (kind : event.kind = .snapshot) {observed : Collector.Snapshot}
    (carried : event.snapshot = some observed) :
    0 < (collectorInput weather elevation handled event).activeFaults ↔
      observed.status = "fault" ∨ observed.faultCodes ≠ [] := by
  have second : (collectorInput weather elevation handled event).pv2Fault = false := by
    simp [collectorInput, kind, carried]
  have first : (collectorInput weather elevation handled event).pv1Fault = true ↔
      observed.status = "fault" ∨ observed.faultCodes ≠ [] := by
    simp [collectorInput, kind, carried]
  rw [← first, Input.activeFaults, second, Bool.and_false]
  cases (collectorInput weather elevation handled event).pv1Fault <;> decide

/-- A reading shows its faults exactly when it is not a permanent fault without a fault bit. -/
theorem shows_fault_iff (accepted : readSnapshot readHoldingRegisters activeMPPT now = .ok snapshot)
    (read : readImage readHoldingRegisters = .ok image) :
    image.ShowsFault (collectorInput weather elevation handled ⟨.snapshot, some snapshot.observed, state⟩)
        (decodeFaultCodes image.faultWords) ↔
      ¬(statusName image.status = "permanent_fault" ∧ ∀ word ∈ image.faultWords, word = 0) := by
  obtain ⟨other, reads, _, rfl⟩ := readSnapshot_ok accepted
  obtain rfl : image = other := Except.ok.inj (read.symm.trans reads)
  have length := faultWords_length read
  have few : image.faultWords.length ≤ 4095 := length.trans_le (by decide)
  have active : 0 < (collectorInput weather elevation handled
      ⟨.snapshot, some (image.snapshot activeMPPT now).observed, state⟩).activeFaults ↔
      statusName image.status = "fault" ∨ decodeFaultCodes image.faultWords ≠ [] :=
    activeFaults_pos ⟨.snapshot, some (image.snapshot activeMPPT now).observed, state⟩ rfl rfl
  have clear : decodeFaultCodes image.faultWords ≠ [] ↔ ∃ word ∈ image.faultWords, word ≠ 0 := by
    rw [Ne, decodeFaultCodes_eq_nil few]
    simp
  constructor
  · rintro shows ⟨permanent, zero⟩
    have fault := active.mp (shows.active.mpr (Or.inr (Or.inl permanent)))
    rw [permanent, clear] at fault
    rcases fault with fault | ⟨word, member, set⟩
    · exact absurd fault (by decide)
    · exact set (zero word member)
  · intro exception
    refine ⟨?_, decodeFaultCodes_increasing few, fun words many same => ?_⟩
    · rw [active, clear, Image.ReportsFault]
      constructor
      · rintro (fault | bit)
        · exact Or.inl fault
        · exact Or.inr (Or.inr bit)
      · rintro (fault | permanent | bit)
        · exact Or.inl fault
        · refine Or.inr ?_
          by_contra zero
          refine exception ⟨permanent, fun word member => ?_⟩
          by_contra set
          exact zero ⟨word, member, set⟩
        · exact Or.inr bit
    · exact decodeFaultCodes_injective few (many.trans length.symm) same

end Reading

/-- The registers of an inverter at 60 Hz without power, with its status and its first fault word. -/
def readings (status fault : Register) : ℕ → ℕ → Except String (List Register) := fun start _ =>
  .ok (if start = 0x0404 then [status, fault] ++ List.replicate 11 0
    else if start = 0x0484 then 6000 :: List.replicate 9 0
    else if start = 0x0584 then List.replicate 6 0
    else List.replicate 4 0)

/-- The image of these registers. -/
def readingsImage (status fault : Register) : Image :=
  ⟨[status, fault] ++ List.replicate 11 0, 6000 :: List.replicate 9 0, List.replicate 6 0, List.replicate 4 0⟩

def emptyWeather : WeatherResult := ⟨false, []⟩

/-- A normal status with the ninth fault bit is shown. -/
theorem shows_fault_bit :
    (readingsImage 2 0x0100).ShowsFault
      (collectorInput emptyWeather none 0
        ⟨.snapshot, some ((readingsImage 2 0x0100).snapshot (fun _ => true) 0).observed, {}⟩)
      (decodeFaultCodes (readingsImage 2 0x0100).faultWords) := by
  have accepted : readSnapshot (readings 2 0x0100) (fun _ => true) 0 =
      .ok ((readingsImage 2 0x0100).snapshot (fun _ => true) 0) := by
    decide +kernel
  refine (shows_fault_iff accepted rfl).mpr ?_
  decide

/-- A permanent fault without a fault bit is not shown. -/
theorem permanent_fault_hidden :
    readSnapshot (readings 5 0) (fun _ => true) 0 = .ok ((readingsImage 5 0).snapshot (fun _ => true) 0) ∧
      (readingsImage 5 0).ReportsFault ∧
      (collectorInput emptyWeather none 0
        ⟨.snapshot, some ((readingsImage 5 0).snapshot (fun _ => true) 0).observed, {}⟩).activeFaults = 0 := by
  refine ⟨?_, Or.inr (Or.inl ?_), ?_⟩
  · decide +kernel
  · decide
  · decide

end Helio.Sofar
