import Helio.Machine.Crc
import Helio.Soundness.ResponseFrame

/-! # Damaged Modbus messages

The check of a Modbus message is the remainder of its bits in a shift register of 16 bits, and a message
followed by its own check leaves the register empty. Damage that keeps within 16 consecutive bits leaves
something in it, so the parser reports the check whatever else the damage did to the message.
-/

namespace Helio.Solarman

open Crc

/-- The reflected polynomial of Modbus. -/
def modbusPolynomial : BitVec 16 := 0xA001

/-- The bits of a section in the order they are sent. -/
def bitsOfBytes (bytes : List Byte) : List Bool := bytes.flatMap bitsOf

/-- Some bits are flipped, and all of them lie within 16 consecutive bits. -/
def ShortBurst (errors : List Byte) : Prop :=
  true ∈ bitsOfBytes errors ∧
    ∃ start, ∀ i, (bitsOfBytes errors)[i]? = some true → start ≤ i ∧ i < start + 16

/-- Where the Modbus section of a response starts. -/
def modbusOffset : ℕ := v5HeaderSize + responseMetadataSize

/-- The Modbus section of a response with its check. -/
def modbusSection (frame : List Byte) : List Byte :=
  (frame.drop modbusOffset).take (frame.length - modbusOffset - v5TrailerSize)

/-- The frame with some bits of its Modbus section flipped and its outer checksum put right. -/
def damage (frame errors : List Byte) : List Byte :=
  let damaged := frame.take modbusOffset ++ List.zipWith (· ^^^ ·) (modbusSection frame) errors
  damaged ++ [additiveChecksum (damaged.drop 1), v5End]

/-- What a section with its check leaves in the register. -/
def residue (bytes : List Byte) : BitVec 16 := remainder modbusPolynomial 0xFFFF (bitsOfBytes bytes)

theorem crcShift_eq (crc : BitVec 16) : crcShift crc = shift modbusPolynomial crc := by
  have low : crc &&& 1 ≠ 0 ↔ crc.getLsbD 0 = true := by
    have bit : crc &&& 1 = BitVec.setWidth 16 (BitVec.ofBool (crc.getLsbD 0)) :=
      BitVec.and_one_eq_setWidth_ofBool_getLsbD
    rw [bit]
    cases crc.getLsbD 0 <;> decide
  simp only [crcShift, shift, low, modbusPolynomial]

/-- The loop over a byte takes in its bits. -/
theorem crc16_bits (data : List Byte) : crc16 data = residue data := by
  have step : crcShift = shift modbusPolynomial := funext crcShift_eq
  rw [crc16, residue, step]
  generalize (0xFFFF : BitVec 16) = crc
  induction data generalizing crc with
  | nil => rfl
  | cons byte rest ih =>
    have bits : bitsOfBytes (byte :: rest) = bitsOf byte ++ bitsOfBytes rest := List.flatMap_cons
    rw [List.foldl_cons, ih, bits, remainder_append, remainder_word ((bitsOf_length byte).trans_le (by decide)),
      bitsOf_length, wordOf_bitsOf]

/-- A section ends with its own check exactly when it leaves the register empty. -/
theorem residue_eq_zero (message : List Byte) (crc0 crc1 : Byte) :
    residue (message ++ [crc0, crc1]) = 0#16 ↔ (crc1 ++ crc0 : BitVec 16) = crc16 message := by
  have check : bitsOfBytes [crc0, crc1] = bitsOf (crc1 ++ crc0) := by
    rw [bitsOf_append, bitsOfBytes, List.flatMap_cons, List.flatMap_cons, List.flatMap_nil, List.append_nil]
  have whole : bitsOfBytes (message ++ [crc0, crc1]) = bitsOfBytes message ++ bitsOf (crc1 ++ crc0) := by
    rw [← check]
    exact List.flatMap_append
  have message : remainder modbusPolynomial 0xFFFF (bitsOfBytes message) = crc16 message := (crc16_bits message).symm
  rw [residue, whole, remainder_append, remainder_word (bitsOf_length _).le, wordOf_bitsOf, shifts_eq_zero rfl,
    BitVec.setWidth_eq, message, BitVec.xor_eq_zero_iff, eq_comm]

theorem bitsOf_xor (byte error : Byte) : bitsOf (byte ^^^ error) = List.zipWith xor (bitsOf byte) (bitsOf error) := by
  rw [bitsOf, bitsOf, bitsOf, List.zipWith_map, List.zipWith_self]
  apply List.map_congr_left
  intro i _
  exact BitVec.getLsbD_xor

theorem bitsOfBytes_xor {bytes errors : List Byte} (size : bytes.length = errors.length) :
    bitsOfBytes (List.zipWith (· ^^^ ·) bytes errors) =
      List.zipWith xor (bitsOfBytes bytes) (bitsOfBytes errors) := by
  induction bytes generalizing errors with
  | nil =>
    obtain rfl := List.length_eq_zero_iff.mp size.symm
    rfl
  | cons byte bytes ih =>
    cases errors with
    | nil => cases size
    | cons error errors =>
      have rest := ih (Nat.succ.inj size)
      simp only [bitsOfBytes, List.zipWith_cons_cons, List.flatMap_cons] at rest ⊢
      rw [rest, bitsOf_xor, List.zipWith_append]
      rw [bitsOf_length, bitsOf_length]

theorem bitsOfBytes_length (bytes : List Byte) : (bitsOfBytes bytes).length = 8 * bytes.length := by
  induction bytes with
  | nil => rfl
  | cons byte bytes ih =>
    rw [bitsOfBytes, List.flatMap_cons, List.length_append, bitsOf_length, List.length_cons]
    rw [bitsOfBytes] at ih
    omega

/-- A short burst leaves something in an empty register. -/
theorem remainder_shortBurst {errors : List Byte} (burst : ShortBurst errors) :
    remainder modbusPolynomial 0#16 (bitsOfBytes errors) ≠ 0#16 := by
  obtain ⟨some, start, inside⟩ := burst
  have clear : ∀ i : ℕ, (bitsOfBytes errors)[i]? ≠ Option.some true → ∀ bit,
      (bitsOfBytes errors)[i]? = Option.some bit → bit = false := by
    intro i other bit here
    cases bit with
    | false => rfl
    | true => exact absurd here other
  have parts : bitsOfBytes errors = (bitsOfBytes errors).take start ++ ((bitsOfBytes errors).drop start).take 16 ++
      (bitsOfBytes errors).drop (start + 16) := by
    rw [List.append_assoc, ← List.drop_drop, List.take_append_drop, List.take_append_drop]
  rw [parts]
  apply remainder_burst rfl (List.length_take_le _ _)
  · obtain ⟨i, place, here⟩ := List.getElem_of_mem some
    have bounds := inside i (List.getElem?_eq_some_iff.mpr ⟨place, here⟩)
    refine List.mem_iff_getElem?.mpr ⟨i - start, ?_⟩
    rw [List.getElem?_take_of_lt (by omega), List.getElem?_drop, Nat.add_sub_cancel' bounds.1]
    exact List.getElem?_eq_some_iff.mpr ⟨place, here⟩
  · intro bit member
    obtain ⟨i, here⟩ := List.mem_iff_getElem?.mp member
    rw [List.getElem?_take] at here
    split at here
    · next before => exact clear i (fun set => absurd (inside i set).1 (by omega)) bit here
    · cases here
  · intro bit member
    obtain ⟨i, here⟩ := List.mem_iff_getElem?.mp member
    rw [List.getElem?_drop] at here
    exact clear (start + 16 + i) (fun set => absurd (inside _ set).2 (by omega)) bit here

/-- A section that was right is not right any more. -/
theorem residue_damaged {bytes errors : List Byte} (size : bytes.length = errors.length)
    (right : residue bytes = 0#16) (burst : ShortBurst errors) :
    residue (List.zipWith (· ^^^ ·) bytes errors) ≠ 0#16 := by
  have split : (0xFFFF : BitVec 16) = 0xFFFF ^^^ 0#16 := rfl
  rw [residue, bitsOfBytes_xor size, split, remainder_xor (by rw [bitsOfBytes_length, bitsOfBytes_length, size])]
  rw [residue] at right
  rw [right, BitVec.zero_xor]
  exact remainder_shortBurst burst

section Parsing

variable {serial : BitVec 32} {sequence : BitVec 16} {slave : Byte} {count : BitVec 16}

theorem modbusSection_frame (f : ResponseFields) :
    f.frame.take modbusOffset = f.first :: f.len0 :: f.len1 :: f.con0 :: f.con1 :: f.seq0 :: f.seq1 :: f.ser0 ::
      f.ser1 :: f.ser2 :: f.ser3 :: f.type :: f.status :: f.metadata ∧ modbusSection f.frame = f.modbus := by
  have parts : f.frame = (f.first :: f.len0 :: f.len1 :: f.con0 :: f.con1 :: f.seq0 :: f.seq1 :: f.ser0 :: f.ser1 ::
      f.ser2 :: f.ser3 :: f.type :: f.status :: f.metadata) ++ (f.modbus ++ [f.checksum, f.last]) := by
    simp [ResponseFields.frame, ResponseFields.body, ResponseFields.payload]
  have front : modbusOffset =
      (f.first :: f.len0 :: f.len1 :: f.con0 :: f.con1 :: f.seq0 :: f.seq1 :: f.ser0 :: f.ser1 ::
      f.ser2 :: f.ser3 :: f.type :: f.status :: f.metadata).length := by
    simp [f.metadata_length, modbusOffset, v5HeaderSize, responseMetadataSize]
  have room : f.frame.length - modbusOffset - v5TrailerSize = f.modbus.length := by
    rw [parts, List.length_append, ← front, List.length_append]
    simp only [v5TrailerSize, List.length_cons, List.length_nil]
    omega
  rw [modbusSection, room]
  rw [parts, front, List.take_left, List.drop_left, List.take_left]
  exact ⟨rfl, rfl⟩

/-- A section of the least size or more is a message and its check. -/
theorem exists_message {bytes : List Byte} {n : ℕ} (size : bytes.length = n + 5) :
    ∃ slave function code data crc0 crc1, bytes = slave :: function :: code :: data ++ [crc0, crc1] := by
  match bytes, size with
  | slave :: function :: code :: rest, size =>
    have two : (rest.drop n).length = 2 := by
      simp only [List.length_cons] at size
      rw [List.length_drop]
      omega
    obtain ⟨crc0, crc1, check⟩ := List.length_eq_two.mp two
    refine ⟨slave, function, code, rest.take n, crc0, crc1, ?_⟩
    rw [← check, List.cons_append, List.cons_append, List.cons_append, List.take_append_drop]

/-- The fields with another message under a checksum that is right. -/
def ResponseFields.carrying (f : ResponseFields) (slave function code : Byte) (data : List Byte) (crc0 crc1 : Byte) :
    ResponseFields :=
  let g := { f with slave, function, code, data, crc0, crc1 }
  { g with checksum := additiveChecksum g.body, last := v5End }

/-- A damaged frame has the fields of the frame but for those of its message. -/
theorem damage_fields (f : ResponseFields) {errors : List Byte} (size : f.modbus.length = errors.length) :
    ∃ slave function code data crc0 crc1,
      (f.carrying slave function code data crc0 crc1).frame = damage f.frame errors ∧
        (f.carrying slave function code data crc0 crc1).modbus = List.zipWith (· ^^^ ·) f.modbus errors := by
  have length : (List.zipWith (· ^^^ ·) f.modbus errors).length = f.data.length + 5 := by
    rw [List.length_zipWith, ← size, min_self, modbus_size]
  obtain ⟨slave, function, code, data, crc0, crc1, split⟩ := exists_message length
  refine ⟨slave, function, code, data, crc0, crc1, ?_, split.symm⟩
  obtain ⟨front, modbus⟩ := modbusSection_frame f
  rw [damage, front, modbus, split]
  simp [ResponseFields.frame, ResponseFields.body, ResponseFields.payload, ResponseFields.modbus,
    ResponseFields.message, ResponseFields.carrying]

theorem carrying_checksum (f : ResponseFields) (slave function code : Byte) (data : List Byte) (crc0 crc1 : Byte) :
    additiveChecksum (f.carrying slave function code data crc0 crc1).body =
      (f.carrying slave function code data crc0 crc1).checksum := by
  simp only [ResponseFields.carrying, ResponseFields.body, ResponseFields.payload, ResponseFields.modbus,
    ResponseFields.message]

theorem residue_modbus (f : ResponseFields) :
    residue f.modbus = 0#16 ↔ (f.crc1 ++ f.crc0 : BitVec 16) = crc16 f.message :=
  residue_eq_zero f.message f.crc0 f.crc1

/-- A frame whose check is all that is wrong with its wrapping. -/
theorem parse_failed_check (g : ResponseFields) (first : g.first = v5Start) (last : g.last = v5End)
    (length : (g.len1 ++ g.len0 : BitVec 16).toNat = g.payload.length)
    (control : (g.con1 ++ g.con0 : BitVec 16) = v5ResponseControl) (checksum : additiveChecksum g.body = g.checksum)
    (sequenceByte : g.seq0 = sequence.setWidth 8)
    (serialBytes : (g.ser3 ++ g.ser2 ++ g.ser1 ++ g.ser0 : BitVec 32) = serial) (type : g.type = 0x02)
    (status : g.status = 0x01) (wrong : (g.crc1 ++ g.crc0 : BitVec 16) ≠ crc16 g.message) :
    parseReadResponse g.frame serial sequence slave count =
      .error (.failed (.crc (g.crc1 ++ g.crc0) (crc16 g.message))) := by
  have sizes : g.frame.length = g.payload.length + 13 ∧ g.payload.length = g.data.length + 19 := by
    rw [frame_size, body_size, payload_size, modbus_size]
    omega
  have long : ¬g.frame.length < 32 := by omega
  have markers : ¬(g.first ≠ v5Start ∨ g.last ≠ v5End) := by simp [first, last]
  have extent : ¬((g.len1 ++ g.len0 : BitVec 16).toNat : ℤ) ≠ (g.frame.length : ℤ) - v5HeaderSize - v5TrailerSize := by
    simp only [v5HeaderSize, v5TrailerSize]
    omega
  have identity : ¬(g.seq0 ≠ sequence.setWidth 8 ∨
      (g.ser3 ++ g.ser2 ++ g.ser1 ++ g.ser0 : BitVec 32) ≠ serial) := by simp [sequenceByte, serialBytes]
  have metadata : ¬(g.type ≠ 0x02 ∨ g.status ≠ 0x01) := by simp [type, status]
  rw [parse_fields, reject_pass long, reject_pass markers, reject_pass extent, reject_pass (not_not.mpr control),
    reject_pass (not_not.mpr checksum), reject_pass identity, reject_pass metadata]
  exact reject_stop wrong

/-- Damage within 16 consecutive bits of an accepted response is reported as a failed check. -/
theorem burst_detected {frame errors : List Byte} {registers : List Register}
    (accepted : parseReadResponse frame serial sequence slave count = .ok registers)
    (size : errors.length = (modbusSection frame).length) (burst : ShortBurst errors) :
    ∃ got want, parseReadResponse (damage frame errors) serial sequence slave count =
      .error (.failed (.crc got want)) := by
  obtain ⟨f, rfl⟩ := exists_fields (long_of_parse accepted)
  obtain ⟨first, -, length, control, -, sequenceByte, serialBytes, type, status, crc, -⟩ :=
    (accepts_iff f serial sequence slave count registers).mp accepted
  rw [(modbusSection_frame f).2] at size
  obtain ⟨slave', function, code, data, crc0, crc1, damaged, modbus⟩ := damage_fields f size.symm
  obtain ⟨g, same⟩ : ∃ g, g = f.carrying slave' function code data crc0 crc1 := ⟨_, rfl⟩
  rw [← same] at damaged modbus
  have wrong : (g.crc1 ++ g.crc0 : BitVec 16) ≠ crc16 g.message := by
    have right := (residue_modbus f).mpr crc
    have left := residue_damaged size.symm right burst
    rw [← modbus] at left
    exact (residue_modbus g).not.mp left
  have sizes : f.payload.length = g.payload.length := by
    rw [payload_size, payload_size, modbus, List.length_zipWith, size, min_self]
  have checksum : additiveChecksum g.body = g.checksum := by
    rw [same]
    exact carrying_checksum ..
  rw [← damaged]
  refine ⟨_, _, parse_failed_check g ?_ ?_ ?_ ?_ checksum ?_ ?_ ?_ ?_ wrong⟩
  all_goals simp only [same, ResponseFields.carrying]
  · exact first
  · rw [length, sizes, same]
    rfl
  · exact control
  · exact sequenceByte
  · exact serialBytes
  · exact type
  · exact status

/-- A response of one register with one bit of it flipped. -/
theorem burst_detected_register : ∃ got want,
    parseReadResponse (damage (responseFrame 123456789 7 (List.replicate 12 0) 1 [0x1234]) [0, 0, 0, 0, 0x10, 0, 0])
      123456789 7 1 1 = .error (.failed (.crc got want)) := by
  have accepted : parseReadResponse (responseFrame 123456789 7 (List.replicate 12 0) 1 [0x1234]) 123456789 7 1 1 =
      .ok [0x1234] :=
    parse_responseFrame 123456789 7 7 rfl 1 (by decide) (by decide) rfl rfl
  refine burst_detected accepted (by decide +kernel) ⟨by decide, 36, ?_⟩
  intro i set
  obtain ⟨inside, -⟩ := List.getElem?_eq_some_iff.mp set
  have places : ∀ i < 56, (bitsOfBytes [0, 0, 0, 0, 0x10, 0, 0])[i]? = some true → 36 ≤ i ∧ i < 36 + 16 := by decide
  exact places i inside set

end Parsing

end Helio.Solarman
