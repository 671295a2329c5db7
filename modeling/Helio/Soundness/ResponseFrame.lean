import Helio.Model.Frame

/-! # Which frames are read responses

A frame that is long enough falls into fields, and the parser checks nothing else. So it accepts
exactly the frames that the layout of a read response describes, and it never leaves the frame.
-/

namespace Helio.Solarman

/-- The bytes of a frame of the least size or more, by their place. -/
structure ResponseFields where
  (first len0 len1 con0 con1 seq0 seq1 ser0 ser1 ser2 ser3 : Byte)
  (type status : Byte)
  metadata : List Byte
  metadata_length : metadata.length = 12
  (slave function code : Byte)
  data : List Byte
  (crc0 crc1 checksum last : Byte)

namespace ResponseFields

def message (f : ResponseFields) : List Byte := f.slave :: f.function :: f.code :: f.data

def modbus (f : ResponseFields) : List Byte := f.message ++ [f.crc0, f.crc1]

def payload (f : ResponseFields) : List Byte := f.type :: f.status :: (f.metadata ++ f.modbus)

def body (f : ResponseFields) : List Byte :=
  f.len0 :: f.len1 :: f.con0 :: f.con1 :: f.seq0 :: f.seq1 :: f.ser0 :: f.ser1 :: f.ser2 :: f.ser3 :: f.payload

def frame (f : ResponseFields) : List Byte := f.first :: (f.body ++ [f.checksum, f.last])

end ResponseFields

private theorem split_front (bytes : List Byte) {n : ℕ} (long : n ≤ bytes.length) :
    ∃ front rest, bytes = front ++ rest ∧ front.length = n :=
  ⟨bytes.take n, bytes.drop n, (List.take_append_drop n bytes).symm, List.length_take_of_le long⟩

/-- Every frame of the least size has the fields. -/
theorem exists_fields {frame : List Byte} (long : 32 ≤ frame.length) : ∃ f : ResponseFields, f.frame = frame := by
  obtain ⟨header, rest, rfl, size⟩ := split_front frame (by omega : 13 ≤ frame.length)
  rw [List.length_append, size] at long
  obtain ⟨metadata, rest, rfl, reserved⟩ := split_front rest (by omega : 12 ≤ rest.length)
  rw [List.length_append, reserved] at long
  obtain ⟨opening, rest, rfl, three⟩ := split_front rest (by omega : 3 ≤ rest.length)
  rw [List.length_append, three] at long
  obtain ⟨data, trailer, rfl, room⟩ := split_front rest (by omega : rest.length - 4 ≤ rest.length)
  rw [List.length_append] at long room
  obtain ⟨slave, function, code, rfl⟩ := List.length_eq_three.mp three
  have four : trailer.length = 4 := by omega
  match header, size, trailer, four with
  | [first, len0, len1, con0, con1, seq0, seq1, ser0, ser1, ser2, ser3, type, status], _,
      [crc0, crc1, checksum, last], _ =>
    refine ⟨⟨first, len0, len1, con0, con1, seq0, seq1, ser0, ser1, ser2, ser3, type, status, metadata, reserved,
      slave, function, code, data, crc0, crc1, checksum, last⟩, ?_⟩
    simp [ResponseFields.frame, ResponseFields.body, ResponseFields.payload, ResponseFields.modbus,
      ResponseFields.message]

section Reading

variable {ε : Type} (f : ResponseFields)

theorem frame_size : f.frame.length = f.body.length + 3 := by
  simp [ResponseFields.frame]

theorem body_size : f.body.length = f.payload.length + 10 := by
  simp [ResponseFields.body]

theorem payload_size : f.payload.length = f.modbus.length + 14 := by
  simp [ResponseFields.payload, f.metadata_length]
  omega

theorem modbus_size : f.modbus.length = f.data.length + 5 := by
  simp [ResponseFields.modbus, ResponseFields.message]

private theorem read_last : byteAt f.frame (f.frame.length - 1) = (.ok f.last : Except (Fault ε) Byte) := by
  apply byteAt_ok (n := f.body.length + 2)
  · rw [frame_size]
    push_cast
    ring
  · simp [ResponseFields.frame]

private theorem read_checksum : byteAt f.frame (f.frame.length - 2) = (.ok f.checksum : Except (Fault ε) Byte) := by
  apply byteAt_ok (n := f.body.length + 1)
  · rw [frame_size]
    push_cast
    ring
  · simp [ResponseFields.frame]

private theorem read_body : slice f.frame 1 (f.frame.length - 2) = (.ok f.body : Except (Fault ε) (List Byte)) := by
  refine slice_ok [f.first] [f.checksum, f.last] rfl rfl ?_
  rw [frame_size, List.length_singleton]
  push_cast
  ring

private theorem read_length : slice f.frame 1 3 = (.ok [f.len0, f.len1] : Except (Fault ε) (List Byte)) :=
  slice_ok [f.first] _ rfl rfl rfl

private theorem read_control : slice f.frame 3 5 = (.ok [f.con0, f.con1] : Except (Fault ε) (List Byte)) :=
  slice_ok [f.first, f.len0, f.len1] _ rfl rfl rfl

private theorem read_serial :
    slice f.frame 7 11 = (.ok [f.ser0, f.ser1, f.ser2, f.ser3] : Except (Fault ε) (List Byte)) :=
  slice_ok [f.first, f.len0, f.len1, f.con0, f.con1, f.seq0, f.seq1] _ rfl rfl rfl

private theorem read_payload :
    slice f.frame v5HeaderSize (f.frame.length - v5TrailerSize) = (.ok f.payload : Except (Fault ε) (List Byte)) := by
  refine slice_ok [f.first, f.len0, f.len1, f.con0, f.con1, f.seq0, f.seq1, f.ser0, f.ser1, f.ser2, f.ser3]
    [f.checksum, f.last] rfl rfl ?_
  rw [frame_size, body_size]
  simp only [v5TrailerSize, List.length_cons, List.length_nil]
  push_cast
  ring

private theorem read_modbus :
    slice f.payload responseMetadataSize f.payload.length = (.ok f.modbus : Except (Fault ε) (List Byte)) := by
  apply slice_ok (f.type :: f.status :: f.metadata) []
  · simp [ResponseFields.payload]
  · simp [f.metadata_length, responseMetadataSize]
  · rw [payload_size]
    simp [f.metadata_length]
    ring

private theorem read_message : slice f.modbus 0 (f.modbus.length - 2) = (.ok f.message : Except (Fault ε) (List Byte)) := by
  refine slice_ok [] [f.crc0, f.crc1] rfl rfl ?_
  simp [ResponseFields.modbus]

private theorem read_crc :
    slice f.modbus (f.modbus.length - 2) f.modbus.length = (.ok [f.crc0, f.crc1] : Except (Fault ε) (List Byte)) := by
  apply slice_ok f.message []
  · rfl
  · simp [ResponseFields.modbus]
  · simp [ResponseFields.modbus]

end Reading

/-- The checks of the parser, field by field. -/
theorem parse_fields (f : ResponseFields) (serial : BitVec 32) (sequence : BitVec 16) (slave : Byte)
    (count : BitVec 16) :
    parseReadResponse f.frame serial sequence slave count = (do
      reject (f.frame.length < 32) (.malformedFrame "frame too short")
      reject (f.first ≠ v5Start ∨ f.last ≠ v5End) (.malformedFrame "bad frame marker")
      reject (((f.len1 ++ f.len0 : BitVec 16).toNat : ℤ) ≠ (f.frame.length : ℤ) - v5HeaderSize - v5TrailerSize)
        (.malformedFrame "payload length mismatch")
      reject ((f.con1 ++ f.con0 : BitVec 16) ≠ v5ResponseControl) (.malformedFrame "invalid response control")
      reject (additiveChecksum f.body ≠ f.checksum) (.malformedFrame "frame checksum mismatch")
      reject (f.seq0 ≠ sequence.setWidth 8 ∨ (f.ser3 ++ f.ser2 ++ f.ser1 ++ f.ser0 : BitVec 32) ≠ serial)
        .identityMismatch
      reject (f.type ≠ 0x02 ∨ f.status ≠ 0x01) (.malformedFrame "invalid response metadata")
      reject ((f.crc1 ++ f.crc0 : BitVec 16) ≠ crc16 f.message) (.crc (f.crc1 ++ f.crc0) (crc16 f.message))
      reject (f.slave ≠ slave) .identityMismatch
      reject (f.function = readHoldingFunction ||| 0x80 ∧ f.modbus.length ≠ 5)
        (.malformedFrame "invalid exception length")
      reject (f.function = readHoldingFunction ||| 0x80) (.modbusException (f.function &&& ~~~ 0x80) f.code)
      reject (f.function ≠ readHoldingFunction) (.unsupportedFunction f.function)
      reject (f.code.toNat = 0 ∨ f.code.toNat % 2 ≠ 0 ∨ maxReadRegisters < f.code.toNat / 2)
        (.malformedFrame ("invalid Modbus byte count " ++ toString f.code.toNat))
      reject (f.modbus.length ≠ 3 + f.code.toNat + 2) (.malformedFrame "Modbus response length mismatch")
      reject (f.code.toNat ≠ count.toNat * 2) .identityMismatch
      (List.range (f.code.toNat / 2)).mapM fun (i : ℕ) => do
        bigEndian16 (← slice f.modbus (3 + i * 2) (5 + i * 2))) := by
  have first : byteAt f.frame 0 = (.ok f.first : Checked Byte) := rfl
  have sequenceByte : byteAt f.frame 5 = (.ok f.seq0 : Checked Byte) := rfl
  have type : byteAt f.payload 0 = (.ok f.type : Checked Byte) := rfl
  have status : byteAt f.payload 1 = (.ok f.status : Checked Byte) := rfl
  have slaveByte : byteAt f.modbus 0 = (.ok f.slave : Checked Byte) := rfl
  have function : byteAt f.modbus 1 = (.ok f.function : Checked Byte) := rfl
  have code : byteAt f.modbus 2 = (.ok f.code : Checked Byte) := rfl
  simp only [parseReadResponse, validateModbusCRC, first, sequenceByte, type, status, slaveByte, function, code,
    read_last, read_checksum, read_body, read_length, read_control, read_serial, read_payload, read_modbus,
    read_message, read_crc, Except.ok_bind, littleEndian16, littleEndian32]
  rfl

/-- Bytes of even length are registers, high byte first. -/
theorem exists_registers {n : ℕ} {data : List Byte} (size : data.length = 2 * n) :
    ∃ registers : List Register, registers.length = n ∧ registers.flatMap putBigEndian16 = data := by
  induction n generalizing data with
  | zero => exact ⟨[], rfl, (List.length_eq_zero_iff.mp size).symm⟩
  | succ n ih =>
    match data, size with
    | high :: low :: rest, size =>
      simp only [List.length_cons] at size
      obtain ⟨registers, length, bytes⟩ := ih (by omega : rest.length = 2 * n)
      refine ⟨(high ++ low) :: registers, by rw [List.length_cons, length], ?_⟩
      rw [List.flatMap_cons, putBigEndian16_append, bytes]
      rfl

theorem flatMap_size (registers : List Register) :
    (registers.flatMap putBigEndian16).length = 2 * registers.length := by
  induction registers with
  | nil => rfl
  | cons register registers ih =>
    rw [List.flatMap_cons, List.length_append, ih, List.length_cons]
    simp only [putBigEndian16, List.length_cons, List.length_nil]
    omega

/-- The loop over the data reads its registers. -/
theorem read_registers (f : ResponseFields) {registers : List Register}
    (data : registers.flatMap putBigEndian16 = f.data) :
    ((List.range registers.length).mapM fun (i : ℕ) => do
      bigEndian16 (← slice f.modbus (3 + i * 2) (5 + i * 2))) = (.ok registers : Checked (List Register)) := by
  have each (i : ℕ) (member : i ∈ List.range registers.length) :
      (do bigEndian16 (← slice f.modbus (3 + i * 2) (5 + i * 2))) = (.ok (registers.getD i 0) : Checked Register) := by
    have index := List.mem_range.mp member
    have split : registers = registers.take i ++ registers[i] :: registers.drop (i + 1) := by
      rw [List.getElem_cons_drop, List.take_append_drop]
    have found : slice f.modbus (3 + i * 2) (5 + i * 2) = (.ok (putBigEndian16 registers[i]) : Checked (List Byte)) := by
      refine slice_ok (f.slave :: f.function :: f.code :: (registers.take i).flatMap putBigEndian16)
        ((registers.drop (i + 1)).flatMap putBigEndian16 ++ [f.crc0, f.crc1]) ?_ ?_ ?_
      · have parts := congrArg (List.flatMap putBigEndian16) split
        rw [data, List.flatMap_append, List.flatMap_cons] at parts
        simp [ResponseFields.modbus, ResponseFields.message, parts]
      · simp only [List.length_cons, flatMap_size, List.length_take_of_le index.le]
        push_cast
        ring
      · simp only [List.length_cons, flatMap_size, List.length_take_of_le index.le, putBigEndian16, List.length_nil]
        push_cast
        ring
    have entry : registers.getD i 0 = registers[i] := by simp [index]
    rw [found, Except.ok_bind, entry]
    exact bigEndian16_put registers[i] []
  rw [Except.mapM_ok each]
  congr 1
  apply List.ext_getElem
  · simp
  · intro i _ index
    simp [index]

/-- The layout of a read response. -/
def responseFrame (serial : BitVec 32) (sequence : BitVec 16) (metadata : List Byte) (slave : Byte)
    (registers : List Register) : List Byte :=
  let message := slave :: readHoldingFunction :: BitVec.ofNat 8 (2 * registers.length) ::
    registers.flatMap putBigEndian16
  buildFrame v5ResponseControl serial sequence
    (0x02 :: 0x01 :: metadata ++ (message ++ putLittleEndian16 (crc16 message)))

/-- What the parser checks of a frame with fields. -/
theorem accepts_iff (f : ResponseFields) (serial : BitVec 32) (sequence : BitVec 16) (slave : Byte)
    (count : BitVec 16) (registers : List Register) :
    parseReadResponse f.frame serial sequence slave count = .ok registers ↔
      f.first = v5Start ∧ f.last = v5End ∧ (f.len1 ++ f.len0 : BitVec 16).toNat = f.payload.length ∧
      (f.con1 ++ f.con0 : BitVec 16) = v5ResponseControl ∧ additiveChecksum f.body = f.checksum ∧
      f.seq0 = sequence.setWidth 8 ∧ (f.ser3 ++ f.ser2 ++ f.ser1 ++ f.ser0 : BitVec 32) = serial ∧
      f.type = 0x02 ∧ f.status = 0x01 ∧ (f.crc1 ++ f.crc0 : BitVec 16) = crc16 f.message ∧ f.slave = slave ∧
      f.function = readHoldingFunction ∧ (0 < registers.length ∧ registers.length ≤ maxReadRegisters) ∧
      f.code.toNat = 2 * registers.length ∧ count.toNat = registers.length ∧
      registers.flatMap putBigEndian16 = f.data := by
  have sizes : f.frame.length = f.payload.length + 13 ∧ f.payload.length = f.data.length + 19 := by
    rw [frame_size, body_size, payload_size, modbus_size]
    omega
  have message := modbus_size f
  simp only [parse_fields, reject_bind_ok, not_or, not_not, not_lt]
  constructor
  · rintro ⟨-, ⟨first, last⟩, length, control, checksum, ⟨sequenceByte, serialBytes⟩, ⟨type, status⟩, crc, slaveByte,
      -, -, function, ⟨some, even, bound⟩, extent, same, read⟩
    obtain ⟨own, size, data⟩ := exists_registers (by omega : f.data.length = 2 * (f.code.toNat / 2))
    have found := read_registers f data
    rw [size, read] at found
    obtain rfl := Except.ok.inj found
    refine ⟨first, last, ?_, control, checksum, sequenceByte, serialBytes, type, status, crc, slaveByte, function,
      ⟨by omega, by omega⟩, by omega, by omega, data⟩
    simp only [v5HeaderSize, v5TrailerSize] at length
    omega
  · rintro ⟨first, last, length, control, checksum, sequenceByte, serialBytes, type, status, crc, slaveByte, function,
      ⟨some, bound⟩, code, same, data⟩
    have extent : f.data.length = 2 * registers.length := by rw [← data, flatMap_size]
    refine ⟨by omega, ⟨first, last⟩, ?_, control, checksum, ⟨sequenceByte, serialBytes⟩, ⟨type, status⟩, crc,
      slaveByte, ?_, ?_, function, ⟨by omega, by omega, by omega⟩, by omega, by omega, ?_⟩
    · simp only [v5HeaderSize, v5TrailerSize]
      omega
    · rw [function]
      exact fun exception => absurd exception.1 (by decide)
    · rw [function]
      decide
    · have half : f.code.toNat / 2 = registers.length := by omega
      rw [half]
      exact read_registers f data

private theorem low_byte (word : BitVec 16) : byteFrom word 0 = word.setWidth 8 := by
  apply BitVec.eq_of_toNat_eq
  simp [byteFrom]

/-- The fields of a read response. -/
private def responseFields (serial : BitVec 32) (sequence : BitVec 16) (metadata : List Byte)
    (size : metadata.length = 12) (slave : Byte) (registers : List Register) : ResponseFields :=
  let code := BitVec.ofNat 8 (2 * registers.length)
  let data := registers.flatMap putBigEndian16
  let crc := crc16 (slave :: readHoldingFunction :: code :: data)
  let length := BitVec.ofNat 16 (2 * registers.length + 19)
  let body := putLittleEndian16 length ++ putLittleEndian16 v5ResponseControl ++ putLittleEndian16 sequence ++
    putLittleEndian32 serial ++ 0x02 :: 0x01 :: (metadata ++ slave :: readHoldingFunction :: code :: data ++
    putLittleEndian16 crc)
  { first := v5Start, len0 := byteFrom length 0, len1 := byteFrom length 8
    con0 := byteFrom v5ResponseControl 0, con1 := byteFrom v5ResponseControl 8
    seq0 := byteFrom sequence 0, seq1 := byteFrom sequence 8
    ser0 := byteFrom serial 0, ser1 := byteFrom serial 8, ser2 := byteFrom serial 16, ser3 := byteFrom serial 24
    type := 0x02, status := 0x01, metadata, metadata_length := size, slave, function := readHoldingFunction, code, data
    crc0 := byteFrom crc 0, crc1 := byteFrom crc 8, checksum := additiveChecksum body, last := v5End }

private theorem frame_responseFields (serial : BitVec 32) (sequence : BitVec 16) (metadata : List Byte)
    (size : metadata.length = 12) (slave : Byte) (registers : List Register) :
    (responseFields serial sequence metadata size slave registers).frame =
      responseFrame serial sequence metadata slave registers := by
  have length (message : List Byte) (crc : BitVec 16) (extent : message.length = 2 * registers.length + 3) :
      (0x02 :: 0x01 :: metadata ++ (message ++ putLittleEndian16 crc)).length = 2 * registers.length + 19 := by
    simp only [List.cons_append, List.length_cons, List.length_append, size, extent, putLittleEndian16, List.length_nil]
    omega
  rw [responseFrame, buildFrame, length _ _ (by simp only [List.length_cons, flatMap_size])]
  simp [responseFields, ResponseFields.frame, ResponseFields.body, ResponseFields.payload, ResponseFields.modbus,
    ResponseFields.message, putLittleEndian16, putLittleEndian32]

/-- A frame in the layout is parsed. -/
theorem parse_responseFrame (serial : BitVec 32) (sequence expected : BitVec 16) {metadata : List Byte}
    (size : metadata.length = 12) (slave : Byte) {registers : List Register} (some : 1 ≤ registers.length)
    (bound : registers.length ≤ maxReadRegisters) {count : BitVec 16} (same : count.toNat = registers.length)
    (low : sequence.setWidth 8 = expected.setWidth 8) :
    parseReadResponse (responseFrame serial sequence metadata slave registers) serial expected slave count =
      .ok registers := by
  rw [← frame_responseFields serial sequence metadata size slave registers, accepts_iff]
  simp only [maxReadRegisters] at bound
  have code : (BitVec.ofNat 8 (2 * registers.length)).toNat = 2 * registers.length := by
    rw [BitVec.toNat_ofNat]
    omega
  refine ⟨rfl, rfl, ?_, word16_eq _, ?_, (low_byte sequence).trans low, word32_eq _, rfl, rfl, word16_eq _, rfl, rfl,
    ⟨some, bound⟩, code, same, rfl⟩
  · rw [payload_size, modbus_size]
    simp only [responseFields, flatMap_size]
    rw [word16_eq, BitVec.toNat_ofNat]
    omega
  · simp [responseFields, ResponseFields.body, ResponseFields.payload, ResponseFields.modbus, ResponseFields.message,
      putLittleEndian16, putLittleEndian32]

theorem long_of_parse {frame : List Byte} {serial : BitVec 32} {sequence : BitVec 16} {slave : Byte} {count : BitVec 16}
    {registers : List Register} (parsed : parseReadResponse frame serial sequence slave count = .ok registers) :
    32 ≤ frame.length := by
  rw [parseReadResponse, reject_bind_ok] at parsed
  exact not_lt.mp parsed.1

/-- Every frame that is parsed is in the layout. -/
theorem responseFrame_of_parse {frame : List Byte} {serial : BitVec 32} {sequence : BitVec 16} {slave : Byte}
    {count : BitVec 16} {registers : List Register}
    (parsed : parseReadResponse frame serial sequence slave count = .ok registers) :
    1 ≤ registers.length ∧ registers.length ≤ maxReadRegisters ∧ count.toNat = registers.length ∧
      ∃ (high : Byte) (metadata : List Byte), metadata.length = 12 ∧
        frame = responseFrame serial (high ++ sequence.setWidth 8) metadata slave registers := by
  obtain ⟨f, rfl⟩ := exists_fields (long_of_parse parsed)
  obtain ⟨first, last, length, control, checksum, sequenceByte, serialBytes, type, status, crc, slaveByte, function,
    ⟨some, bound⟩, code, same, data⟩ := (accepts_iff f serial sequence slave count registers).mp parsed
  refine ⟨some, bound, same, f.seq1, f.metadata, f.metadata_length, ?_⟩
  have payload : 0x02 :: 0x01 :: f.metadata ++ (f.message ++ [f.crc0, f.crc1]) = f.payload := by
    rw [← type, ← status]
    rfl
  have word : BitVec.ofNat 16 f.payload.length = f.len1 ++ f.len0 := by
    rw [← length, BitVec.ofNat_toNat, BitVec.setWidth_eq]
  have message : slave :: readHoldingFunction :: BitVec.ofNat 8 (2 * registers.length) ::
      registers.flatMap putBigEndian16 = f.message := by
    rw [← slaveByte, ← function, ← code, BitVec.ofNat_toNat, BitVec.setWidth_eq, data]
    rfl
  rw [responseFrame, message]
  rw [← crc, putLittleEndian16_append, payload, buildFrame, word, ← control, ← sequenceByte, ← serialBytes]
  simp only [putLittleEndian16_append, putLittleEndian32_append, ← first, ← last]
  change _ = f.first :: f.body ++ [additiveChecksum f.body, f.last]
  rw [checksum]
  rfl

theorem parse_inRange (frame : List Byte) (serial : BitVec 32) (sequence : BitVec 16) (slave : Byte)
    (count : BitVec 16) : InRange (parseReadResponse frame serial sequence slave count) := by
  rcases lt_or_ge frame.length 32 with short | long
  · rw [parseReadResponse]
    apply inRange_reject
    intro enough
    exact absurd short enough
  · obtain ⟨f, rfl⟩ := exists_fields long
    rw [parse_fields]
    iterate 12 apply inRange_reject; intro _
    apply inRange_reject
    intro byteCount
    apply inRange_reject
    intro extent
    apply inRange_reject
    intro _
    rw [not_not, modbus_size] at extent
    obtain ⟨registers, size, data⟩ := exists_registers (by omega : f.data.length = 2 * (f.code.toNat / 2))
    rw [← size, read_registers f data]
    exact inRange_ok registers

/-- Parsing never leaves the frame and returns registers exactly for the frames that carry them in the
layout of a read response, so a response parses to the registers it was built from. -/
theorem read_response_codec (serial : BitVec 32) (sequence : BitVec 16) (slave : Byte) :
    (∀ frame count, InRange (parseReadResponse frame serial sequence slave count) ∧
      ∀ registers, parseReadResponse frame serial sequence slave count = .ok registers ↔
        1 ≤ registers.length ∧ registers.length ≤ maxReadRegisters ∧ count.toNat = registers.length ∧
          ∃ (high : Byte) (metadata : List Byte), metadata.length = 12 ∧
            frame = responseFrame serial (high ++ sequence.setWidth 8) metadata slave registers) ∧
    ∀ metadata : List Byte, metadata.length = 12 → ∀ registers : List Register, 1 ≤ registers.length →
      registers.length ≤ maxReadRegisters →
      parseReadResponse (responseFrame serial sequence metadata slave registers) serial sequence slave
        (BitVec.ofNat 16 registers.length) = .ok registers := by
  refine ⟨fun frame count => ⟨parse_inRange frame serial sequence slave count, fun registers => ?_⟩, ?_⟩
  · constructor
    · exact responseFrame_of_parse
    · rintro ⟨some, bound, same, high, metadata, size, rfl⟩
      apply parse_responseFrame serial _ sequence size slave some bound same
      exact BitVec.setWidth_append_eq_right
  · intro metadata size registers some bound
    apply parse_responseFrame serial sequence sequence size slave some bound _ rfl
    rw [BitVec.toNat_ofNat]
    simp only [maxReadRegisters] at bound
    omega

theorem read_response_fixture :
    parseReadResponse (responseFrame 123456789 7 (List.replicate 12 0) 1 [0x1234, 0xffff, 0]) 123456789 7 1 3 =
      .ok [0x1234, 0xffff, 0] :=
  (read_response_codec 123456789 7 1).2 (List.replicate 12 0) rfl [0x1234, 0xffff, 0] (by decide) (by decide)

example : responseFrame 123456789 7 (List.replicate 12 0) 1 [0x1234] =
    [0xa5, 0x15, 0x00, 0x10, 0x15, 0x07, 0x00, 0x15, 0xcd, 0x5b, 0x07, 0x02, 0x01, 0, 0, 0, 0, 0, 0, 0, 0, 0, 0, 0, 0,
      0x01, 0x03, 0x02, 0x12, 0x34, 0xb5, 0x33, 0xbc, 0x15] := by decide +kernel

end Helio.Solarman
