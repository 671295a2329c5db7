import Helio.Machine.Bytes

/-! # Solarman V5 frames

A frame wraps a Modbus message in a header with the length, control, sequence and serial, and a
trailer with an additive checksum. The parser takes untrusted bytes; every index and slice it uses is
checked here as the language checks it. Where the source skips an operand of `||`, it is read here
all the same, so that more could go out of range.
-/

namespace Helio.Solarman

/-- The errors of the package, and any other error by its text. -/
inductive ReadError where
  | malformedFrame (detail : String)
  | identityMismatch
  | unsupportedFunction (function : Byte)
  | modbusException (function code : Byte)
  | crc (got want : BitVec 16)
  | other (text : String)
deriving DecidableEq

abbrev Register := BitVec 16

abbrev Checked := Except (Fault ReadError)

def v5Start : Byte := 0xA5
def v5End : Byte := 0x15
def v5RequestControl : BitVec 16 := 0x4510
def v5ResponseControl : BitVec 16 := 0x1510
def v5HeaderSize : ℕ := 11
def v5TrailerSize : ℕ := 2
def requestMetadataSize : ℕ := 15
def responseMetadataSize : ℕ := 14
def readHoldingFunction : Byte := 0x03
def maxReadRegisters : ℕ := 125

/-- One bit of the Modbus CRC. -/
def crcShift (crc : BitVec 16) : BitVec 16 :=
  if crc &&& 1 ≠ 0 then crc >>> 1 ^^^ 0xA001 else crc >>> 1

def crc16 (data : List Byte) : BitVec 16 :=
  data.foldl (fun crc b => crcShift^[8] (crc ^^^ b.setWidth 16)) 0xFFFF

def additiveChecksum (data : List Byte) : Byte := data.foldl (· + ·) 0

def buildFrame (control : BitVec 16) (serial : BitVec 32) (sequence : BitVec 16) (payload : List Byte) : List Byte :=
  let body := putLittleEndian16 (BitVec.ofNat 16 payload.length) ++ putLittleEndian16 control ++
    putLittleEndian16 sequence ++ putLittleEndian32 serial ++ payload
  v5Start :: body ++ [additiveChecksum body, v5End]

def buildReadRequest (serial : BitVec 32) (sequence : BitVec 16) (slave : Byte) (start count : BitVec 16) :
    Except ReadError (List Byte) :=
  if count = 0 ∨ maxReadRegisters < count.toNat then
    .error (.malformedFrame ("register count " ++ toString count.toNat ++ " outside 1.." ++ toString maxReadRegisters))
  else
    let modbus := [slave, readHoldingFunction] ++ putBigEndian16 start ++ putBigEndian16 count
    let payload := 0x02 :: List.replicate (requestMetadataSize - 1) 0 ++ modbus ++ putLittleEndian16 (crc16 modbus)
    .ok (buildFrame v5RequestControl serial sequence payload)

def validateModbusCRC (frame : List Byte) : Checked Unit := do
  let want := crc16 (← slice frame 0 (frame.length - 2))
  let got ← littleEndian16 (← slice frame (frame.length - 2) frame.length)
  reject (got ≠ want) (.crc got want)

def parseReadResponse (frame : List Byte) (expectedSerial : BitVec 32) (expectedSequence : BitVec 16)
    (expectedSlave : Byte) (expectedCount : BitVec 16) : Checked (List Register) := do
  let minimumSize := v5HeaderSize + responseMetadataSize + 5 + v5TrailerSize
  reject (frame.length < minimumSize) (.malformedFrame "frame too short")
  let first ← byteAt frame 0
  let last ← byteAt frame (frame.length - 1)
  reject (first ≠ v5Start ∨ last ≠ v5End) (.malformedFrame "bad frame marker")
  let payloadLength ← littleEndian16 (← slice frame 1 3)
  reject ((payloadLength.toNat : ℤ) ≠ (frame.length : ℤ) - v5HeaderSize - v5TrailerSize)
    (.malformedFrame "payload length mismatch")
  let control ← littleEndian16 (← slice frame 3 5)
  reject (control ≠ v5ResponseControl) (.malformedFrame "invalid response control")
  let body ← slice frame 1 (frame.length - 2)
  let checksum ← byteAt frame (frame.length - 2)
  reject (additiveChecksum body ≠ checksum) (.malformedFrame "frame checksum mismatch")
  let sequence ← byteAt frame 5
  let serial ← littleEndian32 (← slice frame 7 11)
  reject (sequence ≠ expectedSequence.setWidth 8 ∨ serial ≠ expectedSerial) .identityMismatch
  let payload ← slice frame v5HeaderSize (frame.length - v5TrailerSize)
  let type ← byteAt payload 0
  let status ← byteAt payload 1
  reject (type ≠ 0x02 ∨ status ≠ 0x01) (.malformedFrame "invalid response metadata")
  let modbus ← slice payload responseMetadataSize payload.length
  validateModbusCRC modbus
  let function ← byteAt modbus 1
  let slave ← byteAt modbus 0
  reject (slave ≠ expectedSlave) .identityMismatch
  let code ← byteAt modbus 2
  reject (function = readHoldingFunction ||| 0x80 ∧ modbus.length ≠ 5) (.malformedFrame "invalid exception length")
  reject (function = readHoldingFunction ||| 0x80) (.modbusException (function &&& ~~~ 0x80) code)
  reject (function ≠ readHoldingFunction) (.unsupportedFunction function)
  let byteCount := code.toNat
  reject (byteCount = 0 ∨ byteCount % 2 ≠ 0 ∨ maxReadRegisters < byteCount / 2)
    (.malformedFrame ("invalid Modbus byte count " ++ toString byteCount))
  reject (modbus.length ≠ 3 + byteCount + 2) (.malformedFrame "Modbus response length mismatch")
  reject (byteCount ≠ expectedCount.toNat * 2) .identityMismatch
  (List.range (byteCount / 2)).mapM fun (i : ℕ) => do
    bigEndian16 (← slice modbus (3 + i * 2) (5 + i * 2))

end Helio.Solarman
