import Helio.Model.Client
import Helio.Soundness.ResponseFrame

/-! # One response behind

A response that does not answer the request is an identity mismatch, and the client keeps the
connection over it. When one extra response is waiting, every call reads the answer to the call before
it, and no answer puts that right: the calls return their own answers again exactly when the connection
is dropped under some request, as a broken connection or a context that ends meanwhile make it.
-/

namespace Helio.Solarman

/-- A whole frame is read as it was sent. -/
theorem readFrame_whole {bytes : List Byte} (whole : WholeFrame bytes) (ended : String) (rest : List Byte) :
    readFrame ended (bytes ++ rest) = .ok (bytes, rest) := by
  obtain ⟨size, bound⟩ := whole
  have header : 13 ≤ bytes.length := by
    rw [← size]
    simp only [v5HeaderSize, v5TrailerSize]
    omega
  have declared : ((bytes ++ rest).getD 2 0 ++ (bytes ++ rest).getD 1 0 : BitVec 16) =
      bytes.getD 2 0 ++ bytes.getD 1 0 := by
    simp only [List.getD_eq_getElem?_getD]
    rw [List.getElem?_append_left (by omega), List.getElem?_append_left (by omega)]
  have room : ¬ (bytes ++ rest).length < v5HeaderSize := by
    rw [List.length_append]
    simp only [v5HeaderSize]
    omega
  have enough : ¬ (bytes ++ rest).length < bytes.length := by
    rw [List.length_append]
    omega
  simp only [readFrame, declared, size]
  rw [if_neg room, if_neg (by omega), if_neg enough, List.take_left' rfl, List.drop_left' rfl]

/-- One round of the loop of `RoundTrip`. -/
theorem receive_whole {bytes : List Byte} (whole : WholeFrame bytes) (ended : String) (now : ℤ) (rest : List Byte)
    (written : List (List Byte)) :
    receive ended now none ⟨bytes ++ rest, written⟩ =
      if isLoggerProtocolFrame bytes then receive ended now none ⟨rest, written ++ [buildLoggerTimeResponse bytes now]⟩
      else (.ok bytes, ⟨rest, written⟩) := by
  rw [receive.eq_def, if_neg (by simp)]
  split
  · next e failed =>
    rw [readFrame_whole whole] at failed
    cases failed
  · next frame after read =>
    rw [readFrame_whole whole] at read
    cases read
    rfl

/-- The fields of an undamaged response of a logger: registers or a Modbus exception. -/
structure ResponseFields.Intact (f : ResponseFields) (serial : BitVec 32) : Prop where
  first : f.first = v5Start
  last : f.last = v5End
  length : (f.len1 ++ f.len0 : BitVec 16).toNat = f.payload.length
  control : (f.con1 ++ f.con0 : BitVec 16) = v5ResponseControl
  checksum : additiveChecksum f.body = f.checksum
  serial : (f.ser3 ++ f.ser2 ++ f.ser1 ++ f.ser0 : BitVec 32) = serial
  type : f.type = 0x02
  status : f.status = 0x01
  crc : (f.crc1 ++ f.crc0 : BitVec 16) = crc16 f.message
  message : (f.function = readHoldingFunction ∧ f.data.length = f.code.toNat ∧ f.code.toNat ≠ 0 ∧
      f.code.toNat % 2 = 0 ∧ f.code.toNat / 2 ≤ maxReadRegisters) ∨
    (f.function = readHoldingFunction ||| 0x80 ∧ f.data = [])

section Intact

variable {f : ResponseFields} {serial : BitVec 32}

private theorem intact_sizes (intact : f.Intact serial) :
    f.frame.length = f.payload.length + 13 ∧ f.payload.length = f.data.length + 19 ∧ f.data.length ≤ 250 := by
  have data : f.data.length ≤ 250 := by
    rcases intact.message with ⟨-, extent, -, even, bound⟩ | ⟨-, empty⟩
    · simp only [maxReadRegisters] at bound
      omega
    · rw [empty]
      exact Nat.zero_le _
  rw [frame_size, body_size, payload_size, modbus_size]
  omega

private theorem intact_length (intact : f.Intact serial) :
    ¬ f.frame.length < 32 ∧
      ¬ ((f.len1 ++ f.len0 : BitVec 16).toNat : ℤ) ≠ (f.frame.length : ℤ) - v5HeaderSize - v5TrailerSize := by
  obtain ⟨frame, payload, -⟩ := intact_sizes intact
  have length := intact.length
  simp only [v5HeaderSize, v5TrailerSize]
  omega

private theorem intact_markers (intact : f.Intact serial) : ¬ (f.first ≠ v5Start ∨ f.last ≠ v5End) := by
  rw [intact.first, intact.last]
  rintro (differs | differs) <;> exact differs rfl

/-- An undamaged response to another request is an identity mismatch. -/
theorem parse_other (intact : f.Intact serial) {sequence : BitVec 16} (other : f.seq0 ≠ sequence.setWidth 8)
    (slave : Byte) (count : BitVec 16) :
    parseReadResponse f.frame serial sequence slave count = .error (.failed .identityMismatch) := by
  obtain ⟨long, length⟩ := intact_length intact
  rw [parse_fields, reject_pass long, reject_pass (intact_markers intact), reject_pass length,
    reject_pass (not_not.mpr intact.control), reject_pass (not_not.mpr intact.checksum)]
  exact reject_stop (Or.inl other)

/-- No undamaged response makes the client drop the connection. -/
theorem parse_intact (intact : f.Intact serial) (sequence : BitVec 16) (slave : Byte) (count : BitVec 16) :
    (∃ registers, parseReadResponse f.frame serial sequence slave count = .ok registers) ∨
      ∃ e, parseReadResponse f.frame serial sequence slave count = .error (.failed e) ∧ retryable e = false := by
  rcases eq_or_ne f.seq0 (sequence.setWidth 8) with own | other
  · obtain ⟨long, length⟩ := intact_length intact
    have identity : ¬ (f.seq0 ≠ sequence.setWidth 8 ∨
        (f.ser3 ++ f.ser2 ++ f.ser1 ++ f.ser0 : BitVec 32) ≠ serial) := by
      simp [own, intact.serial]
    have metadata : ¬ (f.type ≠ 0x02 ∨ f.status ≠ 0x01) := by simp [intact.type, intact.status]
    rw [parse_fields, reject_pass long, reject_pass (intact_markers intact), reject_pass length,
      reject_pass (not_not.mpr intact.control), reject_pass (not_not.mpr intact.checksum), reject_pass identity,
      reject_pass metadata, reject_pass (not_not.mpr intact.crc)]
    rcases eq_or_ne f.slave slave with asked | stranger
    · rw [reject_pass (not_not.mpr asked)]
      rcases intact.message with ⟨function, extent, some, even, bound⟩ | ⟨function, empty⟩
      · have reads : ¬ f.function = readHoldingFunction ||| 0x80 := by
          rw [function]
          decide
        have byteCount : ¬ (f.code.toNat = 0 ∨ f.code.toNat % 2 ≠ 0 ∨ maxReadRegisters < f.code.toNat / 2) := by
          omega
        have size : ¬ f.modbus.length ≠ 3 + f.code.toNat + 2 := by
          rw [modbus_size]
          omega
        rw [reject_pass (fun exception => reads exception.1), reject_pass reads, reject_pass (not_not.mpr function),
          reject_pass byteCount, reject_pass size]
        rcases eq_or_ne f.code.toNat (count.toNat * 2) with counted | miscounted
        · obtain ⟨registers, many, data⟩ := exists_registers (by omega : f.data.length = 2 * (f.code.toNat / 2))
          rw [reject_pass (not_not.mpr counted), ← many]
          exact Or.inl ⟨registers, read_registers f data⟩
        · exact Or.inr ⟨.identityMismatch, reject_stop miscounted, rfl⟩
      · have size : ¬ (f.function = readHoldingFunction ||| 0x80 ∧ f.modbus.length ≠ 5) := by
          rw [modbus_size, empty]
          simp
        rw [reject_pass size]
        exact Or.inr ⟨.modbusException _ _, reject_stop function, rfl⟩
    · exact Or.inr ⟨.identityMismatch, reject_stop stranger, rfl⟩
  · exact Or.inr ⟨.identityMismatch, parse_other intact other slave count, rfl⟩

private theorem intact_whole (intact : f.Intact serial) : WholeFrame f.frame := by
  obtain ⟨frame, payload, data⟩ := intact_sizes intact
  have declared : (f.frame.getD 2 0 ++ f.frame.getD 1 0 : BitVec 16).toNat = f.payload.length := intact.length
  rw [WholeFrame, declared]
  simp only [v5HeaderSize, v5TrailerSize, maxFrameSize]
  omega

private theorem intact_response (intact : f.Intact serial) : isLoggerProtocolFrame f.frame = false := by
  have control : [f.con0, f.con1] = [0x10, 0x15] := by
    rw [← putLittleEndian16_append, intact.control]
    decide
  have code : f.frame.getD 4 0 = 0x15 := (List.cons.inj (List.cons.inj control).2).1
  rw [isLoggerProtocolFrame, code, Bool.and_eq_false_iff]
  exact Or.inr (by decide)

theorem receive_intact (intact : f.Intact serial) (ended : String) (now : ℤ) (rest : List Byte)
    (written : List (List Byte)) :
    receive ended now none ⟨f.frame ++ rest, written⟩ = (.ok f.frame, ⟨rest, written⟩) := by
  rw [receive_whole (intact_whole intact), intact_response intact]
  rfl

end Intact

/-- A frame in the layout of a read response is undamaged. -/
theorem responseFrame_intact (serial : BitVec 32) (sequence : BitVec 16) {metadata : List Byte}
    (size : metadata.length = 12) (slave : Byte) {registers : List Register} (some : 1 ≤ registers.length)
    (bound : registers.length ≤ maxReadRegisters) :
    ∃ f : ResponseFields, f.Intact serial ∧ f.frame = responseFrame serial sequence metadata slave registers ∧
      f.seq0 = sequence.setWidth 8 := by
  have same : (BitVec.ofNat 16 registers.length).toNat = registers.length := by
    rw [BitVec.toNat_ofNat]
    simp only [maxReadRegisters] at bound
    omega
  have parsed := parse_responseFrame serial sequence sequence size slave some bound same rfl
  obtain ⟨f, frame⟩ := exists_fields (long_of_parse parsed)
  rw [← frame] at parsed
  obtain ⟨first, last, length, control, checksum, sequenceByte, serialBytes, type, status, crc, -, function, -, code, -,
    data⟩ := (accepts_iff f serial sequence slave _ registers).mp parsed
  refine ⟨f, ⟨first, last, length, control, checksum, serialBytes, type, status, crc, Or.inl ⟨function, ?_⟩⟩, frame,
    sequenceByte⟩
  rw [← data, flatMap_size, code]
  omega

/-- What drops the connection under the first request of a call: it is broken, or the context of the call
ends before the response is read. -/
inductive Disturbance where
  | broken (text : String)
  | ends (text : String)

/-- A call and what the logger answers. -/
structure Exchange where
  call : Call
  answer : List Register
  counted : call.count.toNat = answer.length
  nonempty : 1 ≤ answer.length
  bound : answer.length ≤ maxReadRegisters
  high : Byte
  metadata : List Byte
  metadata_length : metadata.length = 12

namespace Exchange

/-- The logger's answer to a request with a sequence byte. -/
def frame (exchange : Exchange) (serial : BitVec 32) (sequence : Byte) : List Byte :=
  responseFrame serial (exchange.high ++ sequence) exchange.metadata exchange.call.slave exchange.answer

/-- The logger answers once. -/
def answered (exchange : Exchange) (serial : BitVec 32) (sequence : Byte) : Surroundings :=
  { arrived := exchange.frame serial sequence }

/-- The call, where every request that is written is answered once. -/
def run (exchange : Exchange) (serial : BitVec 32) (disturbance : Option Disturbance) (client : Client) :
    Except ReadError (List Register) × Client :=
  let sequence := nextSequence client.sequence
  let answered := exchange.answered serial sequence
  let again := exchange.answered serial (nextSequence sequence)
  match disturbance with
  | none => readHoldingRegisters serial answered again exchange.call client
  | some (.broken text) => readHoldingRegisters serial { writeFails := some text } again exchange.call client
  | some (.ends text) =>
    readHoldingRegisters serial { answered with reads := some 0, ended := text } { again with expired := some text }
      exchange.call client

end Exchange

/-- The client after the first calls of a sequence. -/
def clientAfter (serial : BitVec 32) (exchanges : ℕ → Exchange) (disturbed : ℕ → Option Disturbance) (client : Client) :
    ℕ → Client
  | 0 => client
  | n + 1 => ((exchanges n).run serial (disturbed n) (clientAfter serial exchanges disturbed client n)).2

def resultOf (serial : BitVec 32) (exchanges : ℕ → Exchange) (disturbed : ℕ → Option Disturbance) (client : Client)
    (n : ℕ) : Except ReadError (List Register) :=
  ((exchanges n).run serial (disturbed n) (clientAfter serial exchanges disturbed client n)).1

section Calls

variable {serial : BitVec 32} {exchange : Exchange} {client : Client}

private theorem request_built (exchange : Exchange) (serial : BitVec 32) (sequence : BitVec 16) :
    ∃ request, buildReadRequest serial sequence exchange.call.slave exchange.call.start exchange.call.count =
      .ok request := by
  have valid : ¬ (exchange.call.count = 0 ∨ maxReadRegisters < exchange.call.count.toNat) := by
    have nonempty := exchange.nonempty
    have bound := exchange.bound
    have counted := exchange.counted
    rintro (none | many)
    · rw [none] at counted
      simp at counted
      omega
    · omega
  rw [buildReadRequest, if_neg valid]
  exact ⟨_, rfl⟩

/-- An attempt that sends its request is judged by the round trip. -/
private theorem attempt_eq (exchange : Exchange) (serial : BitVec 32) (client : Client) {world : Surroundings}
    (current : world.expired = none) (dialled : world.dialFails = none) :
    ∃ request, attempt serial world exchange.call client =
      let (response, after) := roundTrip world request (client.conn.getD {})
      match judge serial (nextSequence client.sequence) exchange.call response with
      | .returned result => (.returned result, ⟨nextSequence client.sequence, some after⟩)
      | .again e => (.again e, ⟨nextSequence client.sequence, none⟩) := by
  obtain ⟨request, built⟩ := request_built exchange serial ((nextSequence client.sequence).setWidth 16)
  refine ⟨request, ?_⟩
  rcases client with ⟨sequence, - | conn⟩
  · rcases verdict : judge serial (nextSequence sequence) exchange.call (roundTrip world request {}).1 with _ | _
      <;> simp only [attempt, current, built, dialled, Option.getD_none, verdict]
  · rcases verdict : judge serial (nextSequence sequence) exchange.call (roundTrip world request conn).1 with _ | _
      <;> simp only [attempt, current, built, Option.getD_some, verdict]

/-- An attempt whose stream begins with an undamaged response. -/
private theorem attempt_reads {f : ResponseFields} (intact : f.Intact serial) {world : Surroundings} {rest : List Byte}
    (current : world.expired = none) (dialled : world.dialFails = none) (writes : world.writeFails = none)
    (lasts : world.reads = none) (stream : (client.conn.getD {}).unread ++ world.arrived = f.frame ++ rest)
    {result : Except ReadError (List Register)}
    (judged : judge serial (nextSequence client.sequence) exchange.call (.ok f.frame) = .returned result) :
    ∃ written, attempt serial world exchange.call client =
      (.returned result, ⟨nextSequence client.sequence, some ⟨rest, written⟩⟩) := by
  obtain ⟨request, judges⟩ := attempt_eq exchange serial client current dialled
  have trip : roundTrip world request (client.conn.getD {}) =
      (.ok f.frame, ⟨rest, (client.conn.getD {}).written ++ [request]⟩) := by
    rw [roundTrip, writes, lasts]
    change receive _ _ _ ⟨(client.conn.getD {}).unread ++ world.arrived, _⟩ = _
    rw [stream, receive_intact intact]
  rw [trip] at judges
  simp only [judged] at judges
  exact ⟨_, judges⟩

private theorem attempt_broken (exchange : Exchange) (serial : BitVec 32) (client : Client) (text : String) :
    ∃ e, attempt serial { writeFails := some text } exchange.call client =
      (.again e, ⟨nextSequence client.sequence, none⟩) := by
  have broken : (⟨none, none, some text, [], none, "i/o timeout", 0⟩ : Surroundings).expired = none := rfl
  obtain ⟨request, judges⟩ := attempt_eq exchange serial client broken rfl
  exact ⟨_, judges⟩

/-- A context that ends in the round trip drops the connection, whatever waits on it. -/
private theorem attempt_ended (exchange : Exchange) (serial : BitVec 32) (client : Client) (arrived : List Byte)
    (text : String) : attempt serial { arrived, reads := some 0, ended := text } exchange.call client =
      (.again (.other text), ⟨nextSequence client.sequence, none⟩) := by
  have current : (⟨none, none, none, arrived, some 0, text, 0⟩ : Surroundings).expired = none := rfl
  obtain ⟨request, judges⟩ := attempt_eq exchange serial client current rfl
  rw [roundTrip, receive.eq_def, if_pos rfl] at judges
  exact judges

theorem low_of_wide (sequence : Byte) : (sequence.setWidth 16).setWidth 8 = sequence := by
  rw [BitVec.setWidth_setWidth_of_le _ (by omega), BitVec.setWidth_eq]

private theorem judge_other {f : ResponseFields} (intact : f.Intact serial) {sequence : Byte} (other : f.seq0 ≠ sequence)
    (call : Call) : judge serial sequence call (.ok f.frame) = .returned (.error .identityMismatch) := by
  have mismatch := parse_other intact (by rwa [low_of_wide]) call.slave call.count
  simp only [judge, Except.ok_bind, mismatch]
  rfl

private theorem judge_intact {f : ResponseFields} (intact : f.Intact serial) (sequence : Byte) (call : Call) :
    ∃ result, judge serial sequence call (.ok f.frame) = .returned result := by
  rcases parse_intact intact (sequence.setWidth 16) call.slave call.count with ⟨registers, parsed⟩ | ⟨e, failed, stays⟩
  · refine ⟨.ok registers, ?_⟩
    simp only [judge, Except.ok_bind, parsed]
    rfl
  · refine ⟨.error e, ?_⟩
    simp only [judge, Except.ok_bind, failed, Checked.result, stays]
    rfl

private theorem judge_answer (exchange : Exchange) (serial : BitVec 32) (sequence : Byte) :
    judge serial sequence exchange.call (.ok (exchange.frame serial sequence)) = .returned (.ok exchange.answer) := by
  have parsed := parse_responseFrame serial (exchange.high ++ sequence) (sequence.setWidth 16) exchange.metadata_length
    exchange.call.slave exchange.nonempty exchange.bound exchange.counted
    (by rw [low_of_wide]; exact BitVec.setWidth_append_eq_right)
  simp only [judge, Except.ok_bind, Exchange.frame, parsed]
  rfl

private theorem exchange_intact (exchange : Exchange) (serial : BitVec 32) (sequence : Byte) :
    ∃ f : ResponseFields, f.Intact serial ∧ f.frame = exchange.frame serial sequence ∧ f.seq0 = sequence := by
  obtain ⟨f, intact, frame, low⟩ := responseFrame_intact serial (exchange.high ++ sequence) exchange.metadata_length
    exchange.call.slave exchange.nonempty exchange.bound
  exact ⟨f, intact, frame, low.trans BitVec.setWidth_append_eq_right⟩

/-- An attempt on a connection with nothing left over reads its own answer. -/
private theorem attempt_level (level : (client.conn.getD {}).unread = []) :
    ∃ written, attempt serial (exchange.answered serial (nextSequence client.sequence)) exchange.call client =
      (.returned (.ok exchange.answer), ⟨nextSequence client.sequence, some ⟨[], written⟩⟩) := by
  obtain ⟨f, intact, frame, -⟩ := exchange_intact exchange serial (nextSequence client.sequence)
  have stream : (client.conn.getD {}).unread ++ (exchange.answered serial (nextSequence client.sequence)).arrived =
      f.frame ++ [] := by
    rw [level, frame, List.append_nil]
    rfl
  apply attempt_reads intact rfl rfl rfl rfl stream
  rw [frame, judge_answer]

/-- A broken connection is replaced by one that is level. -/
private theorem run_broken (text : String) :
    (exchange.run serial (some (.broken text)) client).1 = .ok exchange.answer ∧
      ((exchange.run serial (some (.broken text)) client).2.conn.getD {}).unread = [] := by
  obtain ⟨e, first⟩ := attempt_broken exchange serial client text
  obtain ⟨written, second⟩ := @attempt_level serial exchange ⟨nextSequence client.sequence, none⟩ rfl
  have run : exchange.run serial (some (.broken text)) client =
      (.ok exchange.answer, ⟨nextSequence (nextSequence client.sequence), some ⟨[], written⟩⟩) := by
    simp only [Exchange.run, readHoldingRegisters, first, second]
  rw [run]
  exact ⟨rfl, rfl⟩

/-- A context that ends leaves no connection, and the call fails with it. -/
private theorem run_ended (exchange : Exchange) (serial : BitVec 32) (client : Client) (text : String) :
    exchange.run serial (some (.ends text)) client =
      (.error (.other text), ⟨nextSequence client.sequence, none⟩) := by
  have first := attempt_ended exchange serial client (exchange.frame serial (nextSequence client.sequence)) text
  simp only [Exchange.run, Exchange.answered, readHoldingRegisters, first]
  rfl

/-- After a disturbed call nothing is left over. -/
private theorem run_disturbed (disturbance : Disturbance) :
    ((exchange.run serial (some disturbance) client).2.conn.getD {}).unread = [] := by
  cases disturbance with
  | broken text => exact (run_broken text).2
  | ends text =>
    rw [run_ended]
    rfl

/-- A call on a level connection returns its answer unless its context ends, and leaves it level. -/
private theorem run_level (level : (client.conn.getD {}).unread = []) (disturbance : Option Disturbance) :
    ((∀ text, disturbance ≠ some (.ends text)) → (exchange.run serial disturbance client).1 = .ok exchange.answer) ∧
      ((exchange.run serial disturbance client).2.conn.getD {}).unread = [] := by
  rcases disturbance with - | text | text
  · obtain ⟨written, first⟩ := @attempt_level serial exchange client level
    have run : exchange.run serial none client =
        (.ok exchange.answer, ⟨nextSequence client.sequence, some ⟨[], written⟩⟩) := by
      simp only [Exchange.run, readHoldingRegisters, first]
    rw [run]
    exact ⟨fun _ => rfl, rfl⟩
  · exact ⟨fun _ => (run_broken text).1, (run_broken text).2⟩
  · exact ⟨fun lasts => absurd rfl (lasts text), run_disturbed (.ends text)⟩

/-- A call that finds a response waiting leaves its own answer waiting. -/
private theorem run_behind {f : ResponseFields} (intact : f.Intact serial) {written : List (List Byte)}
    (waiting : client.conn = some ⟨f.frame, written⟩) :
    (f.seq0 ≠ nextSequence client.sequence → (exchange.run serial none client).1 = .error .identityMismatch) ∧
      ∃ g : ResponseFields, g.Intact serial ∧ g.seq0 = (exchange.run serial none client).2.sequence ∧
        ∃ written, (exchange.run serial none client).2.conn = some ⟨g.frame, written⟩ := by
  obtain ⟨g, left, frame, low⟩ := exchange_intact exchange serial (nextSequence client.sequence)
  obtain ⟨result, judged⟩ := judge_intact intact (nextSequence client.sequence) exchange.call
  have stream : (client.conn.getD {}).unread ++ (exchange.answered serial (nextSequence client.sequence)).arrived =
      f.frame ++ g.frame := by
    rw [waiting, frame]
    rfl
  obtain ⟨sent, first⟩ := attempt_reads intact rfl rfl rfl rfl stream judged
  have run : exchange.run serial none client =
      (result, ⟨nextSequence client.sequence, some ⟨g.frame, sent⟩⟩) := by
    simp only [Exchange.run, readHoldingRegisters, first]
  rw [run]
  refine ⟨fun other => ?_, g, left, low, sent, rfl⟩
  rw [judge_other intact other] at judged
  exact (Verdict.returned.inj judged).symm

private theorem nextSequence_ne (sequence : Byte) : nextSequence sequence ≠ sequence := by
  unfold nextSequence
  split
  · next wraps =>
    rintro rfl
    revert wraps
    decide
  · intro same
    simp at same

/-- While nothing drops the connection, the answer to the last call is waiting. -/
private theorem clientAfter_behind {f : ResponseFields} (intact : f.Intact serial) {written : List (List Byte)}
    (waiting : client.conn = some ⟨f.frame, written⟩) (exchanges : ℕ → Exchange) {disturbed : ℕ → Option Disturbance}
    (quiet : ∀ n, disturbed n = none) (n : ℕ) :
    ∃ g : ResponseFields, g.Intact serial ∧ g.seq0 = (clientAfter serial exchanges disturbed client (n + 1)).sequence ∧
      ∃ written, (clientAfter serial exchanges disturbed client (n + 1)).conn = some ⟨g.frame, written⟩ := by
  induction n with
  | zero =>
    rw [clientAfter, quiet]
    exact (run_behind intact waiting).2
  | succ n ih =>
    obtain ⟨g, left, -, sent, conn⟩ := ih
    rw [clientAfter, quiet]
    exact (run_behind left conn).2

private theorem resultOf_behind {f : ResponseFields} (intact : f.Intact serial) {written : List (List Byte)}
    (waiting : client.conn = some ⟨f.frame, written⟩) (exchanges : ℕ → Exchange) {disturbed : ℕ → Option Disturbance}
    (quiet : ∀ n, disturbed n = none) (n : ℕ) :
    resultOf serial exchanges disturbed client (n + 1) = .error .identityMismatch := by
  obtain ⟨g, left, low, sent, conn⟩ := clientAfter_behind intact waiting exchanges quiet n
  rw [resultOf, quiet]
  apply (run_behind left conn).1
  rw [low]
  exact (nextSequence_ne _).symm

/-- From a disturbed call on, every call leaves nothing over. -/
private theorem clientAfter_level (client : Client) (exchanges : ℕ → Exchange) {disturbed : ℕ → Option Disturbance}
    {n : ℕ} {disturbance : Disturbance} (drops : disturbed n = some disturbance) {m : ℕ} (later : n < m) :
    ((clientAfter serial exchanges disturbed client m).conn.getD {}).unread = [] := by
  induction m, later using Nat.le_induction with
  | base =>
    rw [clientAfter, drops]
    exact run_disturbed disturbance
  | succ m later ih => exact (run_level ih (disturbed m)).2

end Calls

/-- With a response waiting on its connection, and a logger that answers every request once, the client
returns the answers to its calls from some call on exactly when something drops the connection under a
request, and contexts end under finitely many calls only. -/
theorem resynchronised_iff {serial : BitVec 32} {client : Client} {f : ResponseFields} (intact : f.Intact serial)
    {written : List (List Byte)} (waiting : client.conn = some ⟨f.frame, written⟩) (exchanges : ℕ → Exchange)
    (disturbed : ℕ → Option Disturbance) :
    (∃ k, ∀ n ≥ k, resultOf serial exchanges disturbed client n = .ok (exchanges n).answer) ↔
      (∃ n, (disturbed n).isSome) ∧ ∃ k, ∀ n ≥ k, ∀ text, disturbed n ≠ some (.ends text) := by
  constructor
  · rintro ⟨k, returns⟩
    refine ⟨?_, k, fun n late text ends => ?_⟩
    · by_contra undisturbed
      have quiet (n : ℕ) : disturbed n = none := by
        cases drops : disturbed n with
        | none => rfl
        | some disturbance => exact absurd ⟨n, by rw [drops]; rfl⟩ undisturbed
      have next := returns (k + 1) (Nat.le_succ k)
      rw [resultOf_behind intact waiting exchanges quiet] at next
      cases next
    · have fails := returns n late
      rw [resultOf, ends, run_ended] at fails
      cases fails
  · rintro ⟨⟨n, some_⟩, k, lasts⟩
    obtain ⟨disturbance, drops⟩ := Option.isSome_iff_exists.mp some_
    refine ⟨max (n + 1) k, fun m later => ?_⟩
    have level : ((clientAfter serial exchanges disturbed client m).conn.getD {}).unread = [] :=
      clientAfter_level client exchanges drops (by omega)
    exact (run_level level (disturbed m)).1 (lasts m (by omega))

/-- A reading of one register. -/
def reading : Exchange where
  call := ⟨1, 0x0404, 1⟩
  answer := [0x1234]
  counted := rfl
  nonempty := by decide
  bound := by decide
  high := 0
  metadata := List.replicate 12 0
  metadata_length := rfl

/-- A client whose last response arrived twice. -/
def duplicated : Client := ⟨7, some ⟨responseFrame 123456789 7 (List.replicate 12 0) 1 [0x1234], []⟩⟩

private theorem duplicated_waiting :
    ∃ f : ResponseFields, f.Intact 123456789 ∧ duplicated.conn = some ⟨f.frame, []⟩ := by
  obtain ⟨f, intact, frame, -⟩ := responseFrame_intact 123456789 7 (List.length_replicate : (List.replicate 12 (0 : Byte)).length = 12)
    1 (by decide : 1 ≤ [(0x1234 : Register)].length) (by decide)
  exact ⟨f, intact, by rw [frame]; rfl⟩

/-- The context of the third call ends, and the connection breaks under the sixth. -/
private def thirdAndSixth (n : ℕ) : Option Disturbance :=
  if n = 2 then some (.ends "context deadline exceeded") else if n = 5 then some (.broken "broken pipe") else none

theorem dropped_recovers :
    ∃ k, ∀ n ≥ k, resultOf 123456789 (fun _ => reading) thirdAndSixth duplicated n = .ok reading.answer := by
  obtain ⟨f, intact, waiting⟩ := duplicated_waiting
  refine (resynchronised_iff intact waiting (fun _ => reading) _).mpr ⟨⟨2, rfl⟩, 3, fun n late text ends => ?_⟩
  rw [thirdAndSixth, if_neg (by omega)] at ends
  split at ends <;> cases ends

theorem duplicate_never_recovers :
    ¬ ∃ k, ∀ n ≥ k, resultOf 123456789 (fun _ => reading) (fun _ => none) duplicated n = .ok reading.answer := by
  rintro ⟨k, returns⟩
  obtain ⟨f, intact, waiting⟩ := duplicated_waiting
  have next := returns (k + 1) (Nat.le_succ k)
  rw [resultOf_behind intact waiting _ (fun _ => rfl)] at next
  cases next

end Helio.Solarman
