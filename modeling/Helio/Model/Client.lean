import Helio.Model.Frame

/-! # The Solarman client

`ReadHoldingRegisters` makes at most two attempts under a gate that one caller holds at a time. An
attempt takes the next sequence byte, dials if there is no connection, writes the request and reads
frames until one is not the logger's own protocol. A connection is the bytes that are unread and the
frames that were written; what the network does during an attempt is given. The second half of the
module runs any number of callers against each other, with the frames on the connection marked by the
attempt they answer.
-/

namespace Helio.Solarman

structure Connection where
  unread : List Byte := []
  written : List (List Byte) := []
deriving DecidableEq

structure Client where
  sequence : Byte := 0
  conn : Option Connection := none
deriving DecidableEq

/-- The arguments of `ReadHoldingRegisters`. -/
structure Call where
  slave : Byte
  start : BitVec 16
  count : BitVec 16
deriving DecidableEq

def nextSequence (sequence : Byte) : Byte :=
  if sequence + 1 = 0 then 1 else sequence + 1

def retryable : ReadError → Bool
  | .identityMismatch => false
  | .unsupportedFunction _ => false
  | .modbusException _ _ => false
  | _ => true

def maxFrameSize : ℕ := 512

/-- The next frame of the stream and what follows it. `ended` is the error of a stream that ends: the
deadline, a cancellation or the connection. -/
def readFrame (ended : String) (unread : List Byte) : Except ReadError (List Byte × List Byte) :=
  if unread.length < v5HeaderSize then .error (.other ended)
  else
    let payloadSize := (unread.getD 2 0 ++ unread.getD 1 0 : BitVec 16).toNat
    let frameSize := v5HeaderSize + payloadSize + v5TrailerSize
    if maxFrameSize < frameSize then
      .error (.malformedFrame ("declared frame size " ++ toString frameSize ++ " exceeds " ++ toString maxFrameSize))
    else if unread.length < frameSize then .error (.other ended)
    else .ok (unread.take frameSize, unread.drop frameSize)

def isLoggerProtocolFrame (frame : List Byte) : Bool :=
  v5HeaderSize + v5TrailerSize ≤ frame.length && frame[0]? = some v5Start && frame.getLast? = some v5End &&
    frame[frame.length - 2]? = some (additiveChecksum ((frame.take (frame.length - 2)).drop 1)) &&
    frame[3]? = some 0x10 && [0x41, 0x42, 0x43, 0x47, 0x48].contains (frame.getD 4 0)

/-- The answer to a frame of the logger's protocol at a Unix time. -/
def buildLoggerTimeResponse (request : List Byte) (now : ℤ) : List Byte :=
  let sequence : BitVec 16 := request.getD 6 0 ++ (request.getD 5 0 + 1)
  let payload := putLittleEndian16 0x0100 ++ putLittleEndian32 (BitVec.ofInt 32 now) ++ List.replicate 4 0
  let control : BitVec 16 := (request.getD 4 0 - 0x30) ++ (0x10 : Byte)
  let serial : BitVec 32 := request.getD 10 0 ++ request.getD 9 0 ++ request.getD 8 0 ++ request.getD 7 0
  buildFrame control serial sequence payload

theorem readFrame_shorter {ended : String} {unread frame rest : List Byte}
    (read : readFrame ended unread = .ok (frame, rest)) : rest.length < unread.length := by
  simp only [readFrame] at read
  split at read
  · cases read
  · next header =>
    split at read
    · cases read
    · split at read
      · cases read
      · cases read
        rw [List.length_drop]
        simp only [v5HeaderSize, v5TrailerSize] at header ⊢
        omega

/-- The loop of `RoundTrip` over the frames that arrive. When the context ends while whole frames wait, it
has read only `reads` of them. -/
def receive (ended : String) (now : ℤ) (reads : Option ℕ) (conn : Connection) :
    Except ReadError (List Byte) × Connection :=
  if reads = some 0 then (.error (.other ended), conn)
  else
    match _ : readFrame ended conn.unread with
    | .error e => (.error e, conn)
    | .ok (frame, rest) =>
      if isLoggerProtocolFrame frame then
        receive ended now (reads.map (· - 1)) ⟨rest, conn.written ++ [buildLoggerTimeResponse frame now]⟩
      else (.ok frame, { conn with unread := rest })
termination_by conn.unread.length
decreasing_by exact readFrame_shorter ‹_›

/-- What surrounds an attempt: an ended context, a dial or a write that fails, the bytes that arrive
until the stream ends for the attempt, and how many frames it reads when its context ends before that. -/
structure Surroundings where
  expired : Option String := none
  dialFails : Option String := none
  writeFails : Option String := none
  arrived : List Byte := []
  reads : Option ℕ := none
  ended : String := "i/o timeout"
  now : ℤ := 0

def roundTrip (world : Surroundings) (request : List Byte) (conn : Connection) :
    Except ReadError (List Byte) × Connection :=
  match world.writeFails with
  | some text => (.error (.other ("write Solarman request: " ++ text)), conn)
  | none => receive world.ended world.now world.reads ⟨conn.unread ++ world.arrived, conn.written ++ [request]⟩

inductive Verdict where
  | returned (result : Except ReadError (List Register))
  | again (lastErr : ReadError)

/-- The result of a checked computation; an index out of range would end the process. -/
def Checked.result {α : Type} : Checked α → Except ReadError α
  | .ok a => .ok a
  | .error (.failed e) => .error e
  | .error .outOfRange => .error (.other "runtime error: index out of range")

/-- What an attempt makes of the round trip. -/
def judge (serial : BitVec 32) (sequence : Byte) (call : Call) (response : Except ReadError (List Byte)) : Verdict :=
  let result := response >>= fun frame =>
    Checked.result (parseReadResponse frame serial (sequence.setWidth 16) call.slave call.count)
  match result with
  | .ok registers => .returned (.ok registers)
  | .error e => if retryable e then .again e else .returned (.error e)

/-- One pass of the loop in `ReadHoldingRegisters`. -/
def attempt (serial : BitVec 32) (world : Surroundings) (call : Call) (client : Client) : Verdict × Client :=
  match world.expired with
  | some text => (.returned (.error (.other text)), client)
  | none =>
    let sequence := nextSequence client.sequence
    match buildReadRequest serial (sequence.setWidth 16) call.slave call.start call.count with
    | .error e => (.returned (.error e), { client with sequence })
    | .ok request =>
      match client.conn, world.dialFails with
      | none, some text => (.again (.other text), { client with sequence })
      | conn, _ =>
        let (response, after) := roundTrip world request (conn.getD {})
        match judge serial sequence call response with
        | .returned result => (.returned result, ⟨sequence, some after⟩)
        | .again e => (.again e, ⟨sequence, none⟩)

/-- `ReadHoldingRegisters` once it holds the gate: the surroundings of its two attempts are given. -/
def readHoldingRegisters (serial : BitVec 32) (first second : Surroundings) (call : Call) (client : Client) :
    Except ReadError (List Register) × Client :=
  match attempt serial first call client with
  | (.returned result, client) => (result, client)
  | (.again _, client) =>
    match attempt serial second call client with
    | (.returned result, client) => (result, client)
    | (.again e, client) => (.error e, client)

/-- The bytes of one frame: its header declares its size. -/
def WholeFrame (bytes : List Byte) : Prop :=
  v5HeaderSize + (bytes.getD 2 0 ++ bytes.getD 1 0 : BitVec 16).toNat + v5TrailerSize = bytes.length ∧
    bytes.length ≤ maxFrameSize

instance (bytes : List Byte) : Decidable (WholeFrame bytes) := inferInstanceAs (Decidable (_ ∧ _))

/-- A frame on the connection, and the attempt it answers. -/
structure Arrival where
  attempt : ℕ
  bytes : List Byte
  whole : WholeFrame bytes

inductive Phase where
  | idle
  | waiting (call : Call)
  | trying (call : Call) (tries : ℕ)
  | flying (call : Call) (tries number : ℕ) (sequence : Byte)

def Phase.InFlight : Phase → Prop
  | flying _ _ _ _ => True
  | _ => False

/-- The phases between taking the gate and giving it back. -/
def Phase.Holds : Phase → Prop
  | trying _ _ => True
  | flying _ _ _ _ => True
  | _ => False

/-- A call that returned registers, with the attempt and the frame it got them from. -/
structure Success where
  number : ℕ
  sequence : Byte
  call : Call
  response : Arrival
  registers : List Register

/-- The callers of one client, with a record of the sequence bytes of all attempts. -/
structure Machine where
  gate : Bool := true
  client : Client := {}
  phase : ℕ → Phase := fun _ => .idle
  sequences : List Byte := []
  wire : List Arrival := []
  successes : List Success := []

inductive Action where
  | call (caller : ℕ) (call : Call)
  | giveUp (caller : ℕ)
  | acquire (caller : ℕ)
  | expire (caller : ℕ)
  | send (caller : ℕ) (dialFails : Option String)
  | arrive (arrival : Arrival)
  | receive (caller : ℕ) (now : ℤ)
  | fail (caller : ℕ) (e : ReadError)

namespace Machine

def enter (m : Machine) (caller : ℕ) (phase : Phase) : Machine :=
  { m with phase := Function.update m.phase caller phase }

/-- The call returns and gives the gate back. -/
def release (m : Machine) (caller : ℕ) : Machine :=
  { m.enter caller .idle with gate := true }

/-- The loop goes on after a failed attempt, at most once. -/
def retry (m : Machine) (caller : ℕ) (call : Call) (tries : ℕ) : Machine :=
  if tries + 1 < 2 then m.enter caller (.trying call (tries + 1)) else m.release caller

def issue (m : Machine) : Machine :=
  let sequence := nextSequence m.client.sequence
  { m with client := { m.client with sequence }, sequences := m.sequences ++ [sequence] }

/-- `invalidateConnection`. -/
def invalidate (m : Machine) : Machine :=
  { m with client := { m.client with conn := none }, wire := [] }

/-- The request is written on the connection; a new one has nothing to read. -/
def fly (m : Machine) (caller : ℕ) (call : Call) (tries : ℕ) (request : List Byte) : Machine :=
  let conn := m.client.conn.getD {}
  { m.enter caller (.flying call tries (m.sequences.length - 1) m.client.sequence) with
    client := { m.client with conn := some { conn with written := conn.written ++ [request] } } }

/-- The frames up to and with the next response are read. -/
def read (m : Machine) (after : Connection) (rest : List Arrival) : Machine :=
  { m with client := { m.client with conn := some after }, wire := rest }

/-- The frame that the round trip returns. -/
def next (m : Machine) : List Arrival := m.wire.dropWhile fun arrival => isLoggerProtocolFrame arrival.bytes

def send (serial : BitVec 32) (m : Machine) (caller : ℕ) (dialFails : Option String) : Option Machine :=
  match m.phase caller with
  | .trying call tries =>
    let m := m.issue
    match buildReadRequest serial (m.client.sequence.setWidth 16) call.slave call.start call.count with
    | .error _ => some (m.release caller)
    | .ok request =>
      if m.client.conn = none ∧ dialFails ≠ none then some (m.retry caller call tries)
      else some (m.fly caller call tries request)
  | _ => none

/-- The round trip returns a frame, if one has arrived. -/
def receive (serial : BitVec 32) (m : Machine) (caller : ℕ) (now : ℤ) : Option Machine :=
  match m.phase caller, m.next with
  | .flying call tries number sequence, arrival :: rest =>
    match Solarman.receive "i/o timeout" now none (m.client.conn.getD {}) with
    | (.error _, _) => none
    | (.ok frame, after) =>
      match judge serial sequence call (.ok frame) with
      | .returned (.ok registers) =>
        let success := ⟨number, sequence, call, arrival, registers⟩
        some { (m.read after rest).release caller with successes := m.successes ++ [success] }
      | .returned (.error _) => some ((m.read after rest).release caller)
      | .again _ => some (m.invalidate.retry caller call tries)
  | _, _ => none

def act (serial : BitVec 32) (m : Machine) : Action → Option Machine
  | .call caller call =>
    match m.phase caller with
    | .idle => some (m.enter caller (.waiting call))
    | _ => none
  | .giveUp caller =>
    match m.phase caller with
    | .waiting _ => some (m.enter caller .idle)
    | _ => none
  | .acquire caller =>
    match m.phase caller with
    | .waiting call => if m.gate then some { m.enter caller (.trying call 0) with gate := false } else none
    | _ => none
  | .expire caller =>
    match m.phase caller with
    | .trying _ _ => some (m.release caller)
    | _ => none
  | .send caller dialFails => m.send serial caller dialFails
  | .arrive arrival =>
    match m.client.conn with
    | some conn =>
      if arrival.attempt < m.sequences.length ∧
          (isLoggerProtocolFrame arrival.bytes ∨ arrival.bytes[5]? = m.sequences[arrival.attempt]?) then
        some { m with
          client := { m.client with conn := some { conn with unread := conn.unread ++ arrival.bytes } }
          wire := m.wire ++ [arrival] }
      else none
    | none => none
  | .receive caller now => m.receive serial caller now
  | .fail caller e =>
    match m.phase caller with
    | .flying call tries _ _ => if retryable e then some (m.invalidate.retry caller call tries) else none
    | _ => none

end Machine

end Helio.Solarman
