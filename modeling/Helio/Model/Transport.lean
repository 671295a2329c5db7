import Helio.Model.Client

/-! # The connection of a round trip

`RoundTrip` writes its request and reads frames until one is not the logger's own protocol, which it
answers with the time. A read returns as much as has arrived, up to what was asked for, and a write takes
as much as there is room for. What the connection does is given as a list of what its reads find and a
list of how far its writes get; when the first runs out nothing arrives before the deadline, and when the
second does the writes take everything.
-/

namespace Helio.Solarman

inductive Incoming where
  | bytes (chunk : List Byte)
  | failure (text : String)
deriving DecidableEq

inductive Outgoing where
  | taken (count : ℕ)
  | failure (text : String)
deriving DecidableEq

structure Conn where
  incoming : List Incoming
  outgoing : List Outgoing := []
  deadlineFails : Option String := none
  deadline : Option ℤ := none
  written : List Byte := []
  closed : Bool := false
deriving DecidableEq

/-- The deadline of a context, and its error if it has ended. -/
structure Context where
  deadline : Option ℤ
  err : Option String := none

/-- `io.ReadFull`: bytes are read until there are as many as needed. What a read leaves of a chunk is there
for the next one. -/
def readFull (got : List Byte) (need : ℕ) (incoming : List Incoming) : Except String (List Byte) × List Incoming :=
  if need = 0 then (.ok got, incoming)
  else
    match incoming with
    | [] => (.error "i/o timeout", [])
    | .failure text :: rest =>
      (.error (if got ≠ [] ∧ text = "EOF" then "unexpected EOF" else text), rest)
    | .bytes chunk :: rest =>
      if need < chunk.length then (.ok (got ++ chunk.take need), .bytes (chunk.drop need) :: rest)
      else readFull (got ++ chunk) (need - chunk.length) rest

/-- The error, the writes that are left and the bytes that were taken. -/
def writeFull (data : List Byte) (outgoing : List Outgoing) : Option String × List Outgoing × List Byte :=
  if data = [] then (none, outgoing, [])
  else
    match outgoing with
    | [] => (none, [], data)
    | .failure text :: rest => (some text, rest, [])
    | .taken count :: rest =>
      if count = 0 then (some "short write", rest, [])
      else
        let (failure, left, taken) := writeFull (data.drop count) rest
        (failure, left, data.take count ++ taken)

def pendingBytes (incoming : List Incoming) : List Byte :=
  incoming.flatMap fun
    | .bytes chunk => chunk
    | .failure _ => []

namespace Conn

/-- The bytes that have not been read. -/
def pending (conn : Conn) : List Byte := pendingBytes conn.incoming

def close (conn : Conn) : Conn := { conn with closed := true }

/-- The connection is closed over a failure; an ended context is the error then. -/
def abort {α : Type} (conn : Conn) (ctx : Context) (failed : String) : Except ReadError α × Conn :=
  match ctx.err with
  | some err => (.error (.other err), conn.close)
  | none => (.error (.other failed), conn.close)

def readFrame (conn : Conn) (ctx : Context) : Except ReadError (List Byte) × Conn :=
  match readFull [] v5HeaderSize conn.incoming with
  | (.error text, incoming) => { conn with incoming }.abort ctx ("read Solarman header: " ++ text)
  | (.ok header, incoming) =>
    let payloadSize := (header.getD 2 0 ++ header.getD 1 0 : BitVec 16).toNat
    let frameSize := v5HeaderSize + payloadSize + v5TrailerSize
    if maxFrameSize < frameSize then
      (.error (.malformedFrame
        ("declared frame size " ++ toString frameSize ++ " exceeds " ++ toString maxFrameSize)),
        { conn with incoming }.close)
    else
      match readFull [] (frameSize - v5HeaderSize) incoming with
      | (.error text, incoming) => { conn with incoming }.abort ctx ("read Solarman payload: " ++ text)
      | (.ok payload, incoming) => (.ok (header ++ payload), { conn with incoming })

def write (conn : Conn) (data : List Byte) : Option String × Conn :=
  let (failure, outgoing, taken) := writeFull data conn.outgoing
  (failure, { conn with outgoing, written := conn.written ++ taken })

end Conn

section Reading

variable {got bytes : List Byte} {need : ℕ} {incoming rest : List Incoming}

theorem pendingBytes_bytes (chunk : List Byte) (rest : List Incoming) :
    pendingBytes (.bytes chunk :: rest) = chunk ++ pendingBytes rest := List.flatMap_cons

/-- Bytes are read in order, and as many as were needed. -/
theorem readFull_ok (read : readFull got need incoming = (.ok bytes, rest)) :
    got ++ pendingBytes incoming = bytes ++ pendingBytes rest ∧ bytes.length = got.length + need := by
  induction incoming generalizing got need with
  | nil =>
    unfold readFull at read
    split_ifs at read with enough
    · cases read
      exact ⟨rfl, by rw [enough, Nat.add_zero]⟩
    · cases read
  | cons event incoming ih =>
    unfold readFull at read
    split_ifs at read with enough
    · cases read
      exact ⟨rfl, by rw [enough, Nat.add_zero]⟩
    · cases event with
      | failure text => cases read
      | bytes chunk =>
        dsimp only at read
        split_ifs at read with fits
        · cases read
          constructor
          · rw [pendingBytes_bytes, pendingBytes_bytes, List.append_assoc, ← List.append_assoc (chunk.take need),
              List.take_append_drop]
          · rw [List.length_append, List.length_take, min_eq_left fits.le]
        · obtain ⟨split, size⟩ := ih read
          constructor
          · rw [← split, pendingBytes_bytes, List.append_assoc]
          · rw [size, List.length_append]
            omega

end Reading

namespace Conn

variable {conn next : Conn} {ctx : Context} {frame : List Byte}

theorem readFrame_pending (read : conn.readFrame ctx = (.ok frame, next)) :
    conn.pending = frame ++ next.pending ∧ 0 < frame.length := by
  unfold readFrame at read
  split at read
  · next text incoming _ =>
    unfold abort at read
    split at read <;> cases read
  · next header incoming first =>
    obtain ⟨front, size⟩ := readFull_ok first
    dsimp only at read
    split_ifs at read
    · cases read
    · split at read
      · unfold abort at read
        split at read <;> cases read
      · next payload rest second =>
        cases read
        obtain ⟨back, -⟩ := readFull_ok second
        rw [List.nil_append] at front back
        constructor
        · rw [pending, front, back, List.append_assoc]
          rfl
        · rw [List.length_append, size]
          simp only [v5HeaderSize]
          omega

@[simp]
theorem write_pending (conn : Conn) (data : List Byte) : (conn.write data).2.pending = conn.pending := rfl

/-- The loop of `RoundTrip`. The clock tells the time of each answer. -/
def receive (conn : Conn) (ctx : Context) (clock : ℕ → ℤ) : Except ReadError (List Byte) × Conn :=
  match _ : conn.readFrame ctx with
  | (.error e, next) => (.error e, next)
  | (.ok frame, next) =>
    if isLoggerProtocolFrame frame then
      let sent := next.write (buildLoggerTimeResponse frame (clock 0))
      match sent.1 with
      | some text => sent.2.abort ctx ("write Solarman protocol response: " ++ text)
      | none => sent.2.receive ctx fun n => clock (n + 1)
    else (.ok frame, next)
termination_by conn.pending.length
decreasing_by
  obtain ⟨parts, some⟩ := readFrame_pending ‹_›
  rw [write_pending, parts, List.length_append]
  omega

def roundTrip (conn : Conn) (ctx : Context) (clock : ℕ → ℤ) (request : List Byte) :
    Except ReadError (List Byte) × Conn :=
  match ctx.deadline with
  | none => (.error (.other "context deadline exceeded"), conn)
  | some deadline =>
    match conn.deadlineFails with
    | some text => (.error (.other ("set TCP deadline: " ++ text)), conn.close)
    | none =>
      let sent := { conn with deadline := some deadline }.write request
      match sent.1 with
      | some text => sent.2.abort ctx ("write Solarman request: " ++ text)
      | none => sent.2.receive ctx clock

end Conn

end Helio.Solarman
