import Helio.Model.Transport
import Helio.Soundness.Resynchronisation

/-! # Round trips over a fragmented stream

A connection that does not fail gives every frame as it was sent, however the stream falls into reads, and
takes every write whole. So a round trip answers the frames of the logger's protocol one by one and returns
the first frame that is none, as the client's view of its connection has it.
-/

namespace Helio.Solarman

/-- Every read finds bytes. -/
def Arriving (incoming : List Incoming) : Prop := ∀ event ∈ incoming, ∃ chunk, event = .bytes chunk

/-- Every write takes something. -/
def Taking (outgoing : List Outgoing) : Prop := ∀ event ∈ outgoing, ∃ count, 0 < count ∧ event = .taken count

/-- A connection that is open and does not fail. -/
structure Conn.Sound (conn : Conn) : Prop where
  reads : Arriving conn.incoming
  writes : Taking conn.outgoing
  deadline : conn.deadlineFails = none
  opened : conn.closed = false

/-- A frame with its markers, whose length and checksum are right. -/
def WellFormed (frame : List Byte) : Prop :=
  v5HeaderSize + (frame.getD 2 0 ++ frame.getD 1 0 : BitVec 16).toNat + v5TrailerSize = frame.length ∧
    frame[0]? = some v5Start ∧ frame.getLast? = some v5End ∧
    frame[frame.length - 2]? = some (additiveChecksum ((frame.take (frame.length - 2)).drop 1))

instance (frame : List Byte) : Decidable (WellFormed frame) := inferInstanceAs (Decidable (_ ∧ _))

/-- What the logger is told in answer to a frame of its protocol. -/
structure TimeReply (frame : List Byte) (now : ℤ) (reply : List Byte) : Prop where
  wellFormed : WellFormed reply
  serial : (reply.drop 7).take 4 = (frame.drop 7).take 4
  kind : reply[3]? = frame[3]?
  control : reply[4]? = frame[4]?.map (· - 0x30)
  lowSequence : reply[5]? = frame[5]?.map (· + 1)
  highSequence : reply[6]? = frame[6]?
  time : (reply.drop 11).take 10 = 0x00 :: 0x01 :: putLittleEndian32 (BitVec.ofInt 32 now) ++ [0, 0, 0, 0]

section Fragments

theorem readFull_arriving {got : List Byte} {need : ℕ} {incoming : List Incoming} (arriving : Arriving incoming)
    (enough : need ≤ (pendingBytes incoming).length) :
    ∃ bytes rest, readFull got need incoming = (.ok bytes, rest) ∧ Arriving rest := by
  induction incoming generalizing got need with
  | nil =>
    obtain rfl := Nat.le_zero.mp enough
    exact ⟨got, [], rfl, arriving⟩
  | cons event incoming ih =>
    obtain ⟨⟨chunk, rfl⟩, later⟩ := List.forall_mem_cons.mp arriving
    rw [pendingBytes_bytes, List.length_append] at enough
    unfold readFull
    split_ifs with none
    · exact ⟨got, _, rfl, arriving⟩
    · dsimp only
      split_ifs with fits
      · exact ⟨_, _, rfl, List.forall_mem_cons.mpr ⟨⟨_, rfl⟩, later⟩⟩
      · exact ih later (by omega)

theorem writeFull_taking {data : List Byte} {outgoing : List Outgoing} (taking : Taking outgoing) :
    ∃ left, writeFull data outgoing = (none, left, data) ∧ Taking left := by
  induction outgoing generalizing data with
  | nil =>
    unfold writeFull
    split_ifs with empty
    · exact ⟨[], by rw [empty], taking⟩
    · exact ⟨[], rfl, taking⟩
  | cons event outgoing ih =>
    obtain ⟨⟨count, positive, rfl⟩, later⟩ := List.forall_mem_cons.mp taking
    unfold writeFull
    split_ifs with empty
    · exact ⟨_, by rw [empty], taking⟩
    · obtain ⟨left, written, taking⟩ := @ih (data.drop count) later
      refine ⟨left, ?_, taking⟩
      simp only [positive.ne', if_false, written, List.take_append_drop]

end Fragments

namespace Conn

variable {conn : Conn} {ctx : Context} {clock : ℕ → ℤ}

theorem Sound.write (sound : conn.Sound) (data : List Byte) :
    (conn.write data).1 = none ∧ (conn.write data).2.written = conn.written ++ data ∧ (conn.write data).2.Sound := by
  obtain ⟨left, written, taking⟩ := @writeFull_taking data _ sound.writes
  simp only [Conn.write, written]
  exact ⟨trivial, trivial, sound.reads, taking, sound.deadline, sound.opened⟩

/-- A frame that is there is read, in however many reads. -/
theorem readFrame_refines (sound : conn.Sound) {ended : String} {frame rest : List Byte}
    (read : Solarman.readFrame ended conn.pending = .ok (frame, rest)) :
    ∃ next, conn.readFrame ctx = (.ok frame, next) ∧ next.pending = rest ∧ next.written = conn.written ∧
      next.Sound := by
  unfold Solarman.readFrame at read
  split_ifs at read with short
  dsimp only at read
  split_ifs at read with large cut
  obtain ⟨rfl, rfl⟩ := Prod.mk.inj (Except.ok.inj read)
  obtain ⟨header, middle, first, arriving⟩ := @readFull_arriving [] _ _ sound.reads (not_lt.mp short)
  obtain ⟨front, size⟩ := readFull_ok first
  rw [List.nil_append] at front
  rw [List.length_nil, Nat.zero_add] at size
  have pending : conn.pending = header ++ pendingBytes middle := front
  have declared :
      (conn.pending.getD 2 0 ++ conn.pending.getD 1 0 : BitVec 16) = header.getD 2 0 ++ header.getD 1 0 := by
    have inside : 2 < header.length := by
      rw [size]
      decide
    simp only [List.getD_eq_getElem?_getD, pending]
    rw [List.getElem?_append_left inside, List.getElem?_append_left (by omega)]
  rw [declared] at large cut ⊢
  have payload : (header.getD 2 0 ++ header.getD 1 0 : BitVec 16).toNat + v5TrailerSize ≤
      (pendingBytes middle).length := by
    rw [pending, List.length_append, size] at cut
    omega
  have need : v5HeaderSize + (header.getD 2 0 ++ header.getD 1 0 : BitVec 16).toNat + v5TrailerSize - v5HeaderSize =
      (header.getD 2 0 ++ header.getD 1 0 : BitVec 16).toNat + v5TrailerSize := by omega
  obtain ⟨body, left, second, remaining⟩ := @readFull_arriving [] _ _ arriving payload
  obtain ⟨back, extent⟩ := readFull_ok second
  rw [List.nil_append] at back
  have whole : conn.pending = header ++ body ++ pendingBytes left := by rw [pending, back, List.append_assoc]
  have total : (header ++ body).length =
      v5HeaderSize + (header.getD 2 0 ++ header.getD 1 0 : BitVec 16).toNat + v5TrailerSize := by
    rw [List.length_append, size, extent, List.length_nil]
    omega
  refine ⟨{ conn with incoming := left }, ?_, ?_, rfl, remaining, sound.writes, sound.deadline, sound.opened⟩
  · simp only [readFrame, first, need, second]
    rw [if_neg large, whole, List.take_left' total]
  · rw [whole, List.drop_left' total]
    rfl

/-- A round of the loop over a frame of the logger's protocol. -/
theorem receive_protocol (sound : conn.Sound) {ended : String} {frame rest : List Byte}
    (read : Solarman.readFrame ended conn.pending = .ok (frame, rest)) (protocol : isLoggerProtocolFrame frame = true) :
    ∃ next : Conn, conn.receive ctx clock = next.receive ctx (fun n => clock (n + 1)) ∧ next.pending = rest ∧
      next.written = conn.written ++ buildLoggerTimeResponse frame (clock 0) ∧ next.Sound := by
  obtain ⟨middle, first, left, same, kept⟩ := @readFrame_refines _ ctx sound _ _ _ read
  obtain ⟨sent, written, after⟩ := kept.write (buildLoggerTimeResponse frame (clock 0))
  refine ⟨_, ?_, (write_pending middle _).trans left, written.trans (by rw [same]), after⟩
  rw [receive]
  split
  · next e _ failed =>
    rw [first] at failed
    cases failed
  · next frame' middle' found =>
    rw [first] at found
    cases found
    rw [if_pos protocol]
    simp only [sent]

/-- The loop ends with a frame that is not of the logger's protocol. -/
theorem receive_response (sound : conn.Sound) {ended : String} {frame rest : List Byte}
    (read : Solarman.readFrame ended conn.pending = .ok (frame, rest))
    (response : isLoggerProtocolFrame frame = false) :
    ∃ next, conn.receive ctx clock = (.ok frame, next) ∧ next.pending = rest ∧ next.written = conn.written ∧
      next.Sound := by
  obtain ⟨next, first, left, same, kept⟩ := @readFrame_refines _ ctx sound _ _ _ read
  refine ⟨next, ?_, left, same, kept⟩
  rw [receive]
  split
  · next e _ failed =>
    rw [first] at failed
    cases failed
  · next frame' middle found =>
    rw [first] at found
    cases found
    rw [response]
    rfl

/-- The loop ends with a frame that cannot be read. -/
theorem receive_failed {e : ReadError} (failed : (conn.readFrame ctx).1 = .error e) :
    (conn.receive ctx clock).1 = .error e := by
  rw [receive]
  split
  · next e' after read =>
    rw [read] at failed
    exact failed
  · next frame after read =>
    rw [read] at failed
    cases failed

/-- The request is written, and the loop begins. -/
theorem start_round_trip (sound : conn.Sound) (bounded : ctx.deadline.isSome) (request : List Byte) :
    ∃ next : Conn, conn.roundTrip ctx clock request = next.receive ctx clock ∧ next.pending = conn.pending ∧
      next.written = conn.written ++ request ∧ next.Sound := by
  obtain ⟨deadline, given⟩ := Option.isSome_iff_exists.mp bounded
  have kept : Sound { conn with deadline := some deadline } := ⟨sound.reads, sound.writes, sound.deadline, sound.opened⟩
  obtain ⟨sent, written, after⟩ := kept.write request
  refine ⟨({ conn with deadline := some deadline }.write request).2, ?_, rfl, written, after⟩
  simp only [roundTrip, given]
  split
  · next text fails =>
    rw [sound.deadline] at fails
    cases fails
  · simp only [sent]

/-- What the client's view of a connection receives, the connection does. -/
theorem receive_refines (sound : conn.Sound) {ended : String} {now : ℤ} {reads : Option ℕ} {log : List (List Byte)}
    {frame : List Byte} {after : Connection}
    (received : Solarman.receive ended now reads ⟨conn.pending, log⟩ = (.ok frame, after)) :
    ∃ next replies, conn.receive ctx (fun _ => now) = (.ok frame, next) ∧ next.pending = after.unread ∧
      after.written = log ++ replies ∧ next.written = conn.written ++ replies.flatten ∧ next.Sound := by
  induction size : conn.pending.length using Nat.strong_induction_on generalizing conn log reads with
  | _ size ih =>
    subst size
    unfold Solarman.receive at received
    split at received
    · cases received
    split at received
    · cases received
    · next found rest read =>
      split_ifs at received with protocol
      · obtain ⟨next, loop, left, written, kept⟩ := @receive_protocol _ ctx (fun _ => now) sound _ _ _ read protocol
        have shorter : next.pending.length < conn.pending.length := by
          rw [left]
          exact readFrame_shorter read
        rw [← left] at received
        obtain ⟨last, replies, loops, unread, answers, total, sound⟩ := ih _ shorter kept received rfl
        refine ⟨last, buildLoggerTimeResponse found now :: replies, loop.trans loops, unread, ?_, ?_, sound⟩
        · rw [answers, List.append_assoc]
          rfl
        · rw [total, written, List.flatten_cons, List.append_assoc]
      · cases received
        obtain ⟨next, loop, left, written, kept⟩ :=
          @receive_response _ ctx (fun _ => now) sound _ _ _ read (Bool.eq_false_iff.mpr protocol)
        exact ⟨next, [], loop, left, (List.append_nil _).symm, by rw [written]; simp, kept⟩

/-- What the client's view makes of a round trip, the connection does. -/
theorem roundTrip_refines (sound : conn.Sound) (bounded : ctx.deadline.isSome) {world : Surroundings}
    (writes : world.writeFails = none) {unread request frame : List Byte} {log : List (List Byte)} {after : Connection}
    (stream : conn.pending = unread ++ world.arrived)
    (returned : Solarman.roundTrip world request ⟨unread, log⟩ = (.ok frame, after)) :
    ∃ next replies, conn.roundTrip ctx (fun _ => world.now) request = (.ok frame, next) ∧ next.pending = after.unread ∧
      after.written = log ++ replies ∧ next.written = conn.written ++ replies.flatten ∧ next.Sound := by
  obtain ⟨middle, start, left, written, kept⟩ := @start_round_trip conn ctx (fun _ => world.now) sound bounded request
  simp only [Solarman.roundTrip, writes] at returned
  rw [← stream, ← left] at returned
  obtain ⟨next, replies, loop, unread, answers, total, sound⟩ := @receive_refines _ ctx kept _ _ _ _ _ _ returned
  refine ⟨next, request :: replies, start.trans loop, unread, ?_, ?_, sound⟩
  · rw [answers, List.append_assoc]
    rfl
  · rw [total, written, List.flatten_cons, List.append_assoc]

end Conn

section Replies

theorem buildFrame_wellFormed (control : BitVec 16) (serial : BitVec 32) (sequence : BitVec 16) {payload : List Byte}
    (fits : payload.length < 2 ^ 16) : WellFormed (buildFrame control serial sequence payload) := by
  have length : (BitVec.ofNat 16 payload.length).toNat = payload.length := by
    rw [BitVec.toNat_ofNat, Nat.mod_eq_of_lt fits]
  rw [buildFrame]
  refine ⟨?_, rfl, ?_, ?_⟩
  · simp only [putLittleEndian16, putLittleEndian32, List.cons_append, List.nil_append, List.getD_cons_succ,
      List.getD_cons_zero, word16_eq, length, List.length_cons, List.length_append, List.length_nil, v5HeaderSize,
      v5TrailerSize]
    omega
  · generalize putLittleEndian16 (BitVec.ofNat 16 payload.length) ++ _ ++ _ ++ _ ++ payload = body
    rw [List.append_cons, List.getLast?_concat]
  · generalize putLittleEndian16 (BitVec.ofNat 16 payload.length) ++ _ ++ _ ++ _ ++ payload = body
    have place : (v5Start :: body ++ [additiveChecksum body, v5End]).length - 2 = (v5Start :: body).length := by
      rw [List.length_append]
      rfl
    rw [place, List.take_left, List.drop_one, List.tail_cons, List.getElem?_append_right le_rfl, Nat.sub_self]
    rfl

/-- The header of a whole frame. -/
theorem exists_header {frame : List Byte} (whole : WholeFrame frame) :
    ∃ first len0 len1 con0 con1 seq0 seq1 ser0 ser1 ser2 ser3 rest,
      frame = first :: len0 :: len1 :: con0 :: con1 :: seq0 :: seq1 :: ser0 :: ser1 :: ser2 :: ser3 :: rest := by
  have long : v5HeaderSize ≤ frame.length := by
    rw [← whole.1]
    omega
  match frame, long with
  | first :: len0 :: len1 :: con0 :: con1 :: seq0 :: seq1 :: ser0 :: ser1 :: ser2 :: ser3 :: rest, _ =>
    exact ⟨first, len0, len1, con0, con1, seq0, seq1, ser0, ser1, ser2, ser3, rest, rfl⟩

theorem timeResponse_reply {frame : List Byte} (whole : WholeFrame frame)
    (protocol : isLoggerProtocolFrame frame = true)
    (now : ℤ) : TimeReply frame now (buildLoggerTimeResponse frame now) := by
  have kind : frame[3]? = some 0x10 := by
    simp only [isLoggerProtocolFrame, Bool.and_eq_true, decide_eq_true_eq] at protocol
    exact protocol.1.2
  obtain ⟨first, len0, len1, con0, con1, seq0, seq1, ser0, ser1, ser2, ser3, rest, rfl⟩ := exists_header whole
  obtain rfl : con0 = 0x10 := Option.some.inj kind
  constructor
  · apply buildFrame_wellFormed
    simp [putLittleEndian16, putLittleEndian32]
  all_goals
    simp only [buildLoggerTimeResponse, buildFrame, List.getD_cons_succ, List.getD_cons_zero, putLittleEndian16_append,
      putLittleEndian32_append]
  · rfl
  · rfl
  · rfl
  · rfl
  · rfl
  · rfl

end Replies

/-- Over a connection that does not fail, a round trip answers each frame of the logger's protocol with the time
and returns the first frame that is none, if that is not too large. -/
theorem round_trip_protocol {conn : Conn} (sound : conn.Sound) {ctx : Context} (bounded : ctx.deadline.isSome)
    {frames : List (List Byte)} (protocol : ∀ frame ∈ frames, WholeFrame frame ∧ isLoggerProtocolFrame frame = true)
    {last : List Byte} (whole : WholeFrame last) (response : isLoggerProtocolFrame last = false) {rest : List Byte}
    (stream : conn.pending = frames.flatten ++ last ++ rest) (clock : ℕ → ℤ) (request : List Byte) :
    ∃ (replies : List (List Byte)) (after : Conn), conn.roundTrip ctx clock request = (.ok last, after) ∧
      after.pending = rest ∧ after.written = conn.written ++ request ++ replies.flatten ∧ after.Sound ∧
      replies.length = frames.length ∧ ∀ (i : ℕ) frame reply, frames[i]? = some frame → replies[i]? = some reply →
        TimeReply frame (clock i) reply := by
  obtain ⟨next, start, left, written, kept⟩ := @Conn.start_round_trip conn ctx clock sound bounded request
  rw [stream] at left
  rw [start, ← written]
  clear start written stream sound
  induction frames generalizing next clock with
  | nil =>
    have read := readFrame_whole whole "" rest
    rw [List.flatten_nil, List.nil_append] at left
    rw [← left] at read
    obtain ⟨after, loop, unread, same, sound⟩ := @Conn.receive_response next ctx clock kept _ _ _ read response
    refine ⟨[], after, loop, unread, ?_, sound, rfl, ?_⟩
    · rw [same, List.flatten_nil, List.append_nil]
    · rintro i frame reply ⟨⟩
  | cons frame frames ih =>
    obtain ⟨⟨extent, logger⟩, others⟩ := List.forall_mem_cons.mp protocol
    have read := readFrame_whole extent "" (frames.flatten ++ last ++ rest)
    rw [List.flatten_cons, List.append_assoc, List.append_assoc, ← List.append_assoc frames.flatten] at left
    rw [← left] at read
    obtain ⟨middle, loop, unread, answered, sound⟩ := @Conn.receive_protocol next ctx clock kept _ _ _ read logger
    obtain ⟨replies, after, loops, remains, total, steady, size, answers⟩ :=
      ih others (fun n => clock (n + 1)) middle unread sound
    refine ⟨buildLoggerTimeResponse frame (clock 0) :: replies, after, loop.trans loops, remains, ?_, steady, ?_, ?_⟩
    · rw [total, answered, List.flatten_cons, List.append_assoc]
    · rw [List.length_cons, List.length_cons, size]
    · intro i asked reply here there
      cases i with
      | zero =>
        cases here
        cases there
        exact timeResponse_reply extent logger (clock 0)
      | succ i => exact answers i asked reply here there

/-- A heartbeat of the logger. -/
def heartbeat : List Byte := buildFrame 0x4710 123456789 0x2207 (List.replicate 10 0)

/-- A heartbeat and a response in three reads, with writes of one and of two bytes at first. -/
def heartbeatFirst : Conn where
  incoming :=
    [.bytes (heartbeat.take 5), .bytes (heartbeat.drop 5 ++ (buildFrame v5ResponseControl 123456789 7 []).take 1),
      .bytes ((buildFrame v5ResponseControl 123456789 7 []).drop 1)]
  outgoing := [.taken 1, .taken 2]

theorem round_trip_heartbeat : ∃ (replies : List (List Byte)) (after : Conn),
    heartbeatFirst.roundTrip ⟨some 30, none⟩ (fun _ => 20) [1, 2, 3] =
        (.ok (buildFrame v5ResponseControl 123456789 7 []), after) ∧
      after.pending = [] ∧ after.written = [] ++ [1, 2, 3] ++ replies.flatten ∧ after.Sound ∧
      replies.length = [heartbeat].length ∧
      ∀ (i : ℕ) frame reply, [heartbeat][i]? = some frame → replies[i]? = some reply → TimeReply frame 20 reply := by
  have sound : heartbeatFirst.Sound := by
    refine ⟨?_, ?_, rfl, rfl⟩
    · simp [Arriving, heartbeatFirst]
    · simp [Taking, heartbeatFirst]
  have protocol : ∀ frame ∈ [heartbeat], WholeFrame frame ∧ isLoggerProtocolFrame frame = true := by decide
  exact round_trip_protocol sound rfl protocol (by decide) (by decide) (by decide) (fun _ => 20) [1, 2, 3]

/-- A response that is one byte too large. -/
def oversized : List Byte := buildFrame v5ResponseControl 123456789 7 (List.replicate 500 0)

/-- A connection over which one frame arrives. -/
def oneFrame (frame : List Byte) : Conn where
  incoming := [.bytes frame]

theorem oneFrame_sound (frame : List Byte) : (oneFrame frame).Sound := by
  refine ⟨?_, ?_, rfl, rfl⟩
  · simp [Arriving, oneFrame]
  · simp [Taking, oneFrame]

/-- A response of 513 bytes is refused, and so is a round trip without a deadline. -/
theorem round_trip_refuses :
    (WellFormed oversized ∧ isLoggerProtocolFrame oversized = false ∧ oversized.length = 513 ∧
      (oneFrame oversized).Sound ∧ ((oneFrame oversized).roundTrip ⟨some 30, none⟩ (fun _ => 20) [1, 2, 3]).1 =
        .error (.malformedFrame "declared frame size 513 exceeds 512")) ∧
    (WellFormed (buildFrame v5ResponseControl 123456789 7 []) ∧
      (oneFrame (buildFrame v5ResponseControl 123456789 7 [])).Sound ∧
      ((oneFrame (buildFrame v5ResponseControl 123456789 7 [])).roundTrip ⟨none, none⟩ (fun _ => 20) [1, 2, 3]).1 =
        .error (.other "context deadline exceeded")) := by
  let sent : Conn := { oneFrame oversized with deadline := some 30, written := [1, 2, 3] }
  have start : (oneFrame oversized).roundTrip ⟨some 30, none⟩ (fun _ => 20) [1, 2, 3] =
      sent.receive ⟨some 30, none⟩ fun _ => 20 := rfl
  have read : (sent.readFrame ⟨some 30, none⟩).1 =
      .error (.malformedFrame "declared frame size 513 exceeds 512") := by decide +kernel
  refine ⟨⟨by decide +kernel, by decide +kernel, by decide +kernel, oneFrame_sound _, ?_⟩,
    by decide +kernel, oneFrame_sound _, rfl⟩
  rw [start, Conn.receive_failed read]

end Helio.Solarman
