import Helio.Machine.Run
import Helio.Soundness.Resynchronisation
import Mathlib.Data.List.Nodup

/-! # No cross-talk between reads

The gate lets one caller at a time send a request. Sequence bytes count from 1 to 255 and start over, so
two attempts share one only when they are 255 apart. A frame that answers one of the 254 attempts before
is never taken for the answer to the current one.
-/

namespace Helio.Solarman

/-- The sequence byte of an attempt, counted from the first. -/
def sequenceAt (number : ℕ) : Byte := BitVec.ofNat 8 (number % 255 + 1)

private theorem sequenceAt_toNat (number : ℕ) : (sequenceAt number).toNat = number % 255 + 1 := by
  rw [sequenceAt, BitVec.toNat_ofNat]
  omega

private theorem sequenceAt_ne_zero (number : ℕ) : sequenceAt number ≠ 0 := by
  intro zero
  have value := congrArg BitVec.toNat zero
  rw [sequenceAt_toNat] at value
  simp at value

/-- Attempts less than 255 apart have different sequence bytes. -/
private theorem sequenceAt_inj {first second : ℕ} (same : sequenceAt first = sequenceAt second)
    (before : first ≤ second) (near : second < first + 255) : first = second := by
  have values := congrArg BitVec.toNat same
  rw [sequenceAt_toNat, sequenceAt_toNat] at values
  omega

private theorem nextSequence_first : nextSequence 0 = sequenceAt 0 := by decide

private theorem nextSequence_at (number : ℕ) : nextSequence (sequenceAt number) = sequenceAt (number + 1) := by
  have value := sequenceAt_toNat number
  have one : (1 : Byte).toNat = 1 := rfl
  have none : (0 : Byte).toNat = 0 := rfl
  apply BitVec.eq_of_toNat_eq
  rw [sequenceAt_toNat, nextSequence]
  split
  · next wraps =>
    have zero := congrArg BitVec.toNat wraps
    rw [BitVec.toNat_add, value, one, none] at zero
    rw [one]
    omega
  · next goes =>
    have more : (sequenceAt number + 1).toNat ≠ 0 := fun zero => goes (BitVec.eq_of_toNat_eq zero)
    rw [BitVec.toNat_add, value, one] at more ⊢
    omega

/-- The round trip returns the first frame that is not the logger's own protocol. -/
private theorem receive_wire {wire rest : List Arrival} {arrival : Arrival}
    (next : wire.dropWhile (fun arrival => isLoggerProtocolFrame arrival.bytes) = arrival :: rest) (ended : String)
    (now : ℤ) (written : List (List Byte)) :
    ∃ sent, receive ended now none ⟨wire.flatMap (·.bytes), written⟩ =
      (.ok arrival.bytes, ⟨rest.flatMap (·.bytes), sent⟩) := by
  induction wire generalizing written with
  | nil => cases next
  | cons first wire ih =>
    rw [List.flatMap_cons, receive_whole first.whole]
    rw [List.dropWhile_cons] at next
    split at next
    · next own =>
      rw [if_pos own]
      exact ih next _
    · next response =>
      cases next
      rw [if_neg response]
      exact ⟨written, rfl⟩

/-- A response whose registers are accepted carries the expected sequence byte. -/
private theorem carried {serial : BitVec 32} {sequence : Byte} {metadata : List Byte} {slave : Byte} {high : Byte}
    {registers : List Register} :
    (responseFrame serial (high ++ sequence) metadata slave registers)[5]? = some sequence :=
  congrArg some (BitVec.extractLsb'_append_eq_right)

/-- Registers that a call returns stand in a read response with its sequence byte. -/
private theorem frame_of_judge {serial : BitVec 32} {sequence : Byte} {call : Call} {bytes : List Byte}
    {registers : List Register} (judged : judge serial sequence call (.ok bytes) = .returned (.ok registers)) :
    ∃ (high : Byte) (metadata : List Byte), metadata.length = 12 ∧
      bytes = responseFrame serial (high ++ sequence) metadata call.slave registers := by
  cases parsed : parseReadResponse bytes serial (sequence.setWidth 16) call.slave call.count with
  | ok found =>
    simp only [judge, Except.ok_bind, parsed, Checked.result] at judged
    cases judged
    obtain ⟨-, -, -, high, metadata, size, frame⟩ := responseFrame_of_parse parsed
    rw [low_of_wide] at frame
    exact ⟨high, metadata, size, frame⟩
  | error fault =>
    cases fault with
    | outOfRange =>
      simp only [judge, Except.ok_bind, parsed, Checked.result] at judged
      cases judged
    | failed e =>
      simp only [judge, Except.ok_bind, parsed, Checked.result] at judged
      split at judged
      · cases judged
      · cases judged

/-- The frame that is read next belongs to the current attempt or to one of the 254 before it. -/
def Recent (m : Machine) : Action → Prop
  | .receive _ _ => ∀ arrival ∈ m.next.head?, m.sequences.length ≤ arrival.attempt + 255
  | _ => True

/-- The sequence byte after some attempts. -/
def sequenceAfter : ℕ → Byte
  | 0 => 0
  | number + 1 => sequenceAt number

/-- A successful call has the registers of a response to its own attempt. -/
structure Success.Own (s : Success) (serial : BitVec 32) : Prop where
  attempt : s.response.attempt = s.number
  sequence : s.sequence = sequenceAt s.number
  frame : ∃ (high : Byte) (metadata : List Byte), metadata.length = 12 ∧
    s.response.bytes = responseFrame serial (high ++ s.sequence) metadata s.call.slave s.registers

/-- What holds of the callers and the connection at any time. -/
structure Machine.Sound (serial : BitVec 32) (m : Machine) : Prop where
  cycle : m.sequences = (List.range m.sequences.length).map sequenceAt
  current : m.client.sequence = sequenceAfter m.sequences.length
  stream : (m.client.conn.getD {}).unread = m.wire.flatMap (·.bytes)
  marked : ∀ arrival ∈ m.wire, arrival.attempt < m.sequences.length ∧
    (isLoggerProtocolFrame arrival.bytes ∨ arrival.bytes[5]? = some (sequenceAt arrival.attempt))
  free : m.gate = true → ∀ caller, ¬ (m.phase caller).Holds
  exclusive : ∀ first second, (m.phase first).Holds → (m.phase second).Holds → first = second
  flight : ∀ caller call tries number sequence, m.phase caller = .flying call tries number sequence →
    number + 1 = m.sequences.length ∧ sequence = sequenceAt number
  own : ∀ s ∈ m.successes, s.Own serial ∧ s.number < m.sequences.length

namespace Machine.Sound

variable {serial : BitVec 32} {m : Machine} {caller : ℕ} {call : Call} {tries : ℕ}

/-- A caller changes its phase, alone at the gate if it holds it. -/
private theorem rephase (sound : m.Sound serial) {phase : Phase} {gate : Bool}
    (alone : gate = true ∨ phase.Holds → ∀ other ≠ caller, ¬ (m.phase other).Holds)
    (returned : gate = true → ¬ phase.Holds)
    (flies : ∀ call tries number sequence, phase = .flying call tries number sequence →
      number + 1 = m.sequences.length ∧ sequence = sequenceAt number) :
    ({ m.enter caller phase with gate } : Machine).Sound serial := by
  refine ⟨sound.cycle, sound.current, sound.stream, sound.marked, ?_, ?_, ?_, sound.own⟩
  · intro opened other
    change ¬ (Function.update m.phase caller phase other).Holds
    rcases eq_or_ne other caller with rfl | different
    · rw [Function.update_self]
      exact returned opened
    · rw [Function.update_of_ne different]
      exact alone (Or.inl opened) other different
  · intro first second
    change (Function.update m.phase caller phase first).Holds → (Function.update m.phase caller phase second).Holds → _
    rcases eq_or_ne first caller with rfl | left
    · rcases eq_or_ne second first with rfl | right
      · exact fun _ _ => rfl
      · rw [Function.update_self, Function.update_of_ne right]
        intro mine other
        exact absurd other (alone (Or.inr mine) second right)
    · rcases eq_or_ne second caller with rfl | right
      · rw [Function.update_self, Function.update_of_ne left]
        intro other mine
        exact absurd other (alone (Or.inr mine) first left)
      · rw [Function.update_of_ne left, Function.update_of_ne right]
        exact sound.exclusive first second
  · intro other call tries number sequence
    change Function.update m.phase caller phase other = _ → _
    rcases eq_or_ne other caller with rfl | different
    · rw [Function.update_self]
      exact flies call tries number sequence
    · rw [Function.update_of_ne different]
      exact sound.flight other call tries number sequence

private theorem alone (sound : m.Sound serial) (holder : (m.phase caller).Holds) :
    ∀ other ≠ caller, ¬ (m.phase other).Holds :=
  fun other different holds => different (sound.exclusive other caller holds holder)

private theorem closed (sound : m.Sound serial) (holder : (m.phase caller).Holds) : ¬ m.gate = true :=
  fun opened => sound.free opened caller holder

theorem release (sound : m.Sound serial) (holder : (m.phase caller).Holds) : (m.release caller).Sound serial :=
  sound.rephase (fun _ => sound.alone holder) (fun _ => id) (fun _ _ _ _ flying => (by cases flying))

theorem retry (sound : m.Sound serial) (holder : (m.phase caller).Holds) : (m.retry caller call tries).Sound serial := by
  unfold Machine.retry
  split
  · exact sound.rephase (fun _ => sound.alone holder) (fun opened => absurd opened (sound.closed holder))
      (fun _ _ _ _ flying => (by cases flying))
  · exact sound.release holder

theorem invalidate (sound : m.Sound serial) : m.invalidate.Sound serial :=
  ⟨sound.cycle, sound.current, rfl, fun _ none => absurd none List.not_mem_nil, sound.free, sound.exclusive,
    sound.flight, sound.own⟩

/-- Reading takes frames off the front of the connection. -/
theorem read (sound : m.Sound serial) {rest : List Arrival} {sent : List (List Byte)} (suffix : rest <:+ m.wire) :
    (m.read ⟨rest.flatMap (·.bytes), sent⟩ rest).Sound serial :=
  ⟨sound.cycle, sound.current, rfl, fun arrival member => sound.marked arrival (suffix.subset member), sound.free,
    sound.exclusive, sound.flight, sound.own⟩

private theorem nextSequence_after (number : ℕ) : nextSequence (sequenceAfter number) = sequenceAt number := by
  cases number with
  | zero => exact nextSequence_first
  | succ number => exact nextSequence_at number

/-- A caller that is not in flight takes the next sequence byte. -/
theorem issue (sound : m.Sound serial) (holder : m.phase caller = .trying call tries) : m.issue.Sound serial := by
  have next : nextSequence m.client.sequence = sequenceAt m.sequences.length := by
    rw [sound.current, nextSequence_after]
  have length : m.issue.sequences.length = m.sequences.length + 1 := List.length_append
  refine ⟨?_, ?_, sound.stream, fun arrival member => ?_, sound.free, sound.exclusive, ?_, fun s member => ?_⟩
  · rw [length, List.range_succ, List.map_append, ← sound.cycle]
    change m.sequences ++ [nextSequence m.client.sequence] = _
    rw [next]
    rfl
  · rw [length]
    exact next
  · obtain ⟨sent, marks⟩ := sound.marked arrival member
    exact ⟨by omega, marks⟩
  · intro other call tries number sequence flying
    have holds : (m.phase other).Holds := by
      change m.phase other = _ at flying
      rw [flying]
      trivial
    have mine : (m.phase caller).Holds := by
      rw [holder]
      trivial
    obtain rfl := sound.exclusive other caller holds mine
    change m.phase other = _ at flying
    rw [holder] at flying
    cases flying
  · obtain ⟨own, before⟩ := sound.own s member
    exact ⟨own, by omega⟩

/-- The holder of the gate sends its request with the newest sequence byte. -/
theorem fly (sound : m.Sound serial) (holder : (m.phase caller).Holds) (issued : m.sequences ≠ []) (request : List Byte) :
    (m.fly caller call tries request).Sound serial := by
  have some : 0 < m.sequences.length := List.length_pos_iff.mpr issued
  have current : m.client.sequence = sequenceAt (m.sequences.length - 1) := by
    rw [sound.current]
    obtain ⟨number, size⟩ := Nat.exists_eq_succ_of_ne_zero some.ne'
    rw [size]
    rfl
  have flies : (m.enter caller (.flying call tries (m.sequences.length - 1) m.client.sequence)).Sound serial := by
    apply sound.rephase (fun _ => sound.alone holder) (fun opened => absurd opened (sound.closed holder))
    intro _ _ _ _ same
    cases same
    exact ⟨by omega, current⟩
  exact ⟨flies.cycle, flies.current, flies.stream, flies.marked, flies.free, flies.exclusive, flies.flight, flies.own⟩

private theorem enter (sound : m.Sound serial) {phase : Phase} (aside : ¬ phase.Holds) : (m.enter caller phase).Sound serial := by
  apply sound.rephase (fun either other _ => sound.free (either.resolve_right aside) other) (fun _ => aside)
  rintro _ _ _ _ rfl
  exact absurd trivial aside

private theorem sequences_at (sound : m.Sound serial) {attempt : ℕ} (begun : attempt < m.sequences.length) :
    m.sequences[attempt]? = some (sequenceAt attempt) := by
  rw [sound.cycle, List.getElem?_map, List.getElem?_range begun]
  rfl

private theorem arrive (sound : m.Sound serial) {arrival : Arrival} {conn : Connection} (live : m.client.conn = some conn)
    (begun : arrival.attempt < m.sequences.length)
    (marks : isLoggerProtocolFrame arrival.bytes ∨ arrival.bytes[5]? = m.sequences[arrival.attempt]?) :
    ({ m with
        client := { m.client with conn := some { conn with unread := conn.unread ++ arrival.bytes } }
        wire := m.wire ++ [arrival] } : Machine).Sound serial := by
  refine ⟨sound.cycle, sound.current, ?_, fun other member => ?_, sound.free, sound.exclusive, sound.flight, sound.own⟩
  · have stream := sound.stream
    rw [live] at stream
    change conn.unread ++ arrival.bytes = _
    rw [List.flatMap_append, ← stream, List.flatMap_singleton]
    rfl
  · rcases List.mem_append.mp member with waiting | added
    · exact sound.marked other waiting
    · obtain rfl := List.mem_singleton.mp added
      rw [sound.sequences_at begun] at marks
      exact ⟨begun, marks⟩

private theorem send (sound : m.Sound serial) {dialFails : Option String} {after : Machine}
    (moved : m.send serial caller dialFails = some after) : after.Sound serial := by
  unfold Machine.send at moved
  split at moved
  · next call tries phase =>
    have issued := sound.issue phase
    have holder : (m.issue.phase caller).Holds := by
      change (m.phase caller).Holds
      rw [phase]
      trivial
    have some : m.issue.sequences ≠ [] := List.append_ne_nil_of_right_ne_nil _ (List.cons_ne_nil _ _)
    dsimp only at moved
    split at moved
    · cases moved
      exact issued.release holder
    · split at moved
      · cases moved
        exact issued.retry holder
      · cases moved
        exact issued.fly holder some _
  · cases moved

/-- The next response carries the sequence byte of the attempt it answers. -/
private theorem marked_sequence (sound : m.Sound serial) {arrival : Arrival} {rest : List Arrival}
    (next : m.next = arrival :: rest) {sequence : Byte} {registers : List Register}
    (judged : judge serial sequence call (.ok arrival.bytes) = .returned (.ok registers)) :
    sequenceAt arrival.attempt = sequence := by
  have member : arrival ∈ m.wire := by
    apply (List.dropWhile_suffix fun arrival : Arrival => isLoggerProtocolFrame arrival.bytes).subset
    change arrival ∈ m.next
    rw [next]
    exact List.mem_cons_self
  have response := List.head?_dropWhile_not (fun arrival : Arrival => isLoggerProtocolFrame arrival.bytes) m.wire
  rw [Machine.next] at next
  rw [next] at response
  obtain ⟨-, own | marks⟩ := sound.marked arrival member
  · exact absurd own (by rw [response]; exact Bool.false_ne_true)
  · obtain ⟨high, metadata, -, bytes⟩ := frame_of_judge judged
    rw [bytes, carried] at marks
    exact (Option.some.inj marks).symm

/-- The frame a round trip returns answers the caller's own attempt if its registers are accepted. -/
private theorem receive (sound : m.Sound serial) {now : ℤ} {after : Machine} (recent : Recent m (.receive caller now))
    (moved : m.receive serial caller now = some after) : after.Sound serial := by
  unfold Machine.receive at moved
  split at moved
  · next call tries number sequence arrival rest phase next =>
    have holder : (m.phase caller).Holds := by
      rw [phase]
      trivial
    obtain ⟨size, byte⟩ := sound.flight caller call tries number sequence phase
    have suffix : arrival :: rest <:+ m.wire := by
      rw [← next]
      exact List.dropWhile_suffix _
    obtain ⟨sent, frames⟩ := receive_wire next "i/o timeout" now (m.client.conn.getD {}).written
    rw [← sound.stream] at frames
    have frames : Solarman.receive "i/o timeout" now none (m.client.conn.getD {}) =
      (.ok arrival.bytes, ⟨rest.flatMap (·.bytes), sent⟩) := frames
    have reads : (m.read ⟨rest.flatMap (·.bytes), sent⟩ rest).Sound serial :=
      sound.read ((List.suffix_cons arrival rest).trans suffix)
    rw [frames] at moved
    dsimp only at moved
    split at moved
    · next registers judged =>
      cases moved
      have released : ((m.read ⟨rest.flatMap (·.bytes), sent⟩ rest).release caller).Sound serial := reads.release holder
      refine ⟨released.cycle, released.current, released.stream, released.marked, released.free, released.exclusive,
        released.flight, fun s member => ?_⟩
      rcases List.mem_append.mp member with before | added
      · exact released.own s before
      · obtain rfl := List.mem_singleton.mp added
        have latest : arrival ∈ m.next.head? := by
          rw [next]
          rfl
        have near := recent arrival latest
        have begun := (sound.marked arrival (suffix.subset List.mem_cons_self)).1
        refine ⟨⟨?_, byte, frame_of_judge judged⟩, by change number < m.sequences.length; omega⟩
        have same : sequenceAt arrival.attempt = sequenceAt number := by
          rw [← byte]
          exact sound.marked_sequence next judged
        have attempt : arrival.attempt = number := sequenceAt_inj same (by omega) (by omega)
        exact attempt
    · cases moved
      exact reads.release holder
    · cases moved
      exact sound.invalidate.retry holder
  · cases moved

theorem next (sound : m.Sound serial) {action : Action} {after : Machine} (recent : Recent m action)
    (moved : m.act serial action = some after) : after.Sound serial := by
  cases action with
  | send caller dialFails => exact sound.send moved
  | receive caller now => exact sound.receive recent moved
  | call caller call =>
    simp only [Machine.act] at moved
    split at moved
    · next phase =>
      cases moved
      exact sound.enter id
    · cases moved
  | giveUp caller =>
    simp only [Machine.act] at moved
    split at moved
    · next call phase =>
      cases moved
      exact sound.enter id
    · cases moved
  | acquire caller =>
    simp only [Machine.act] at moved
    split at moved
    · next call phase =>
      split at moved
      · next opened =>
        cases moved
        exact sound.rephase (fun _ other _ => sound.free opened other) (fun closed => (by cases closed))
          (fun _ _ _ _ flying => (by cases flying))
      · cases moved
    · cases moved
  | expire caller =>
    simp only [Machine.act] at moved
    split at moved
    · next call tries phase =>
      cases moved
      apply sound.release
      rw [phase]
      trivial
    · cases moved
  | arrive arrival =>
    simp only [Machine.act] at moved
    split at moved
    · next conn live =>
      split at moved
      · next marks =>
        cases moved
        exact sound.arrive live marks.1 marks.2
      · cases moved
    · cases moved
  | fail caller e =>
    simp only [Machine.act] at moved
    split at moved
    · next call tries number sequence phase =>
      split at moved
      · cases moved
        apply sound.invalidate.retry
        change (m.phase caller).Holds
        rw [phase]
        trivial
      · cases moved
    · cases moved

end Machine.Sound

private theorem sound_of_run {serial : BitVec 32} {actions : List Action} {m : Machine}
    (run : Run (Guarded Recent (Enabled (Machine.act serial))) {} actions m) : m.Sound serial := by
  have start : ({} : Machine).Sound serial :=
    ⟨rfl, rfl, rfl, fun _ none => absurd none List.not_mem_nil, fun _ _ => id, fun _ _ idle _ => absurd idle id,
      fun _ _ _ _ _ flying => (by cases flying), fun _ none => absurd none List.not_mem_nil⟩
  apply run.invariant start
  rintro before action after sound ⟨recent, moved⟩
  exact sound.next recent moved

private theorem mem_window {start count width number : ℕ} (member : number ∈ (List.range' start count).take width) :
    start ≤ number ∧ number < start + width := by
  obtain ⟨i, within, rfl⟩ := List.getElem_of_mem member
  rw [List.length_take] at within
  rw [List.getElem_take, List.getElem_range']
  omega

/-- Any 255 attempts in a row have different sequence bytes. -/
private theorem sequences_distinct {serial : BitVec 32} {m : Machine} (sound : m.Sound serial) (start : ℕ) :
    ((m.sequences.drop start).take 255).Nodup := by
  rw [sound.cycle, ← List.map_drop, ← List.map_take, List.range_eq_range', List.drop_range']
  apply List.Nodup.map_on _ (List.Nodup.sublist (List.take_sublist _ _) List.nodup_range')
  intro first left second right same
  have left := mem_window left
  have right := mem_window right
  rcases le_total first second with before | before
  · exact sequenceAt_inj same before (by omega)
  · exact (sequenceAt_inj same.symm before (by omega)).symm

private theorem sequences_nonzero {serial : BitVec 32} {m : Machine} (sound : m.Sound serial) : 0 ∉ m.sequences := by
  rw [sound.cycle]
  rintro zero
  obtain ⟨number, -, same⟩ := List.mem_map.mp zero
  exact sequenceAt_ne_zero number same

/-- In every run of any callers, with frames that are at most 254 attempts late, a successful call has the
registers of a response to its own attempt, one request at a time is in flight, and the sequence bytes of
255 attempts in a row differ and are not zero. -/
theorem no_cross_talk {serial : BitVec 32} {actions : List Action} {m : Machine}
    (run : Run (Guarded Recent (Enabled (Machine.act serial))) {} actions m) :
    (∀ s ∈ m.successes, s.response.attempt = s.number ∧ m.sequences[s.number]? = some s.sequence ∧
      ∃ (high : Byte) (metadata : List Byte), metadata.length = 12 ∧
        s.response.bytes = responseFrame serial (high ++ s.sequence) metadata s.call.slave s.registers) ∧
    (∀ first second, (m.phase first).InFlight → (m.phase second).InFlight → first = second) ∧
    (∀ start, ((m.sequences.drop start).take 255).Nodup) ∧ 0 ∉ m.sequences := by
  have sound := sound_of_run run
  refine ⟨fun s member => ?_, fun first second flies also => ?_, sequences_distinct sound, sequences_nonzero sound⟩
  · obtain ⟨⟨attempt, sequence, frame⟩, begun⟩ := sound.own s member
    refine ⟨attempt, ?_, frame⟩
    rw [sequence]
    exact sound.sequences_at begun
  · have holds {phase : Phase} (flying : phase.InFlight) : phase.Holds := by
      cases phase with
      | flying => trivial
      | _ => exact flying.elim
    exact sound.exclusive first second (holds flies) (holds also)

instance (m : Machine) : (action : Action) → Decidable (Recent m action)
  | .receive _ _ => inferInstanceAs (Decidable (∀ arrival ∈ m.next.head?, _))
  | .call _ _ => isTrue trivial
  | .giveUp _ => isTrue trivial
  | .acquire _ => isTrue trivial
  | .expire _ => isTrue trivial
  | .send _ _ => isTrue trivial
  | .arrive _ => isTrue trivial
  | .fail _ _ => isTrue trivial

/-- The first response of a logger. -/
def firstResponse : Arrival where
  attempt := 0
  bytes := responseFrame 123456789 1 (List.replicate 12 0) 1 [0x1234]
  whole := by decide +kernel

/-- Two callers; the response to the first arrives twice, and its second copy meets the other caller. -/
def twoReads : List Action :=
  [.call 0 ⟨1, 0x0404, 1⟩, .call 1 ⟨1, 0x0404, 1⟩, .acquire 0, .send 0 none, .arrive firstResponse, .arrive firstResponse,
    .receive 0 0, .acquire 1, .send 1 none, .receive 1 0]

theorem two_reads_apart :
    ∃ m : Machine, m.successes.length = 1 ∧ ∀ s ∈ m.successes, s.response.attempt = s.number := by
  have ran : (twoReads.foldlM (fun m action => if Recent m action then Machine.act 123456789 m action else none) {}).map
      (fun m => decide (m.successes.length = 1)) = some true := by decide +kernel
  obtain ⟨m, run, one⟩ := Option.map_eq_some_iff.mp ran
  exact ⟨m, of_decide_eq_true one, fun s member => ((no_cross_talk (Run.of_guarded_foldlM run)).1 s member).1⟩

end Helio.Solarman
