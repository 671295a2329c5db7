import Helio.Machine.Run
import Helio.Model.SolarmanRecovery
import Helio.Soundness.CollectorSteps
import Helio.Soundness.LatestSlot

/-! # Recoveries after an outage

The slot keeps the latest event only. So a mark that was not received yet is lost when the next success
is published, and the snapshot that would start a recovery when any other event is. The marks are
published by another goroutine than the successes, so that a mark can also come after the success that
ends it. In all other runs every success after a stale state is followed by a call.
-/

namespace Helio.Collector

open Calendar

/-- The loop does something with the event. -/
def ActsOn (offline : Bool) (event : Event) : Prop :=
  if event.state.stale then offline = false else event.kind = .snapshot ∧ offline = true

instance (offline : Bool) (event : Event) : Decidable (ActsOn offline event) :=
  inferInstanceAs (Decidable (if event.state.stale then _ else _))

/-- A later event says of the inverter what the earlier one says. -/
def Repeats (old new : Event) : Prop :=
  new.state.stale = old.state.stale ∧ (old.state.stale = true ∨ new.kind = .snapshot)

instance (old new : Event) : Decidable (Repeats old new) := inferInstanceAs (Decidable (_ ∧ _))

namespace Machine

/-- The monitor has marked the state and has not published the mark. -/
def isMarking (m : Machine) : Bool :=
  match m.monitor with
  | .publishing _ => true
  | _ => false

end Machine

namespace Recovery

variable (s : Recovery)

/-- No event that the loop would act on is replaced by one that says something else, and a success is
published when every mark was, and before the next one is made. -/
def InStep : RecoveryAction → Prop
  | .receive => True
  | .collector action =>
    (match s.slot, (s.machine.act action).bind Prod.snd with
      | some old, some new => ActsOn s.offline old → Repeats old new
      | _, _ => True) ∧
    (action = .publishSuccess → s.machine.state.stale = false ∧ s.machine.isMarking = false)

instance : ∀ action, Decidable (s.InStep action)
  | .receive => isTrue trivial
  | .collector action => by
    unfold InStep
    have : Decidable (match s.slot, (s.machine.act action).bind Prod.snd with
        | some old, some new => ActsOn s.offline old → Repeats old new
        | _, _ => True) := by
      split <;> infer_instance
    infer_instance

/-- The loop counts the inverter as offline, or will when it receives the unread event. -/
def IsAlert : Prop := s.offline = true ∨ ∃ event, s.slot = some event ∧ event.state.stale = true

/-- The unread event is a snapshot that ends an outage. -/
def HoldsSnapshot : Prop := ∃ event, s.slot = some event ∧ event.state.stale = false ∧ event.kind = .snapshot

/-- What the loop and the slot know of the collector. -/
structure Sound (s : Recovery) : Prop where
  success : ∀ event, s.machine.run = .publishingSuccess event → event.kind = .snapshot ∧ event.state.stale = false
  failure : ∀ event final, s.machine.run = .publishingError event final → event.kind = .state
  mark : ∀ event, s.machine.monitor = .publishing event → event.kind = .state ∧ event.state.stale = true
  idle : s.machine.run = .stopped → s.machine.monitor = .done
  counted : ∀ earlier ∈ s.recoveries, earlier ≤ s.scheduled
  heard : s.machine.state.stale = true → s.machine.isMarking = false → s.IsAlert
  latest : s.HoldsSnapshot → s.machine.state.stale = true → s.machine.isMarking = true
  owed : s.scheduled ∈ s.recoveries →
    (s.isAnnouncing = true ∧ (s.IsAlert ∨ s.machine.isMarking = true)) ∨ (s.offline = true ∧ s.HoldsSnapshot)

variable {s t : Recovery} {next : Machine} {action : Action} {event : Event}

section Slot

/-- What a step does to the slot that the hub gives out. -/
def slotMoves (s : Recovery) : RecoveryAction → List (SlotMove Event)
  | .collector action => ((s.machine.act action).bind Prod.snd).toList.map .publish
  | .receive => s.slot.toList.map .receive

/-- The slot is moved as the hub moves the channel of a subscriber: what the collector publishes
replaces the unread event, and a receive takes it. -/
theorem step_slot {event : RecoveryAction} (stepped : s.step event = some t) :
    Run slotStep s.slot (s.slotMoves event) t.slot := by
  cases event with
  | collector action =>
    obtain ⟨⟨next, event?⟩, acted, rfl⟩ := Option.map_eq_some_iff.mp stepped
    rw [slotMoves, acted]
    cases event? with
    | none => exact .start
    | some event => exact Run.start.step rfl
  | receive =>
    obtain ⟨event, unread, rfl⟩ := Option.map_eq_some_iff.mp stepped
    rw [slotMoves, unread]
    exact Run.start.step ⟨rfl, rfl⟩

/-- The goroutine can receive what the hub lets a subscriber receive. -/
theorem receive_enabled {after : Option Event} (moves : slotStep s.slot (.receive event) after) :
    ∃ t, s.step .receive = some t ∧ t.slot = after := by
  obtain ⟨unread, rfl⟩ := moves
  exact ⟨_, by rw [step, unread, Option.map_some], rfl⟩

end Slot

/-- Receiving the unread event. -/
theorem Sound.receive (sound : s.Sound) (unread : s.slot = some event) :
    Sound { s with
      slot := none
      offline := (handleRecovery s.offline event).1
      scheduled := if (handleRecovery s.offline event).2 then s.scheduled + 1 else s.scheduled } := by
  by_cases stale : event.state.stale = true
  · have handled : handleRecovery s.offline event = (true, false) := if_pos stale
    rw [handled]
    refine { sound with heard := fun _ _ => Or.inl rfl, latest := ?_, owed := fun pending => ?_ }
    · rintro ⟨other, here, -⟩
      cases here
    · rcases sound.owed pending with ⟨announcing, -⟩ | ⟨-, other, here, fresh, -⟩
      · exact Or.inl ⟨announcing, Or.inl (Or.inl rfl)⟩
      · rw [unread] at here
        cases here
        rw [stale] at fresh
        cases fresh
  · by_cases starts : event.kind = .snapshot ∧ s.offline = true
    · have handled : handleRecovery s.offline event = (false, true) := (if_neg stale).trans (if_pos starts)
      have holds : s.HoldsSnapshot := ⟨event, unread, Bool.eq_false_iff.mpr stale, starts.1⟩
      rw [handled]
      refine { sound with counted := ?_, heard := ?_, latest := ?_, owed := ?_ }
      · exact fun earlier member => Nat.le_succ_of_le (sound.counted earlier member)
      · intro marked published
        rw [sound.latest holds marked] at published
        cases published
      · rintro ⟨other, here, -⟩
        cases here
      · exact fun pending => absurd (sound.counted _ pending) (Nat.not_succ_le_self _)
    · have handled : handleRecovery s.offline event = (s.offline, false) := (if_neg stale).trans (if_neg starts)
      have offline : s.IsAlert → s.offline = true := by
        rintro (offline | ⟨other, here, marked⟩)
        · exact offline
        · rw [unread] at here
          cases here
          exact absurd marked stale
      rw [handled]
      refine { sound with heard := ?_, latest := ?_, owed := fun pending => ?_ }
      · exact fun marked published => Or.inl (offline (sound.heard marked published))
      · rintro ⟨other, here, -⟩
        cases here
      · rcases sound.owed pending with ⟨announcing, known⟩ | ⟨off, other, here, -, kind⟩
        · exact Or.inl ⟨announcing, known.imp_left fun alert => Or.inl (offline alert)⟩
        · rw [unread] at here
          cases here
          exact absurd ⟨kind, off⟩ starts

/-- A step of the collector that publishes nothing, records no success and marks nothing. -/
theorem Sound.quiet (sound : s.Sound)
    (success : ∀ event, next.run = .publishingSuccess event → s.machine.run = .publishingSuccess event)
    (failure : ∀ event final, next.run = .publishingError event final → event.kind = .state)
    (mark : ∀ event, next.monitor = .publishing event → s.machine.monitor = .publishing event)
    (idle : next.run = .stopped → next.monitor = .done)
    (stale : next.state.stale = s.machine.state.stale)
    (announcing : ({ s with machine := next } : Recovery).isAnnouncing = s.isAnnouncing)
    (marking : next.isMarking = s.machine.isMarking) : Sound { s with machine := next } where
  success event point := sound.success event (success event point)
  failure := failure
  mark event point := sound.mark event (mark event point)
  idle := idle
  counted := sound.counted
  heard marked published := sound.heard (stale ▸ marked) (marking ▸ published)
  latest holds marked := marking ▸ sound.latest holds (stale ▸ marked)
  owed pending := by
    rw [announcing, marking]
    exact sound.owed pending

section Publish

variable {new : Event} (allowed : ∀ old, s.slot = some old → ActsOn s.offline old → Repeats old new)

include allowed

/-- What the loop knows or will learn of an outage is not lost with a replaced event. -/
theorem IsAlert.kept (alert : s.IsAlert) : s.offline = true ∨ new.state.stale = true := by
  rcases alert with offline | ⟨old, unread, stale⟩
  · exact Or.inl offline
  · by_cases offline : s.offline = true
    · exact Or.inl offline
    · have acts : ActsOn s.offline old := by
        rw [ActsOn, if_pos stale]
        exact Bool.eq_false_iff.mpr offline
      exact Or.inr ((allowed old unread acts).1.trans stale)

theorem HoldsSnapshot.kept (holds : s.HoldsSnapshot) (offline : s.offline = true) :
    new.kind = .snapshot ∧ new.state.stale = false := by
  obtain ⟨old, unread, fresh, kind⟩ := holds
  have acts : ActsOn s.offline old := by
    rw [ActsOn, if_neg (by rw [fresh]; exact Bool.false_ne_true)]
    exact ⟨kind, offline⟩
  obtain ⟨same, repeated⟩ := allowed old unread acts
  rw [fresh] at same repeated
  exact ⟨repeated.resolve_left Bool.false_ne_true, same⟩

/-- Publishing a state event. -/
theorem Sound.publish_state (sound : s.Sound) (kind : new.kind = .state)
    (success : ∀ event, next.run = .publishingSuccess event → s.machine.run = .publishingSuccess event)
    (failure : ∀ event final, next.run = .publishingError event final → event.kind = .state)
    (mark : ∀ event, next.monitor = .publishing event → s.machine.monitor = .publishing event)
    (idle : next.run = .stopped → next.monitor = .done)
    (stale : next.state.stale = s.machine.state.stale)
    (announcing : ({ s with machine := next, slot := some new } : Recovery).isAnnouncing = s.isAnnouncing)
    (marking : next.isMarking = s.machine.isMarking ∨ new.state.stale = true) :
    Sound { s with machine := next, slot := some new } where
  success event point := sound.success event (success event point)
  failure := failure
  mark event point := sound.mark event (mark event point)
  idle := idle
  counted := sound.counted
  heard marked published := by
    rcases marking with marking | said
    · exact (IsAlert.kept allowed (sound.heard (stale ▸ marked) (marking ▸ published))).imp_right
        fun said => ⟨new, rfl, said⟩
    · exact Or.inr ⟨new, rfl, said⟩
  latest holds := by
    obtain ⟨event, here, -, snapshot⟩ := holds
    cases here
    rw [kind] at snapshot
    cases snapshot
  owed pending := by
    rw [announcing]
    rcases sound.owed pending with ⟨announces, alert | marks⟩ | ⟨offline, holds⟩
    · exact Or.inl ⟨announces, Or.inl ((IsAlert.kept allowed alert).imp_right fun said => ⟨new, rfl, said⟩)⟩
    · rcases marking with marking | said
      · exact Or.inl ⟨announces, Or.inr (marking.trans marks)⟩
      · exact Or.inl ⟨announces, Or.inl (Or.inr ⟨new, rfl, said⟩)⟩
    · rw [(HoldsSnapshot.kept allowed holds offline).1] at kind
      cases kind

/-- Publishing a success while no mark is under way. -/
theorem Sound.publish_success (sound : s.Sound) (point : s.machine.run = .publishingSuccess new)
    (unmarked : s.machine.state.stale = false ∧ s.machine.isMarking = false) :
    Sound { s with
      machine := { s.machine with run := .signalling new.state.lastSuccess }
      slot := some new } where
  success event point := by cases point
  failure event final point := by cases point
  mark := sound.mark
  idle point := by cases point
  counted := sound.counted
  heard marked := by
    rw [unmarked.1] at marked
    cases marked
  latest _ marked := by
    rw [unmarked.1] at marked
    cases marked
  owed pending := by
    obtain ⟨kind, fresh⟩ := sound.success new point
    refine Or.inr ⟨?_, new, rfl, fresh, kind⟩
    rcases sound.owed pending with ⟨-, alert | marks⟩ | ⟨offline, -⟩
    · refine (IsAlert.kept allowed alert).resolve_right ?_
      rw [fresh]
      exact Bool.false_ne_true
    · rw [unmarked.2] at marks
      cases marks
    · exact offline

end Publish

/-- A success is recorded; one that ends a stale state is a recovery that the loop has not answered. -/
theorem Sound.record (sound : s.Sound) {snapshot : Snapshot} {storageErrors : List String}
    (point : s.machine.run = .recording snapshot storageErrors) :
    Sound { s with
      machine := { s.machine with
        state := s.machine.succeeded snapshot storageErrors
        run := .publishingSuccess ⟨.snapshot, some snapshot, s.machine.succeeded snapshot storageErrors⟩ }
      recoveries := if s.endsOutage .recordSuccess then s.recoveries ++ [s.scheduled] else s.recoveries } where
  success event here := by
    cases here
    exact ⟨rfl, rfl⟩
  failure event final here := by cases here
  mark := sound.mark
  idle here := by cases here
  counted earlier member := by
    split at member
    · rcases List.mem_append.mp member with before | now
      · exact sound.counted earlier before
      · exact (List.mem_singleton.mp now).le
    · exact sound.counted earlier member
  heard stale := by cases stale
  latest _ stale := by cases stale
  owed pending := by
    have quiet : s.isAnnouncing = false := by simp [isAnnouncing, point]
    have still : s.scheduled ∈ s.recoveries → s.offline = true ∧ s.HoldsSnapshot := by
      intro before
      refine (sound.owed before).resolve_left ?_
      rw [quiet]
      exact fun announces => Bool.false_ne_true announces.1
    by_cases stale : s.machine.state.stale = true
    · left
      refine ⟨rfl, ?_⟩
      by_cases marking : s.machine.isMarking = true
      · exact Or.inr marking
      · exact Or.inl (sound.heard stale (Bool.eq_false_iff.mpr marking))
    · have same : s.endsOutage .recordSuccess = false := Bool.eq_false_iff.mpr stale
      rw [same] at pending
      exact Or.inr (still pending)

/-- The monitor marks the state. -/
theorem Sound.marks (sound : s.Sound) {deadline : ℤ} (monitor : s.machine.monitor = .marking deadline) :
    Sound { s with
      machine := { s.machine with
        state := s.machine.markedStale
        monitor := .publishing { kind := .state, state := s.machine.markedStale } } } where
  success := sound.success
  failure := sound.failure
  mark event here := by
    cases here
    refine ⟨rfl, ?_⟩
    dsimp only [Machine.markedStale]
    split <;> rfl
  idle here := by
    rw [sound.idle here] at monitor
    cases monitor
  counted := sound.counted
  heard _ marking := by cases marking
  latest _ _ := rfl
  owed pending := (sound.owed pending).imp_left fun announces => ⟨announces.1, Or.inr rfl⟩

/-- After a pause `Run` is neither publishing nor stopped. -/
theorem pause_quiet (m : Machine) (delay : ℤ) :
    (∀ event, (m.pause delay).run ≠ .publishingSuccess event) ∧
      (∀ event final, (m.pause delay).run ≠ .publishingError event final) ∧ (m.pause delay).run ≠ .stopped := by
  rcases pause_run m delay with ⟨wake, point⟩ | point <;> rw [point] <;> simp

theorem isAnnouncing_pause {m : Machine} {delay : ℤ} {slot : Option Event} :
    ({ s with machine := m.pause delay, slot := slot } : Recovery).isAnnouncing = false := by
  rcases pause_run m delay with ⟨wake, point⟩ | point <;> simp [isAnnouncing, point]

theorem Sound.collector {event? : Option Event} (sound : s.Sound) (moves : Moves s.machine action next event?)
    (allowed : ∀ old new, s.slot = some old → event? = some new → ActsOn s.offline old → Repeats old new)
    (unmarked : action = .publishSuccess → s.machine.state.stale = false ∧ s.machine.isMarking = false) :
    Sound { s with
      machine := next
      slot := event?.or s.slot
      recoveries := if s.endsOutage action then s.recoveries ++ [s.scheduled] else s.recoveries } := by
  cases moves with
  | tick | cancel => exact sound.quiet (fun _ => id) sound.failure (fun _ => id) sound.idle rfl rfl rfl
  | start point =>
    refine sound.quiet (fun _ here => by cases here) (fun _ _ here => by cases here) (fun _ here => by cases here)
      (fun here => by cases here) rfl ?_ ?_
    · simp [isAnnouncing, point, Machine.beginRun]
    · simp [Machine.isMarking, sound.idle point, Machine.beginRun]
  | wake point | readOk point | readError point | readCancelled point | store point | stop point
  | flushFailed point | flush point =>
    refine sound.quiet (fun _ here => by cases here) (fun _ _ here => by cases here) (fun _ => id)
      (fun here => by cases here) rfl ?_ rfl
    simp [isAnnouncing, point, Machine.save]
  | recordError point =>
    refine sound.quiet (fun _ here => by cases here) (fun _ _ here => ?_) (fun _ => id) (fun here => by cases here)
      rfl ?_ rfl
    · cases here
      rfl
    · simp [isAnnouncing, point]
  | signal point =>
    obtain ⟨success, failure, stopped⟩ := pause_quiet
      { s.machine with updates := _, backoff := s.machine.backoff.reset } s.machine.config.pollInterval
    refine sound.quiet (fun event here => absurd here (success event))
      (fun event final here => absurd here (failure event final)) (fun _ => id)
      (fun here => absurd here stopped) rfl ?_ rfl
    exact isAnnouncing_pause.trans (by simp [isAnnouncing, point])
  | endRun point monitor =>
    refine sound.quiet (fun _ here => by cases here) (fun _ _ here => by cases here) (fun _ => id)
      (fun _ => monitor) rfl ?_ rfl
    simp [isAnnouncing, point]
  | recordSuccess point => exact sound.record point
  | markStale monitor => exact sound.marks monitor
  | monitorStop monitor =>
    refine sound.quiet (fun _ => id) sound.failure (fun _ here => by cases here) (fun _ => rfl) rfl rfl ?_
    rcases monitor with waiting | ⟨deadline, wake, armed⟩
    · simp [Machine.isMarking, waiting]
    · simp [Machine.isMarking, armed]
  | receive monitor =>
    have idle : s.machine.run ≠ .stopped := by
      intro here
      rw [sound.idle here] at monitor
      rcases monitor with waiting | ⟨deadline, wake, armed⟩
      · cases waiting
      · cases armed
    refine sound.quiet (fun _ => id) sound.failure (fun _ here => ?_) (fun here => absurd here idle) rfl rfl ?_
    · dsimp only [Machine.deadline] at here
      split at here <;> cases here
    · have quiet : s.machine.isMarking = false := by
        rcases monitor with waiting | ⟨deadline, wake, armed⟩
        · simp [Machine.isMarking, waiting]
        · simp [Machine.isMarking, armed]
      rw [quiet]
      dsimp only [Machine.isMarking, Machine.deadline]
      split
      · split at * <;> simp_all
      · rfl
  | expired monitor | arm monitor | timer monitor | spare monitor =>
    refine sound.quiet (fun _ => id) sound.failure (fun _ here => by cases here) (fun here => ?_) rfl rfl ?_
    · rw [sound.idle here] at monitor
      cases monitor
    · simp [Machine.isMarking, monitor]
  | publishError point =>
    obtain ⟨success, failure, stopped⟩ := pause_quiet
      { s.machine with backoff := s.machine.backoff.take.2 } s.machine.backoff.take.1
    refine sound.publish_state (fun old unread => allowed old _ unread rfl) (sound.failure _ _ point)
      (fun event here => absurd here (success event)) (fun event final here => absurd here (failure event final))
      (fun _ => id) (fun here => absurd here stopped) rfl ?_ (Or.inl rfl)
    exact isAnnouncing_pause.trans (by simp [isAnnouncing, point])
  | publishFinal point =>
    refine sound.publish_state (fun old unread => allowed old _ unread rfl) (sound.failure _ _ point)
      (fun _ here => by cases here) (fun _ _ here => by cases here) (fun _ => id) (fun here => by cases here) rfl ?_
      (Or.inl rfl)
    simp [isAnnouncing, point]
  | publishSuccess point =>
    exact sound.publish_success (fun old unread => allowed old _ unread rfl) point (unmarked rfl)
  | publishStale monitor =>
    obtain ⟨kind, stale⟩ := sound.mark _ monitor
    refine sound.publish_state (fun old unread => allowed old _ unread rfl) kind (fun _ => id) sound.failure
      (fun _ here => by cases here) (fun here => ?_) rfl rfl (Or.inr stale)
    rw [sound.idle here] at monitor
    cases monitor

theorem Sound.step {event : RecoveryAction} (sound : s.Sound) (inStep : s.InStep event)
    (stepped : s.step event = some t) : t.Sound := by
  cases event with
  | receive =>
    obtain ⟨event, unread, rfl⟩ := Option.map_eq_some_iff.mp stepped
    exact sound.receive unread
  | collector action =>
    obtain ⟨⟨next, event?⟩, acted, rfl⟩ := Option.map_eq_some_iff.mp stepped
    obtain ⟨allowed, unmarked⟩ := inStep
    refine sound.collector (moves_of_act acted) (fun old new unread published => ?_) unmarked
    cases published
    simpa only [unread, acted, Option.bind_some] using allowed

/-- In a sound state without unread events every recovery was answered. -/
theorem Sound.answered (sound : s.Sound) : s.Answered := by
  intro taken announced earlier member
  refine Nat.lt_of_le_of_ne (sound.counted earlier member) ?_
  rintro rfl
  rcases sound.owed member with ⟨announcing, -⟩ | ⟨-, event, unread, -⟩
  · rw [announced] at announcing
    cases announcing
  · rw [taken] at unread
    cases unread

theorem sound_start (config : Config) (clock : ℤ) : Sound { machine := Machine.new config clock } where
  success event here := by cases here
  failure event final here := by cases here
  mark event here := by cases here
  idle _ := rfl
  counted earlier member := by cases member
  heard stale := by cases stale
  latest _ stale := by cases stale
  owed pending := by cases pending

/-- In every run that stays in step, each success after a stale state is followed by a call of
`scheduleSolarmanRecovery` when the events that were published have been received. -/
theorem recoveries_scheduled {config : Config} {clock : ℤ} {events : List RecoveryAction}
    (run : Run (Guarded InStep (Enabled Recovery.step)) { machine := Machine.new config clock } events s) :
    s.Answered := by
  apply Sound.answered
  exact run.invariant (sound_start config clock) fun _ _ _ sound moved => sound.step moved.1 moved.2

section Outage

private def reading : Snapshot := ⟨0, "normal", .zero, false, .zero, .zero, []⟩

private def success : List RecoveryAction :=
  [.collector (.readOk reading), .collector (.store none none none), .collector .recordSuccess,
    .collector .publishSuccess]

/-- One success, which the goroutine receives, and half a minute in which the reader answers nothing. -/
private def outage : List RecoveryAction :=
  [.collector .start] ++ success ++
    [.receive, .collector .signal, .collector .receive, .collector .check, .collector (.tick (30 * second)),
      .collector .timer, .collector .wake, .collector .markStale, .collector .publishStale]

private def attended : List RecoveryAction := outage ++ [.receive] ++ success ++ [.receive]

private def overtakenMark : List RecoveryAction := outage ++ success ++ [.receive]

private def beforeOutage : Recovery := { machine := Machine.new {} 0 }

theorem attended_scheduled : ∃ s, Run (Guarded InStep (Enabled Recovery.step)) beforeOutage attended s ∧
    s.recoveries = [1] ∧ s.Answered := by
  have possible : (attended.foldlM (fun s event => if InStep s event then step s event else none)
      beforeOutage).map recoveries = some [1] := by
    decide +kernel
  obtain ⟨s, reached, recovered⟩ := Option.map_eq_some_iff.mp possible
  have run := Run.of_guarded_foldlM reached
  exact ⟨s, run, recovered, @recoveries_scheduled s {} 0 attended run⟩

/-- The success after the outage is published before the goroutine has received the mark. -/
theorem overtaken_unanswered : ∃ s, Run (Enabled Recovery.step) beforeOutage overtakenMark s ∧ ¬s.Answered := by
  have possible : (overtakenMark.foldlM step beforeOutage).map (fun s : Recovery => decide s.Answered) = some false := by
    decide +kernel
  obtain ⟨s, reached, unanswered⟩ := Option.map_eq_some_iff.mp possible
  exact ⟨s, Run.of_foldlM reached, of_decide_eq_false unanswered⟩

end Outage

end Recovery

end Helio.Collector
