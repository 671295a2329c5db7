import Helio.Machine.Run
import Helio.Soundness.CollectorSteps
import Mathlib.Data.List.Nodup

/-! # The freshness monitor

The monitor learns of a success through a channel with one slot and keeps the deadline until which
it is fresh. While `Run` goes on, the monitor has been told of the last success or the update is in the
channel, as long as that success is `Run`'s own: the channel of a new `Run` starts empty, also when the
collector still holds a success that no monitor has marked.
-/

namespace Helio.Collector

open Calendar

/-- The deadline that the monitor holds. -/
def MonitorPoint.deadline? : MonitorPoint → Option ℤ
  | .checking deadline | .armed deadline _ | .marking deadline => some deadline
  | .done | .waiting | .publishing _ => none

/-- The time of a success between `recordSuccess` and `signalLatestTime`. -/
def RunPoint.signal? : RunPoint → Option ℤ
  | .publishingSuccess event => some event.state.lastSuccess
  | .signalling lastSuccess => some lastSuccess
  | _ => none

namespace Machine

/-- `Run` is going on and was not told to stop. -/
def IsActive (m : Machine) : Prop := m.run ≠ .stopped ∧ m.cancelled = false

/-- The monitor watches the last success or is about to hear of it. -/
def IsAttended (m : Machine) : Prop :=
  (∃ deadline, m.monitor.deadline? = some deadline ∧ deadline ≤ m.state.lastSuccess + m.config.staleAfter) ∨
    m.updates = some m.state.lastSuccess

end Machine

/-- The collector with the numbers of its successes. -/
structure Monitored where
  machine : Machine
  successes : ℕ := 0
  /-- The success that was marked, until the mark is published. -/
  marked : Option ℕ := none
  /-- The successes whose marks were published. -/
  published : List ℕ := []

namespace Monitored

def next? (s : Monitored) (action : Action) : Option Monitored :=
  match s.machine.act action with
  | none => none
  | some (machine, _) =>
    match action with
    | .recordSuccess => some { s with machine, successes := s.successes + 1 }
    | .markStale => some { s with machine, marked := if s.machine.isOverdue then some s.successes else s.marked }
    | .publishStale => some { s with machine, published := s.published ++ s.marked.toList, marked := none }
    | _ => some { s with machine }

/-- `Run` is not called while the collector holds a success that is not marked, and no success falls
on a time whose deadline is the zero time. -/
def Continues (s : Monitored) : Action → Prop
  | .start => s.machine.state.lastSuccess = zeroTime ∨ s.machine.state.stale = true
  | .recordSuccess => s.machine.clock + s.machine.config.staleAfter ≠ zeroTime
  | _ => True

instance (s : Monitored) : ∀ action, Decidable (s.Continues action)
  | .start => inferInstanceAs (Decidable (_ ∨ _))
  | .recordSuccess => inferInstanceAs (Decidable (_ ≠ _))
  | .tick _ | .cancel | .wake | .readOk _ | .readError _ | .recordError | .publishError | .store _ _ _
  | .publishSuccess | .signal | .stop | .flush _ | .endRun | .monitorStop | .receive | .check | .timer
  | .markStale | .publishStale => isTrue trivial

/-- What the monitor owes to the rest of the program. -/
structure Watches (s : Monitored) : Prop where
  overdue : s.machine.state.stale = true →
    s.machine.state.lastSuccess + s.machine.config.staleAfter ≤ s.machine.clock
  cleared : ∀ t, s.next? .recordSuccess = some t → t.machine.state.stale = false
  once : s.published.Nodup
  attended : s.machine.IsActive → s.machine.state.lastSuccess ≠ zeroTime → s.machine.state.stale = false →
    s.machine.run.signal? = none → s.machine.IsAttended

end Monitored

section Moves

variable {m next : Machine} {action : Action} {event? : Option Event}

theorem moves_config (moves : Moves m action next event?) : next.config = m.config := by
  cases moves <;> rfl

theorem moves_clock (moves : Moves m action next event?) : m.clock ≤ next.clock := by
  cases moves with
  | tick later => exact later
  | _ => exact le_rfl

/-- A state is marked when it is overdue, and stays so until the next success. -/
private theorem overdue_next (moves : Moves m action next event?)
    (overdue : m.state.stale = true → m.state.lastSuccess + m.config.staleAfter ≤ m.clock)
    (stale : next.state.stale = true) : next.state.lastSuccess + next.config.staleAfter ≤ next.clock := by
  cases moves with
  | tick later => exact (overdue stale).trans later
  | recordSuccess => cases stale
  | markStale _ due =>
    have same : m.markedStale.lastSuccess = m.state.lastSuccess := by
      unfold Machine.markedStale
      split <;> rfl
    change m.markedStale.lastSuccess + m.config.staleAfter ≤ m.clock
    rw [same]
    exact due.2.2
  | _ => exact overdue stale

/-- Where the time of the last success is. -/
structure Told (m : Machine) : Prop where
  signal : ∀ t, m.run.signal? = some t →
    t = m.state.lastSuccess ∧ t ≤ m.clock ∧ t + m.config.staleAfter ≠ zeroTime
  update : ∀ t, m.updates = some t →
    t ≤ m.clock ∧ t + m.config.staleAfter ≠ zeroTime ∧ (m.run.signal? = none → t = m.state.lastSuccess)
  held : ∀ deadline, m.monitor.deadline? = some deadline → deadline ≤ m.clock + m.config.staleAfter
  armed : ∀ deadline wake, m.monitor = .armed deadline wake → deadline ≤ wake
  past : ∀ deadline, m.monitor = .marking deadline → deadline ≤ m.clock
  done : m.monitor = .done → m.cancelled = true ∨ m.run = .stopped
  attended : m.monitor ≠ .done → m.run ≠ .stopped → m.state.lastSuccess ≠ zeroTime → m.state.stale = false →
    m.run.signal? = none →
      m.monitor.deadline? = some (m.state.lastSuccess + m.config.staleAfter) ∨ m.updates = some m.state.lastSuccess

private theorem pause_signal (m : Machine) (delay : ℤ) : (m.pause delay).run.signal? = none := by
  rcases pause_run m delay with ⟨wake, point⟩ | point
  · rw [point]
    rfl
  · rw [point]
    rfl

private theorem signal_next (told : Told m) (moves : Moves m action next event?)
    (ahead : action = .recordSuccess → m.clock + m.config.staleAfter ≠ zeroTime) :
    ∀ t, next.run.signal? = some t →
      t = next.state.lastSuccess ∧ t ≤ next.clock ∧ t + next.config.staleAfter ≠ zeroTime := by
  intro t sent
  cases moves with
  | tick later =>
    obtain ⟨same, past, nonzero⟩ := told.signal t sent
    exact ⟨same, past.trans later, nonzero⟩
  | cancel | monitorStop | receive | expired | arm | timer | spare | publishStale => exact told.signal t sent
  | markStale =>
    obtain ⟨same, past, nonzero⟩ := told.signal t sent
    refine ⟨same.trans ?_, past, nonzero⟩
    unfold Machine.markedStale
    split <;> rfl
  | recordSuccess =>
    cases sent
    exact ⟨rfl, le_rfl, ahead rfl⟩
  | publishSuccess point =>
    cases sent
    exact told.signal _ (by rw [point]; rfl)
  | publishError | signal =>
    rw [pause_signal] at sent
    cases sent
  | start | wake | readOk | readError | readCancelled | recordError | publishFinal | store | stop | flushFailed
  | flush | endRun => cases sent

private theorem update_next (told : Told m) (moves : Moves m action next event?) :
    ∀ t, next.updates = some t →
      t ≤ next.clock ∧ t + next.config.staleAfter ≠ zeroTime ∧
        (next.run.signal? = none → t = next.state.lastSuccess) := by
  intro t queued
  have still : ∀ {state : State} {run : RunPoint}, m.updates = some t →
      state.lastSuccess = m.state.lastSuccess → (run.signal? = none → m.run.signal? = none) →
      t ≤ m.clock ∧ t + m.config.staleAfter ≠ zeroTime ∧ (run.signal? = none → t = state.lastSuccess) := by
    intro state run queued same none
    obtain ⟨past, nonzero, last⟩ := told.update t queued
    exact ⟨past, nonzero, fun idle => (last (none idle)).trans same.symm⟩
  cases moves with
  | tick later =>
    obtain ⟨past, nonzero, last⟩ := told.update t queued
    exact ⟨past.trans later, nonzero, last⟩
  | cancel | monitorStop | expired | arm | timer | spare | publishStale => exact told.update t queued
  | start | receive => cases queued
  | markStale =>
    refine still queued ?_ id
    unfold Machine.markedStale
    split <;> rfl
  | wake point | readOk point | readError point | readCancelled point | publishFinal point | store point
  | stop point | flushFailed point | flush point | endRun point =>
    exact still queued rfl fun _ => by rw [point]; rfl
  | recordError point => exact still queued rfl fun _ => by rw [point]; rfl
  | publishError point => exact still queued rfl fun _ => by rw [point]; rfl
  | recordSuccess =>
    obtain ⟨past, nonzero, _⟩ := told.update t queued
    exact ⟨past, nonzero, fun none => (by cases none)⟩
  | publishSuccess =>
    obtain ⟨past, nonzero, _⟩ := told.update t queued
    exact ⟨past, nonzero, fun none => (by cases none)⟩
  | signal point =>
    cases queued
    obtain ⟨same, past, nonzero⟩ := told.signal t (by rw [point]; rfl)
    exact ⟨past, nonzero, fun _ => same⟩

private theorem held_next (told : Told m) (moves : Moves m action next event?) :
    ∀ deadline, next.monitor.deadline? = some deadline → deadline ≤ next.clock + next.config.staleAfter := by
  intro deadline holds
  have later := moves_clock moves
  have kept : m.monitor.deadline? = some deadline → deadline ≤ next.clock + next.config.staleAfter := by
    intro held
    rw [moves_config moves]
    exact (told.held deadline held).trans (by omega)
  cases moves with
  | tick | cancel | wake | readOk | readError | readCancelled | recordError | publishError | publishFinal | store
  | recordSuccess | publishSuccess | signal | stop | flushFailed | flush | endRun => exact kept holds
  | start | monitorStop | markStale | spare | publishStale => cases holds
  | @receive lastSuccess _ queued =>
    have past := (told.update lastSuccess queued).1
    have here : m.deadline lastSuccess = .checking (lastSuccess + m.config.staleAfter) :=
      if_neg (told.update lastSuccess queued).2.1
    change (m.deadline lastSuccess).deadline? = _ at holds
    rw [here] at holds
    cases holds
    change lastSuccess + m.config.staleAfter ≤ m.clock + m.config.staleAfter
    omega
  | expired monitor | arm monitor | timer monitor =>
    refine kept ?_
    rw [monitor]
    exact holds

/-- The timer fires no earlier than the deadline. -/
private theorem armed_next (valid : m.config.staleAfter ≤ maxInt64) (told : Told m)
    (moves : Moves m action next event?) :
    ∀ deadline wake, next.monitor = .armed deadline wake → deadline ≤ wake := by
  intro deadline wake armed
  cases moves with
  | tick | cancel | wake | readOk | readError | readCancelled | recordError | publishError | publishFinal | store
  | recordSuccess | publishSuccess | signal | stop | flushFailed | flush | endRun =>
    exact told.armed deadline wake armed
  | start | monitorStop | expired | timer | markStale | spare | publishStale => cases armed
  | receive =>
    change m.deadline _ = _ at armed
    unfold Machine.deadline at armed
    dsimp only at armed
    split at armed
    · cases armed
    · cases armed
  | arm monitor ahead =>
    cases armed
    have bound := told.held deadline (by rw [monitor]; rfl)
    unfold durationSince at ahead ⊢
    omega

private theorem past_next (told : Told m) (moves : Moves m action next event?) :
    ∀ deadline, next.monitor = .marking deadline → deadline ≤ next.clock := by
  intro deadline marking
  have later := moves_clock moves
  cases moves with
  | tick | cancel | wake | readOk | readError | readCancelled | recordError | publishError | publishFinal | store
  | recordSuccess | publishSuccess | signal | stop | flushFailed | flush | endRun =>
    exact (told.past deadline marking).trans later
  | start | monitorStop | arm | markStale | spare | publishStale => cases marking
  | receive =>
    change m.deadline _ = _ at marking
    unfold Machine.deadline at marking
    dsimp only at marking
    split at marking
    · cases marking
    · cases marking
  | expired _ past =>
    cases marking
    change deadline ≤ m.clock
    unfold durationSince maxInt64 minInt64 at past
    omega
  | timer monitor due =>
    cases marking
    exact (told.armed deadline _ monitor).trans due

private theorem done_next (told : Told m) (moves : Moves m action next event?) (done : next.monitor = .done) :
    next.cancelled = true ∨ next.run = .stopped := by
  have going : ∀ {point : RunPoint}, m.run = point → point ≠ .stopped → m.monitor = .done → m.cancelled = true := by
    intro point here running done
    exact (told.done done).resolve_right (here ▸ running)
  cases moves with
  | tick => exact told.done done
  | cancel => exact Or.inl rfl
  | start | expired | arm | timer | markStale | spare | publishStale => cases done
  | receive =>
    change m.deadline _ = _ at done
    unfold Machine.deadline at done
    dsimp only at done
    split at done
    · cases done
    · cases done
  | wake point | readOk point | readError point | readCancelled point | recordError point | publishError point
  | publishFinal point | store point | recordSuccess point | publishSuccess point | signal point | stop point
  | flushFailed point | flush point => exact Or.inl (going point RunPoint.noConfusion done)
  | endRun => exact Or.inr rfl
  | monitorStop _ stopping => exact Or.inl stopping

/-- The last success stays with the monitor. -/
private theorem attended_next (told : Told m) (moves : Moves m action next event?)
    (fresh : action = .start → m.state.lastSuccess = zeroTime ∨ m.state.stale = true) :
    next.monitor ≠ .done → next.run ≠ .stopped → next.state.lastSuccess ≠ zeroTime → next.state.stale = false →
      next.run.signal? = none →
        next.monitor.deadline? = some (next.state.lastSuccess + next.config.staleAfter) ∨
          next.updates = some next.state.lastSuccess := by
  intro watching running seen unmarked idle
  have here : m.run.signal? = none → m.run ≠ .stopped → m.monitor ≠ .done →
      m.state.lastSuccess ≠ zeroTime → m.state.stale = false →
      m.monitor.deadline? = some (m.state.lastSuccess + m.config.staleAfter) ∨
        m.updates = some m.state.lastSuccess :=
    fun idle running watching seen unmarked => told.attended watching running seen unmarked idle
  cases moves with
  | tick | cancel => exact told.attended watching running seen unmarked idle
  | start =>
    rcases fresh rfl with never | marked
    · exact absurd never seen
    · rw [show m.state.stale = false from unmarked] at marked
      cases marked
  | wake point | readOk point | readError point | readCancelled point | recordError point | publishError point
  | publishFinal point | store point | stop point | flushFailed point | flush point =>
    exact here (by rw [point]; rfl) (by rw [point]; exact RunPoint.noConfusion) watching seen unmarked
  | recordSuccess | publishSuccess => cases idle
  | signal point =>
    right
    exact congrArg some (told.signal _ (by rw [point]; rfl)).1
  | endRun => exact absurd rfl running
  | monitorStop => exact absurd rfl watching
  | @receive lastSuccess monitor queued =>
    left
    obtain ⟨_, nonzero, last⟩ := told.update lastSuccess queued
    have told : m.deadline lastSuccess = .checking (lastSuccess + m.config.staleAfter) := if_neg nonzero
    change (m.deadline lastSuccess).deadline? = _
    rw [told, last idle]
    rfl
  | expired monitor | arm monitor | timer monitor =>
    have same := here idle running (by rw [monitor]; exact MonitorPoint.noConfusion) seen unmarked
    rw [monitor] at same
    exact same
  | markStale _ overdue =>
    unfold Machine.markedStale at unmarked
    dsimp only at unmarked
    split at unmarked
    · cases unmarked
    · cases unmarked
  | @spare deadline monitor early =>
    right
    have same := here idle running (by rw [monitor]; exact MonitorPoint.noConfusion) seen unmarked
    rw [monitor] at same
    refine same.resolve_left fun held => early ⟨seen, unmarked, ?_⟩
    rw [← Option.some.inj held]
    exact told.past deadline monitor
  | publishStale monitor =>
    right
    have same := here idle running (by rw [monitor]; exact MonitorPoint.noConfusion) seen unmarked
    rw [monitor] at same
    exact same.resolve_left fun none => (by cases none)

end Moves

namespace Monitored

variable {s t : Monitored} {action : Action} {actions : List Action}

structure Sound (s : Monitored) : Prop where
  valid : s.machine.config.staleAfter ≤ maxInt64
  told : Told s.machine
  overdue : s.machine.state.stale = true →
    s.machine.state.lastSuccess + s.machine.config.staleAfter ≤ s.machine.clock
  once : (s.published ++ s.marked.toList).Nodup
  past : ∀ success ∈ s.published ++ s.marked.toList, success ≤ s.successes
  unmarked : s.machine.state.stale = false → s.successes ∉ s.published ++ s.marked.toList

private theorem told_next {m next : Machine} {event? : Option Event} (valid : m.config.staleAfter ≤ maxInt64)
    (told : Told m) (moves : Moves m action next event?)
    (fresh : action = .start → m.state.lastSuccess = zeroTime ∨ m.state.stale = true)
    (ahead : action = .recordSuccess → m.clock + m.config.staleAfter ≠ zeroTime) : Told next where
  signal := signal_next told moves ahead
  update := update_next told moves
  held := held_next told moves
  armed := armed_next valid told moves
  past := past_next told moves
  done := done_next told moves
  attended := attended_next told moves fresh

/-- Only a mark makes a state stale, and only a success makes it fresh again. -/
private theorem stale_next {m next : Machine} {event? : Option Event} (moves : Moves m action next event?)
    (other : action ≠ .markStale ∧ action ≠ .recordSuccess) : next.state.stale = m.state.stale := by
  cases moves with
  | markStale => exact absurd rfl other.1
  | recordSuccess => exact absurd rfl other.2
  | _ => rfl

/-- A step keeps what the monitor knows and marks every success once. -/
theorem Sound.next (sound : s.Sound) (continues : s.Continues action) (stepped : s.next? action = some t) :
    t.Sound := by
  unfold next? at stepped
  split at stepped
  · cases stepped
  · next machine event? acted =>
    have moves := moves_of_act acted
    have config := moves_config moves
    have valid : machine.config.staleAfter ≤ maxInt64 := config ▸ sound.valid
    have told : Told machine := by
      refine told_next sound.valid sound.told moves ?_ ?_
      · rintro rfl
        exact continues
      · rintro rfl
        exact continues
    have overdue := overdue_next moves sound.overdue
    split at stepped
    · cases stepped
      refine ⟨valid, told, overdue, sound.once, fun success member => ?_, fun _ member => ?_⟩
      · exact (sound.past success member).trans (Nat.le_succ _)
      · have := sound.past _ member
        change s.successes + 1 ≤ s.successes at this
        omega
    · cases stepped
      cases moves with
      | markStale _ due =>
        have here : (if s.machine.isOverdue then some s.successes else s.marked) = some s.successes := if_pos due
        have new : s.successes ∉ s.published := fun member =>
          sound.unmarked due.2.1 (List.mem_append_left _ member)
        refine ⟨valid, told, overdue, ?_, fun success member => ?_, fun unmarked => ?_⟩
        · rw [here]
          refine List.nodup_append.mpr ⟨(List.nodup_append.mp sound.once).1, List.nodup_singleton _, ?_⟩
          rintro success member _ single rfl
          exact new (List.mem_singleton.mp single ▸ member)
        · rw [here] at member
          rcases List.mem_append.mp member with earlier | now
          · exact sound.past success (List.mem_append_left _ earlier)
          · exact (List.mem_singleton.mp now).le
        · unfold Machine.markedStale at unmarked
          dsimp only at unmarked
          split at unmarked
          · cases unmarked
          · cases unmarked
      | spare _ early =>
        have here : (if s.machine.isOverdue then some s.successes else s.marked) = s.marked := if_neg early
        refine ⟨valid, told, overdue, ?_, ?_, ?_⟩
        · rw [here]
          exact sound.once
        · rw [here]
          exact sound.past
        · rw [here]
          exact sound.unmarked
    · cases stepped
      have same := stale_next moves ⟨Action.noConfusion, Action.noConfusion⟩
      refine ⟨valid, told, overdue, ?_, ?_, ?_⟩
      · simpa using sound.once
      · simpa using sound.past
      · rw [same]
        simpa using sound.unmarked
    · next success mark publish =>
      cases stepped
      have same := stale_next moves ⟨mark, success⟩
      exact ⟨valid, told, overdue, sound.once, sound.past, same ▸ sound.unmarked⟩

theorem sound_start {config : Config} (valid : config.Valid) (clock : ℤ) :
    Sound { machine := Machine.new config clock } where
  valid := valid.bounded.2.2.1
  told :=
    { signal := fun _ never => (by cases never)
      update := fun _ never => (by cases never)
      held := fun _ never => (by cases never)
      armed := fun _ _ never => (by cases never)
      past := fun _ never => (by cases never)
      done := fun _ => Or.inr rfl
      attended := fun watching => absurd rfl watching }
  overdue := fun never => (by cases never)
  once := List.nodup_nil
  past := fun _ never => (by cases never)
  unmarked := fun _ never => (by cases never)

theorem Sound.watches (sound : s.Sound) : s.Watches where
  overdue := sound.overdue
  cleared := by
    intro t stepped
    unfold next? at stepped
    split at stepped
    · cases stepped
    · next machine event? acted =>
      cases stepped
      cases moves_of_act acted with
      | recordSuccess => rfl
  once := (List.nodup_append.mp sound.once).1
  attended := by
    intro active seen unmarked idle
    obtain ⟨running, going⟩ := active
    have watching : s.machine.monitor ≠ .done := by
      intro done
      rcases sound.told.done done with stopping | stopped
      · rw [going] at stopping
        cases stopping
      · exact running stopped
    rcases sound.told.attended watching running seen unmarked idle with held | queued
    · exact Or.inl ⟨_, held, le_rfl⟩
    · exact Or.inr queued

/-- As long as `Run` is not called on a collector that holds an unmarked success of an earlier `Run`, the
monitor marks a success when it is overdue and once only, and never loses sight of the last one. -/
theorem watches_of_run {config : Config} (valid : config.Valid) {clock : ℤ}
    (run : Run (Guarded Continues (Enabled next?)) { machine := Machine.new config clock } actions s) :
    s.Watches := by
  have sound : s.Sound := by
    induction run with
    | start => exact sound_start valid clock
    | step _ moved before => exact before.next moved.1 moved.2
  exact sound.watches

/-- A collector that starts ten seconds past the epoch. -/
def started : Monitored := { machine := Machine.new {} (10 * second) }

/-- The first poll succeeds. -/
def success : List Action :=
  [.start, .readOk ⟨10 * second, "normal", .finite 1000, false, .finite 220, .finite 60, []⟩,
    .store none none none, .recordSuccess, .publishSuccess, .signal]

/-- No poll follows, and the monitor marks the success. -/
def forgotten : List Action :=
  success ++ [.receive, .check, .tick (40 * second), .timer, .markStale, .publishStale]

theorem forgotten_marked :
    ∃ s, Run (Guarded Continues (Enabled next?)) started forgotten s ∧ s.published = [1] ∧ s.Watches := by
  have possible : (forgotten.foldlM (fun s action => if Continues s action then next? s action else none)
      started).map published = some [1] := by
    decide +kernel
  obtain ⟨s, run, published⟩ := Option.map_eq_some_iff.mp possible
  have valid : Config.Valid {} := by
    refine ⟨?_, ?_, ?_⟩ <;> decide
  exact ⟨s, Run.of_guarded_foldlM run, published, watches_of_run valid (Run.of_guarded_foldlM run)⟩

/-- After the success `Run` is stopped and called again, as by a rollback of the settings. -/
def resumed : List Action :=
  success ++ [.cancel, .stop, .flush none, .monitorStop, .endRun, .start]

/-- The new monitor never hears of the success. -/
theorem resumed_unattended : ∃ s, Run (Enabled next?) started resumed s ∧ ¬s.Watches := by
  have possible : (resumed.foldlM next? started).map
      (fun s => decide (s.machine.run = .polling ∧ s.machine.cancelled = false ∧
        s.machine.state.lastSuccess = 10 * second ∧ s.machine.state.stale = false ∧
        s.machine.monitor = .waiting ∧ s.machine.updates = none)) = some true := by
    decide +kernel
  obtain ⟨s, run, reached⟩ := Option.map_eq_some_iff.mp possible
  obtain ⟨point, going, seen, unmarked, waiting, empty⟩ := of_decide_eq_true reached
  refine ⟨s, Run.of_foldlM run, fun watches => ?_⟩
  have attended : s.machine.IsAttended := by
    refine watches.attended ⟨?_, going⟩ ?_ unmarked ?_
    · rw [point]
      exact RunPoint.noConfusion
    · rw [seen]
      decide
    · rw [point]
      rfl
  rcases attended with ⟨deadline, held, _⟩ | queued
  · rw [waiting] at held
    cases held
  · rw [empty] at queued
    cases queued

end Monitored

end Helio.Collector
