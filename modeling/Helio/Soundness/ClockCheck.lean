import Helio.Machine.Run
import Helio.Model.AlertFeeds
import Helio.Soundness.AlertEngine

/-! # Evaluations that the clock check rejects

Snapshots are stamped when they are read, state events when they are handled and analyses when the
nightly run starts. The clock check rejects nothing as long as no evaluation overtakes a stamp that
is still on its way: among the snapshots the order of the queue sees to that, between the three
kinds nothing does.
-/

namespace Helio.Alerts

open Calendar Collector

/-- The stamp of a queued snapshot. -/
def stamp? (event : Event) : Option ℤ :=
  match event.kind with
  | .snapshot => event.snapshot.map Snapshot.observedAt
  | .state => none

theorem collectorInput_atTime (weather : WeatherResult) (elevation : Option (ℤ → Float64)) (now : ℤ) (event : Event) :
    stamp? event = some (collectorInput weather elevation now event).atTime ∨
      (collectorInput weather elevation now event).atTime = now := by
  rcases event with ⟨kind, snapshot, state⟩
  cases kind with
  | state => exact Or.inr rfl
  | snapshot =>
    cases snapshot with
    | none => exact Or.inr rfl
    | some snapshot =>
      by_cases unset : snapshot.observedAt = zeroTime
      · exact Or.inr (if_pos unset)
      · exact Or.inl (congrArg some (if_neg unset).symm)

namespace Feed

variable {s t : Feed} {e : FeedEvent} {es : List FeedEvent}

/-- The stamps of the snapshots that were read and not yet taken, oldest first. -/
def inFlight (s : Feed) : List ℤ := s.queue.filterMap stamp? ++ (s.reading.map Snapshot.observedAt).toList

/-- The stamps that evaluations are still to come for, with the clock. -/
def due (s : Feed) : List ℤ := s.inFlight ++ s.nightly.toList ++ [s.clock]

/-- No evaluation overtakes a stamp: an event is taken only at a time up to the start of a nightly
run that is still to evaluate, a state event also only when no snapshot read before is on its way;
and a nightly run evaluates only when no snapshot read and no event stamped before its start is. -/
def InOrder (s : Feed) : FeedEvent → Prop
  | .take weather elevation => ∀ event ∈ s.queue.head?,
      (∀ started ∈ s.nightly, (collectorInput weather elevation s.clock event).atTime ≤ started) ∧
        (stamp? event = some (collectorInput weather elevation s.clock event).atTime ∨
          ∀ t ∈ { s with queue := s.queue.tail }.inFlight,
            (collectorInput weather elevation s.clock event).atTime ≤ t)
  | .analyze _ _ _ _ => ∀ started ∈ s.nightly,
      (∀ t ∈ s.inFlight, started ≤ t) ∧ ∀ input ∈ s.handling, started ≤ input.atTime
  | _ => True

instance (s : Feed) : ∀ e, Decidable (s.InOrder e)
  | .take _ _ => inferInstanceAs (Decidable (∀ event ∈ s.queue.head?, _ ∧ (_ ∨ _)))
  | .analyze _ _ _ _ => inferInstanceAs (Decidable (∀ started ∈ s.nightly, _ ∧ ∀ input ∈ s.handling, _))
  | .tick _ | .read _ | .publishSnapshot _ | .publishState _ | .evaluate | .startNightly | .abandonNightly =>
    isTrue trivial

/-- Nothing was lost so far, and nothing on its way has been overtaken. -/
structure Timely (s : Feed) : Prop where
  sorted : s.inFlight.Pairwise (· ≤ ·)
  past : ∀ t ∈ s.due, t ≤ s.clock
  ready : ∀ t ∈ s.due, s.current.Ready t
  handled : ∀ input, s.handling = some input → s.current.Ready input.atTime ∧ ∀ t ∈ s.due, input.atTime ≤ t
  kept : s.lost = []

theorem mem_due {t : ℤ} : t ∈ s.due ↔ t ∈ s.inFlight ∨ s.nightly = some t ∨ t = s.clock := by
  simp [due]

/-- An evaluation that is ready is not lost, and leaves the rules ready for everything later. -/
theorem evaluateInput_ready {input : Input} (ready : s.current.Ready input.atTime) :
    ∃ current, s.evaluateInput input = { s with current } ∧
      ∀ t, input.atTime ≤ t → current.Ready t := by
  unfold evaluateInput
  cases valid : validateInput input with
  | error message =>
    rw [Current.evaluate_invalid valid]
    exact ⟨s.current, rfl, fun t later => ready.mono later⟩
  | ok =>
    rw [Current.evaluate_ok valid ready]
    exact ⟨_, rfl, fun t later => Current.ready_next ready later⟩

theorem clock_mem_due (s : Feed) : s.clock ∈ s.due := mem_due.mpr (Or.inr (Or.inr rfl))

/-- Nothing is overtaken when only later stamps are added. -/
theorem Timely.advance (timely : s.Timely)
    (same : t.current = s.current ∧ t.lost = s.lost ∧ t.handling = s.handling)
    (sorted : t.inFlight.Pairwise (· ≤ ·)) (due : ∀ u ∈ t.due, u ≤ t.clock ∧ ∃ v ∈ s.due, v ≤ u) : t.Timely := by
  obtain ⟨current, lost, handling⟩ := same
  refine ⟨sorted, fun u member => (due u member).1, fun u member => ?_, fun input held => ?_, lost.trans timely.kept⟩
  · obtain ⟨_, v, before, later⟩ := due u member
    rw [current]
    exact (timely.ready v before).mono later
  · obtain ⟨ready, before⟩ := timely.handled input (handling ▸ held)
    refine ⟨current ▸ ready, fun u member => ?_⟩
    obtain ⟨_, v, earlier, later⟩ := due u member
    exact (before v earlier).trans later

/-- Nothing is overtaken while time stands still and no stamp is added. -/
theorem Timely.keeps (timely : s.Timely)
    (same : t.current = s.current ∧ t.lost = s.lost ∧ t.handling = s.handling)
    (clock : t.clock = s.clock) (sorted : t.inFlight.Pairwise (· ≤ ·)) (due : ∀ u ∈ t.due, u ∈ s.due) : t.Timely :=
  timely.advance same sorted fun u member =>
    ⟨clock ▸ timely.past u (due u member), u, due u member, le_rfl⟩

/-- A nightly run starts by the clock, or is given up. -/
theorem Timely.planned (timely : s.Timely) {nightly : Option ℤ} (now : ∀ u, nightly = some u → u = s.clock) :
    { s with nightly }.Timely := by
  refine timely.keeps ⟨rfl, rfl, rfl⟩ rfl timely.sorted fun u member => ?_
  rcases mem_due.mp member with here | here | here
  · exact mem_due.mpr (Or.inl here)
  · rw [now u here]
    exact s.clock_mem_due
  · exact mem_due.mpr (Or.inr (Or.inr here))

theorem inFlight_publish {event : Event} (published : s.publish event = some t) :
    t.inFlight = s.queue.filterMap stamp? ++ (stamp? event).toList ++
        (s.reading.map Snapshot.observedAt).toList ∧
      t.nightly = s.nightly ∧ t.clock = s.clock ∧
      t.current = s.current ∧ t.lost = s.lost ∧ t.handling = s.handling := by
  simp only [publish, Option.ite_none_right_eq_some, Option.some_inj] at published
  obtain ⟨_, rfl⟩ := published
  refine ⟨?_, rfl, rfl, rfl, rfl, rfl⟩
  simp only [inFlight, List.filterMap_append]
  cases stamped : stamp? event with
  | none => simp [List.filterMap_cons_none stamped]
  | some stamp => simp [List.filterMap_cons_some stamped]

/-- A publication that sends on what was on its way. -/
theorem Timely.publish {reading : Option Snapshot} {event : Event} (timely : s.Timely)
    (published : { s with reading }.publish event = some t)
    (flying : s.queue.filterMap stamp? ++ (stamp? event).toList ++ (reading.map Snapshot.observedAt).toList =
      s.inFlight) : t.Timely := by
  obtain ⟨stamps, nightly, clock, same⟩ := inFlight_publish published
  have stamps : t.inFlight = s.inFlight := stamps.trans flying
  have due : t.due = s.due := by simp [Feed.due, stamps, nightly, clock]
  exact timely.keeps same clock (stamps ▸ timely.sorted) fun u member => due ▸ member

/-- A reading is stamped with the clock, after everything on its way. -/
theorem Timely.read {snapshot : Snapshot} (timely : s.Timely) (idle : s.reading = none)
    (stamped : snapshot.observedAt = s.clock) : { s with reading := some snapshot }.Timely := by
  have stamps : { s with reading := some snapshot }.inFlight = s.inFlight ++ [s.clock] := by
    simp [inFlight, idle, stamped]
  refine timely.keeps ⟨rfl, rfl, rfl⟩ rfl ?_ fun u member => ?_
  · rw [stamps]
    refine List.pairwise_append.mpr ⟨timely.sorted, List.pairwise_singleton _ _, fun u member v single => ?_⟩
    rw [List.mem_singleton.mp single]
    exact timely.past u (mem_due.mpr (Or.inl member))
  · rcases mem_due.mp member with here | here | here
    · rw [stamps] at here
      rcases List.mem_append.mp here with earlier | single
      · exact mem_due.mpr (Or.inl earlier)
      · rw [List.mem_singleton.mp single]
        exact s.clock_mem_due
    · exact mem_due.mpr (Or.inr (Or.inl here))
    · exact mem_due.mpr (Or.inr (Or.inr here))

/-- An event that is taken in order is stamped before everything on its way. -/
theorem Timely.take {weather : WeatherResult} {elevation : Option (ℤ → Float64)} {event : Event} {rest : List Event}
    (timely : s.Timely) (queued : s.queue = event :: rest) (ordered : s.InOrder (.take weather elevation)) :
    let input := collectorInput weather elevation s.clock event
    { s with queue := rest, handling := some input }.Timely := by
  intro input
  obtain ⟨nightly, unstamped⟩ := ordered event (by rw [queued]; rfl)
  rw [queued, List.tail_cons] at unstamped
  have flying : s.inFlight = (stamp? event).toList ++ { s with queue := rest }.inFlight := by
    simp only [inFlight, queued]
    cases stamped : stamp? event with
    | none => simp [List.filterMap_cons_none stamped]
    | some stamp => simp [List.filterMap_cons_some stamped]
  have sorted := timely.sorted
  rw [flying] at sorted
  have still : ∀ u ∈ { s with queue := rest, handling := some input }.due, u ∈ s.due := by
    intro u member
    rcases mem_due.mp member with here | here | here
    · exact mem_due.mpr (Or.inl (flying ▸ List.mem_append_right _ here))
    · exact mem_due.mpr (Or.inr (Or.inl here))
    · exact mem_due.mpr (Or.inr (Or.inr here))
  -- A snapshot carries the oldest stamp, a state event takes the clock.
  have stamp := collectorInput_atTime weather elevation s.clock event
  have own : input.atTime ∈ s.due := by
    rcases stamp with carried | clock
    · refine mem_due.mpr (Or.inl ?_)
      rw [flying, carried]
      exact List.mem_cons_self
    · exact clock ▸ s.clock_mem_due
  have behind : ∀ u ∈ { s with queue := rest }.inFlight, input.atTime ≤ u := by
    rcases unstamped with carried | before
    · rw [carried] at sorted
      exact (List.pairwise_cons.mp sorted).1
    · exact before
  refine ⟨(List.pairwise_append.mp sorted).2.1, fun u member => timely.past u (still u member),
    fun u member => timely.ready u (still u member), fun handled taken => ?_, timely.kept⟩
  obtain rfl : input = handled := Option.some.inj taken
  refine ⟨timely.ready _ own, fun u member => ?_⟩
  rcases mem_due.mp member with here | here | rfl
  · exact behind u here
  · exact nightly u here
  · exact timely.past _ own

theorem Timely.evaluate {input : Input} (timely : s.Timely) (held : s.handling = some input) :
    ({ s with handling := none }.evaluateInput input).Timely := by
  obtain ⟨ready, before⟩ := timely.handled input held
  have ready : { s with handling := none }.current.Ready input.atTime := ready
  obtain ⟨current, evaluated, later⟩ := evaluateInput_ready ready
  rw [evaluated]
  exact ⟨timely.sorted, timely.past, fun u member => later u (before u member), fun _ none => (by cases none),
    timely.kept⟩

theorem Timely.analyze {input : Input} (timely : s.Timely) (running : s.nightly = some input.atTime)
    (flying : ∀ u ∈ s.inFlight, input.atTime ≤ u)
    (held : ∀ handled, s.handling = some handled → input.atTime ≤ handled.atTime) :
    ({ s with nightly := none }.evaluateInput input).Timely := by
  have due : input.atTime ∈ s.due := mem_due.mpr (Or.inr (Or.inl running))
  have after : ∀ u ∈ { s with nightly := none }.due, u ∈ s.due ∧ input.atTime ≤ u := by
    intro u member
    rcases mem_due.mp member with here | here | rfl
    · exact ⟨mem_due.mpr (Or.inl here), flying u here⟩
    · cases here
    · exact ⟨s.clock_mem_due, timely.past _ due⟩
  have ready : { s with nightly := none }.current.Ready input.atTime := timely.ready _ due
  obtain ⟨current, evaluated, later⟩ := evaluateInput_ready ready
  rw [evaluated]
  refine ⟨timely.sorted, fun u member => timely.past u (after u member).1,
    fun u member => later u (after u member).2, fun handled handling => ⟨?_, fun u member => ?_⟩, timely.kept⟩
  · exact later _ (held handled handling)
  · exact (timely.handled handled handling).2 u (after u member).1

/-- A step in order keeps everything on time. -/
theorem Timely.next (timely : s.Timely) (ordered : s.InOrder e) (step : s.next? e = some t) : t.Timely := by
  cases e with
  | tick now =>
    simp only [next?, Option.ite_none_right_eq_some, Option.some_inj] at step
    obtain ⟨later, rfl⟩ := step
    refine timely.advance ⟨rfl, rfl, rfl⟩ timely.sorted fun u member => ?_
    rcases mem_due.mp member with here | here | rfl
    · have old : u ∈ s.due := mem_due.mpr (Or.inl here)
      exact ⟨(timely.past u old).trans later, u, old, le_rfl⟩
    · have old : u ∈ s.due := mem_due.mpr (Or.inr (Or.inl here))
      exact ⟨(timely.past u old).trans later, u, old, le_rfl⟩
    · exact ⟨le_rfl, s.clock, s.clock_mem_due, later⟩
  | read snapshot =>
    simp only [next?] at step
    split at step
    · next idle =>
      simp only [Option.ite_none_right_eq_some, Option.some_inj] at step
      obtain ⟨stamped, rfl⟩ := step
      exact timely.read idle stamped
    · cases step
  | publishSnapshot state =>
    simp only [next?] at step
    split at step
    · next snapshot held => exact timely.publish step (by simp [inFlight, held, stamp?])
    · cases step
  | publishState state => exact timely.publish step (by simp [inFlight, stamp?])
  | take weather elevation =>
    simp only [next?] at step
    split at step
    · next event rest idle queued =>
      cases step
      exact timely.take queued ordered
    · cases step
  | evaluate =>
    simp only [next?] at step
    split at step
    · next input held =>
      cases step
      exact timely.evaluate held
    · cases step
  | startNightly =>
    simp only [next?] at step
    split at step
    · next idle =>
      cases step
      exact timely.planned fun u here => (Option.some.inj here).symm
    · cases step
  | abandonNightly =>
    cases step
    exact timely.planned nofun
  | analyze weatherAvailable coveragePct day analysis =>
    simp only [next?] at step
    split at step
    · next started running =>
      cases step
      obtain ⟨flying, held⟩ := ordered started running
      refine Timely.analyze timely ?_ ?_ ?_
      · exact running
      · exact flying
      · exact held
    · cases step

theorem timely_start {config : Config} {clock : ℤ} {current : Current} (ready : current.Ready clock) :
    Timely { config, clock, current } := by
  refine ⟨List.Pairwise.nil, fun t member => ?_, fun t member => ?_, fun _ none => (by cases none), rfl⟩
  · rw [List.mem_singleton.mp member]
  · rw [List.mem_singleton.mp member]
    exact ready

theorem timely_of_run (timely : s.Timely) (run : Run (Guarded InOrder (Enabled next?)) s es t) : t.Timely := by
  induction run with
  | start => exact timely
  | step _ moved before => exact before.next moved.1 moved.2

/-- As long as no evaluation overtakes a stamp that is on its way, the clock check rejects none:
every event and every analysis reaches the rules. -/
theorem evaluations_kept {config : Config} {clock : ℤ} {current : Current} (ready : current.Ready clock)
    (run : Run (Guarded InOrder (Enabled next?)) { config, clock, current } es s) : s.lost = [] :=
  (timely_of_run (timely_start ready) run).kept

/-- No rule was evaluated yet, ten seconds past the epoch. -/
def idle : Feed := { config := defaultConfig, clock := 10 * second, current := ⟨fun _ => {}, fun _ => false⟩ }

def noWeather : WeatherResult := ⟨false, []⟩

def healthySnapshot (t : ℤ) : Snapshot := ⟨t, "normal", .finite 1000, false, .finite 220, .finite 60, []⟩

def anyAnalysis : AnalysisResult := ⟨.zero, .zero, .zero, .low, false⟩

/-- A snapshot is read, published, taken and evaluated, then a nightly run analyzes a day. -/
def punctual : List FeedEvent :=
  [.read (healthySnapshot (10 * second)), .publishSnapshot {}, .tick (20 * second), .take noWeather none, .evaluate,
    .startNightly, .analyze false (.finite 100) "2026-07-14".toList anyAnalysis]

theorem punctual_kept : ∃ s, Run (Guarded InOrder (Enabled next?)) idle punctual s ∧ s.lost = [] := by
  have possible : (punctual.foldlM (fun s e => if InOrder s e then next? s e else none) idle).isSome := by
    decide +kernel
  obtain ⟨s, run⟩ := Option.isSome_iff_exists.mp possible
  exact ⟨s, Run.of_guarded_foldlM run, evaluations_kept (fun _ => rfl) (Run.of_guarded_foldlM run)⟩

/-- A state event waits in the queue while the next poll succeeds. -/
def lateState : List FeedEvent :=
  [.publishState {}, .read (healthySnapshot (10 * second)), .publishSnapshot {}, .tick (20 * second),
    .take noWeather none, .evaluate, .take noWeather none, .evaluate]

/-- A snapshot is evaluated while the nightly run is at work. -/
def lateAnalysis : List FeedEvent :=
  [.startNightly, .tick (20 * second), .read (healthySnapshot (20 * second)), .publishSnapshot {},
    .take noWeather none, .evaluate, .analyze false (.finite 100) "2026-07-14".toList anyAnalysis]

/-- The snapshot behind a late state event is lost, and so is an analysis that took a while. -/
theorem late_evaluations_lost :
    (∃ s, Run (Enabled next?) idle lateState s ∧ s.lost = [10 * second]) ∧
      ∃ s, Run (Enabled next?) idle lateAnalysis s ∧ s.lost = [10 * second] := by
  have state : (lateState.foldlM next? idle).map lost = some [10 * second] := by decide +kernel
  have analysis : (lateAnalysis.foldlM next? idle).map lost = some [10 * second] := by decide +kernel
  obtain ⟨s, state, lost⟩ := Option.map_eq_some_iff.mp state
  obtain ⟨t, analysis, alsoLost⟩ := Option.map_eq_some_iff.mp analysis
  exact ⟨⟨s, Run.of_foldlM state, lost⟩, t, Run.of_foldlM analysis, alsoLost⟩

end Feed

end Helio.Alerts
