import Helio.Calendar.ReadTime
import Helio.Model.LiveEvents

/-! # The merged live state

Whatever order the messages come in, the snapshot shown and the last success never go back. A field that
an event omits stays as it was, so an error is cleared by an event that carries another one, never by the
success that ends an outage.
-/

namespace Helio.Live

open Calendar

variable {dateParse : String → Option ℤ} {current start : Option LiveState} {event : LiveEvent}

section States

variable (dateParse) (current : Option LiveState) (event : LiveEvent)

/-- When the snapshot shown was observed. -/
def shownAt : Instant := time dateParse (current.bind LiveState.observedAt)

def succeededAt : Instant := time dateParse (current.bind LiveState.lastSuccess)

/-- The event's last success is not older than the one shown. -/
def IsCurrent : Prop := succeededAt dateParse current ≤ time dateParse event.incoming.lastSuccess

/-- The state after has the event's freshness and errors, none where the event omits them. -/
def Adopts (after : Option LiveState) : Prop :=
  ∃ state, after = some state ∧ state.stale = event.incoming.stale ∧
    state.lastError = event.incoming.lastError ∧ state.errorClass = event.incoming.errorClass

/-- What the event omits, the state before it lacks as well. -/
def NothingToClear : Prop :=
  (event.incoming.lastError = none → current.bind LiveState.lastError = none) ∧
    (event.incoming.errorClass = none → current.bind LiveState.errorClass = none)

end States

theorem le_time_orElse {first second : Option String} (order : time dateParse first ≤ time dateParse second) :
    time dateParse first ≤ time dateParse (second <|> first) := by
  cases second with
  | none => exact le_rfl
  | some text => exact order

theorem orElse_eq_left {α : Type} {first second : Option α} :
    (second <|> first) = second ↔ (second = none → first = none) := by
  cases second with
  | none => exact ⟨fun same _ => same, fun omitted => omitted rfl⟩
  | some value => exact iff_of_true rfl fun omitted => nomatch omitted

/-- The snapshot of a merge is observed no earlier than the one before it. -/
theorem shownAt_mergeState (current : Option LiveState) (event : LiveEvent) :
    shownAt dateParse current ≤
      shownAt dateParse (some (mergeState dateParse current event.incoming event.eventSnapshot)) := by
  cases current with
  | none => exact bot_le
  | some state =>
    simp only [shownAt, Option.bind_some, mergeState]
    by_cases order : time dateParse state.observedAt ≤
        time dateParse ((event.eventSnapshot <|> event.incoming.snapshot).map LiveSnapshot.observedAt)
    · rw [if_pos order]
      exact order
    · rw [if_neg order]
      exact le_rfl

theorem succeededAt_mergeState (current : Option LiveState) (event : LiveEvent) :
    succeededAt dateParse current ≤
      succeededAt dateParse (some (mergeState dateParse current event.incoming event.eventSnapshot)) := by
  cases current with
  | none => exact bot_le
  | some state =>
    simp only [succeededAt, Option.bind_some, mergeState]
    by_cases order : time dateParse state.lastSuccess ≤ time dateParse event.incoming.lastSuccess
    · rw [if_pos order]
      exact le_time_orElse order
    · rw [if_neg order]

/-- An event that is current is adopted exactly when it leaves nothing to clear. -/
theorem mergeState_adopts (isCurrent : IsCurrent dateParse current event) :
    Adopts event (some (mergeState dateParse current event.incoming event.eventSnapshot)) ↔
      NothingToClear current event := by
  cases current with
  | none => exact iff_of_true ⟨_, rfl, rfl, rfl, rfl⟩ ⟨fun _ => rfl, fun _ => rfl⟩
  | some state =>
    have order : time dateParse state.lastSuccess ≤ time dateParse event.incoming.lastSuccess := isCurrent
    rw [NothingToClear, Option.bind_some, Option.bind_some, ← orElse_eq_left, ← orElse_eq_left]
    simp only [Adopts, mergeState, if_pos order, LiveState.spread, Option.some.injEq, exists_eq_left', true_and]

section Messages

variable (dateParse)

/-- The state after some messages. -/
def merged (start : Option LiveState) (messages : List Message) : Option LiveState :=
  messages.foldl (apply dateParse) start

/-- A message of a sequence that parses, with the messages before it. -/
def Parses (messages sofar : List Message) (message : Message) (event : LiveEvent) : Prop :=
  sofar ++ [message] <+: messages ∧ parseLiveEvent dateParse message.1 message.2 = some event

/-- Neither time goes back, and every event that is current is adopted. -/
structure LiveRun (start : Option LiveState) (messages : List Message) : Prop where
  shown : ∀ sofar more, sofar ++ more <+: messages →
    shownAt dateParse (merged dateParse start sofar) ≤ shownAt dateParse (merged dateParse start (sofar ++ more))
  succeeded : ∀ sofar more, sofar ++ more <+: messages →
    succeededAt dateParse (merged dateParse start sofar) ≤
      succeededAt dateParse (merged dateParse start (sofar ++ more))
  adopted : ∀ sofar message event, Parses dateParse messages sofar message event →
    IsCurrent dateParse (merged dateParse start sofar) event →
      Adopts event (merged dateParse start (sofar ++ [message]))

end Messages

theorem merged_append (sofar more : List Message) :
    merged dateParse start (sofar ++ more) = merged dateParse (merged dateParse start sofar) more :=
  List.foldl_append

/-- A measure that no merge lowers is not lowered by any messages. -/
theorem le_merged {measure : Option LiveState → Instant}
    (step : ∀ current (event : LiveEvent),
      measure current ≤ measure (some (mergeState dateParse current event.incoming event.eventSnapshot)))
    (start : Option LiveState) (messages : List Message) :
    measure start ≤ measure (merged dateParse start messages) := by
  induction messages generalizing start with
  | nil => exact le_rfl
  | cons message rest ih =>
    apply le_trans _ (ih (apply dateParse start message))
    rw [apply]
    split
    · exact le_rfl
    · exact step start _

theorem merged_message {messages sofar : List Message} {message : Message}
    (parses : Parses dateParse messages sofar message event) : merged dateParse start (sofar ++ [message]) =
      some (mergeState dateParse (merged dateParse start sofar) event.incoming event.eventSnapshot) := by
  rw [merged_append]
  simp only [merged, List.foldl_cons, List.foldl_nil, apply, parses.2]

/-- A sequence of messages keeps the law of the merge exactly when no event of it that is current omits an
error of the state before it. -/
theorem liveRun_iff (dateParse : String → Option ℤ) (start : Option LiveState) (messages : List Message) :
    LiveRun dateParse start messages ↔ ∀ sofar message event, Parses dateParse messages sofar message event →
      IsCurrent dateParse (merged dateParse start sofar) event →
        NothingToClear (merged dateParse start sofar) event := by
  constructor
  · intro run sofar message event parses isCurrent
    apply (mergeState_adopts isCurrent).mp
    rw [← merged_message parses]
    exact run.adopted sofar message event parses isCurrent
  · intro clear
    refine ⟨fun sofar more _ => ?_, fun sofar more _ => ?_, fun sofar message event parses isCurrent => ?_⟩
    · rw [merged_append]
      exact le_merged shownAt_mergeState _ more
    · rw [merged_append]
      exact le_merged succeededAt_mergeState _ more
    · rw [merged_message parses]
      exact (mergeState_adopts isCurrent).mpr (clear sofar message event parses isCurrent)

/-- Reads a time with nine decimals of a second or with none, in milliseconds. -/
def isoParse (text : String) : Option ℤ :=
  (readTime text.toList <|> readTime (text.toList.dropLast ++ ".000000000Z".toList)).map (· / 1000000)

def outage : Message :=
  ("state", some (.object [("lastSuccess", .string "2026-07-14T15:42:10.123456789Z"),
    ("lastError", .string "read logger: i/o timeout"), ("lastErrorAt", .string "2026-07-14T15:42:43.123456789Z"),
    ("errorClass", .string "communication"), ("stale", .boolean true)]))

/-- The server omits the error texts of a success, but not the time. -/
def recovery : Message :=
  ("state", some (.object [("lastSuccess", .string "2026-07-14T15:43:20.123456789Z"),
    ("lastErrorAt", .string "0001-01-01T00:00:00Z"), ("stale", .boolean false)]))

/-- The error of the outage is still there after the success. -/
theorem error_outlives_outage : (merged isoParse none [outage, recovery]).map LiveState.lastError =
    some (some "read logger: i/o timeout") ∧ ¬LiveRun isoParse none [outage, recovery] := by
  have shown : (merged isoParse none [outage, recovery]).map LiveState.lastError =
      some (some "read logger: i/o timeout") := by decide +kernel
  refine ⟨shown, fun run => ?_⟩
  have parsed : parseLiveEvent isoParse recovery.1 recovery.2 = some (.state {
      stale := false, lastSuccess := "2026-07-14T15:43:20.123456789Z", lastErrorAt := "0001-01-01T00:00:00Z" }) := by
    decide +kernel
  obtain ⟨state, after, -, lastError, -⟩ :=
    run.adopted [outage] recovery _ ⟨List.prefix_refl _, parsed⟩ (by unfold IsCurrent; decide +kernel)
  rw [List.singleton_append] at after
  rw [after, Option.map_some, lastError] at shown
  cases shown

end Helio.Live
