import Helio.Model.LiveStream
import Helio.Soundness.LiveMerge
import Helio.Soundness.RelayAcceptance

/-! # What the page reads of the event stream

The page takes the first message and the message of every success for what the server holds. The guards of the
page ask for the fields of a state where the server writes a whole event, so it passes over every later
message of a state: an outage that begins while the page is connected does not reach it.
-/

namespace Helio.Live

open Calendar

variable {dateParse : String → Option ℤ} {local_ : ℤ → Option String}

/-- `Date.parse` reads the texts of the server. -/
structure ReadsTimes (dateParse : String → Option ℤ) (local_ : ℤ → Option String) : Prop where
  utc : ∀ t text, utcText t = some text → (dateParse text).isSome
  zoned : ∀ t text, local_ t = some text → (dateParse text).isSome

section Values

def shownNumber : Float64 → Option ℚ
  | .finite value => some value
  | _ => none

def shownMPPT (mppt : Domain.MPPT) : Option MPPTTelemetry := do
  let voltageV ← shownNumber mppt.voltageV
  let currentA ← shownNumber mppt.currentA
  let powerW ← shownNumber mppt.powerW
  return { active := mppt.active, currentA, powerW, voltageV }

def shownGrid (grid : Domain.Grid) : Option Grid := do
  let voltageV ← shownNumber grid.voltageV
  let frequencyHz ← shownNumber grid.frequencyHz
  return { frequencyHz, voltageV }

/-- The snapshot of the server at the types of the page, if it can be written. -/
def shownSnapshot (snapshot : Domain.TelemetrySnapshot) : Option LiveSnapshot := do
  let observedAt ← utcText snapshot.observedAt
  let acPowerW ← shownNumber snapshot.acPowerW
  let energyTodayWh ← shownNumber snapshot.energyTodayWh
  let energyLifetimeWh ← shownNumber snapshot.energyLifetimeWh
  let pv1 ← shownMPPT snapshot.pv1
  let pv2 ← shownMPPT snapshot.pv2
  let grid ← shownGrid snapshot.grid
  return { acPowerW, energyLifetimeWh, energyTodayWh, faultCodes := snapshot.faultCodes.getD [], grid, observedAt,
           pv1, pv2, status := snapshot.status }

def shownText (text : String) : Option String := if text = "" then none else some text

/-- The snapshot of a state, if the state has one. -/
def shownLatest : Option Domain.TelemetrySnapshot → Option (Option LiveSnapshot)
  | none => some none
  | some snapshot => (shownSnapshot snapshot).map some

def shownState (local_ : ℤ → Option String) (state : ServerState) : Option LiveState := do
  let snapshot ← shownLatest state.snapshot
  let lastSuccess ← utcText state.lastSuccess
  let lastErrorAt ← local_ state.lastErrorAt
  return { errorClass := shownText state.errorClass, lastError := shownText state.lastError, lastErrorAt, lastSuccess,
           snapshot, stale := state.stale }

end Values

section Reading

@[simp] theorem field_object (key : String) (fields : List (String × Json)) :
    (Json.object fields).field key = fields.reverse.lookup key := rfl

@[simp] theorem isRecord_object (fields : List (String × Json)) : isRecord (.object fields) = true := rfl

/-- A value is written exactly if it can be shown, and it is read as it is shown. -/
inductive ReadAs {α : Type} (read : Option Json → Option α) : Option Json → Option α → Prop where
  | unwritten : ReadAs read none none
  | written {json : Json} {value : α} (same : read (some json) = some value) : ReadAs read (some json) (some value)

theorem ReadAs.cases {α : Type} {read : Option Json → Option α} {json : Option Json} {shown : Option α}
    (readAs : ReadAs read json shown) : json = none ∧ shown = none ∨
      ∃ written value, json = some written ∧ shown = some value ∧ read (some written) = some value := by
  cases readAs with
  | unwritten => exact Or.inl ⟨rfl, rfl⟩
  | written same => exact Or.inr ⟨_, _, rfl, rfl, same⟩

/-- Values that are written one after the other are read one after the other. -/
theorem ReadAs.bind {α β : Type} {read : Option Json → Option α} {whole : Option Json → Option β} {json : Option Json}
    {shown : Option α} {write : Json → Option Json} {build : α → Option β} (first : ReadAs read json shown)
    (next : ∀ json value, read (some json) = some value → ReadAs whole (write json) (build value)) :
    ReadAs whole (json >>= write) (shown >>= build) := by
  cases first with
  | unwritten => exact .unwritten
  | written same => exact next _ _ same

/-- A text that both sides have. -/
theorem ReadAs.text {β : Type} {whole : Option Json → Option β} {text : Option String} {write : String → Option Json}
    {build : String → Option β} (next : ∀ value, text = some value → ReadAs whole (write value) (build value)) :
    ReadAs whole (text >>= write) (text >>= build) := by
  cases text with
  | none => exact .unwritten
  | some value => exact next value rfl

theorem number_readAs (number : Float64) : ReadAs finite (numberJson number) (shownNumber number) := by
  cases number with
  | nan => exact .unwritten
  | infinite negative => exact .unwritten
  | finite value => exact .written rfl

theorem mppt_readAs (mppt : Domain.MPPT) : ReadAs isMPPT (mpptJson mppt) (shownMPPT mppt) := by
  apply (number_readAs mppt.voltageV).bind
  intro voltageJson voltageV readVoltage
  apply (number_readAs mppt.currentA).bind
  intro currentJson currentA readCurrent
  apply (number_readAs mppt.powerW).bind
  intro powerJson powerW readPower
  apply ReadAs.written
  simp [isMPPT, List.lookup_cons, boolean, readVoltage, readCurrent, readPower]

/-- A record of the page, for values that are records themselves. -/
def readGrid (value : Option Json) : Option Grid := do
  let grid ← value
  guard (isRecord grid)
  let voltageV ← finite (grid.field "voltageV")
  let frequencyHz ← finite (grid.field "frequencyHz")
  return { frequencyHz, voltageV }

theorem grid_readAs (grid : Domain.Grid) : ReadAs readGrid (gridJson grid) (shownGrid grid) := by
  apply (number_readAs grid.voltageV).bind
  intro voltageJson voltageV readVoltage
  apply (number_readAs grid.frequencyHz).bind
  intro frequencyJson frequencyHz readFrequency
  apply ReadAs.written
  simp [readGrid, List.lookup_cons, readVoltage, readFrequency]

theorem readGrid_some {json : Json} {grid : Grid} (read : readGrid (some json) = some grid) :
    isRecord json = true ∧ finite (json.field "voltageV") = some grid.voltageV ∧
      finite (json.field "frequencyHz") = some grid.frequencyHz := by
  simp only [readGrid, Option.bind_eq_bind, Option.bind_some, Option.bind_eq_some_iff, Option.guard_eq_some'] at read
  obtain ⟨-, record, voltageV, readVoltage, frequencyHz, readFrequency, same⟩ := read
  obtain rfl := Option.some.inj same
  exact ⟨record, readVoltage, readFrequency⟩

theorem faultCodes_faultsJson (codes : List ℕ) : faultCodes (some (faultsJson (some codes))) = some codes := by
  rw [faultsJson, faultCodes]
  induction codes with
  | nil => rfl
  | cons code rest ih =>
    rw [List.map_cons, List.mapM_cons, ih]
    simp [faultCode]

variable (reads : ReadsTimes dateParse local_)

include reads in
theorem snapshot_readAs (snapshot : Domain.TelemetrySnapshot) :
    ReadAs (isSnapshot dateParse) (snapshotJson { snapshot with faultCodes := some (snapshot.faultCodes.getD []) })
      (shownSnapshot snapshot) := by
  apply ReadAs.text
  intro observedAt observed
  have parses := reads.utc _ _ observed
  apply (number_readAs snapshot.acPowerW).bind
  intro powerJson acPowerW readPower
  apply (number_readAs snapshot.energyTodayWh).bind
  intro todayJson energyTodayWh readToday
  apply (number_readAs snapshot.energyLifetimeWh).bind
  intro lifetimeJson energyLifetimeWh readLifetime
  apply (mppt_readAs snapshot.pv1).bind
  intro pv1Json pv1 readPv1
  apply (mppt_readAs snapshot.pv2).bind
  intro pv2Json pv2 readPv2
  apply (grid_readAs snapshot.grid).bind
  intro gridJson grid readGridJson
  have codes := faultCodes_faultsJson (snapshot.faultCodes.getD [])
  obtain ⟨record, readVoltage, readFrequency⟩ := readGrid_some readGridJson
  apply ReadAs.written
  simp [isSnapshot, List.lookup_cons, string, record, parses, readPower, readToday, readLifetime, readPv1, readPv2,
    readVoltage, readFrequency, codes]

/-- The fields of a state after those of its snapshot. -/
def stateFields (state : ServerState) (lastSuccess lastErrorAt : String) : List (String × Json) :=
  ("lastSuccess", .string lastSuccess) :: (textField "lastError" state.lastError ++
    ("lastErrorAt", .string lastErrorAt) :: (textField "errorClass" state.errorClass ++ [("stale", .boolean state.stale)]))

section States

variable {state : ServerState} {lastSuccess lastErrorAt : String} (success : (dateParse lastSuccess).isSome)
  (error : (dateParse lastErrorAt).isSome)

include success error

theorem isState_bare : isState dateParse (some (.object (stateFields state lastSuccess lastErrorAt))) =
    some { errorClass := shownText state.errorClass, lastError := shownText state.lastError, lastErrorAt, lastSuccess,
           snapshot := none, stale := state.stale } := by
  unfold isState stateFields optionalString textField shownText
  split_ifs <;> simp [List.lookup_cons, boolean, success, error]

theorem isState_snapshot {json : Json} {snapshot : LiveSnapshot} (read : isSnapshot dateParse (some json) = some snapshot) :
    isState dateParse (some (.object (("snapshot", json) :: stateFields state lastSuccess lastErrorAt))) =
      some { errorClass := shownText state.errorClass, lastError := shownText state.lastError, lastErrorAt, lastSuccess,
             snapshot := some snapshot, stale := state.stale } := by
  unfold isState stateFields optionalString textField shownText
  split_ifs <;> simp [List.lookup_cons, boolean, success, error, read]

end States

include reads in
theorem state_readAs (state : ServerState) :
    ReadAs (isState dateParse) (stateJson local_ (utcState state)) (shownState local_ state) := by
  unfold stateJson shownState
  cases latest : state.snapshot with
  | none =>
    simp only [utcState, utcSnapshot, latest, Option.map_none, snapshotField, shownLatest]
    apply ReadAs.text
    intro lastSuccess succeeded
    apply ReadAs.text
    intro lastErrorAt failed
    exact .written (isState_bare (reads.utc _ _ succeeded) (reads.zoned _ _ failed))
  | some snapshot =>
    simp only [utcState, utcSnapshot, latest, Option.map_some, snapshotField, shownLatest, Option.bind_eq_bind,
      Option.bind_map]
    apply (snapshot_readAs reads snapshot).bind
    intro json shown read
    apply ReadAs.text
    intro lastSuccess succeeded
    apply ReadAs.text
    intro lastErrorAt failed
    exact .written (isState_snapshot (reads.utc _ _ succeeded) (reads.zoned _ _ failed) read)

end Reading

section Streams

/-- The event of the page for an event of the server: none for one that is written but not read. -/
def shownEvent (local_ : ℤ → Option String) (event : ServerEvent) : Option (Option LiveEvent) :=
  match event.snapshot with
  | none => (shownState local_ event.state).map fun _ => none
  | some snapshot => do
    let latest ← shownSnapshot snapshot
    let state ← shownState local_ event.state
    return some (.snapshot state latest)

/-- The events of the page for the loop of a connection, which ends where nothing can be written. -/
def shownLoop (local_ : ℤ → Option String) : List (Option ServerEvent) → List LiveEvent
  | [] => []
  | none :: rest => shownLoop local_ rest
  | some event :: rest =>
    match shownEvent local_ event with
    | none => []
    | some shown => shown.toList ++ shownLoop local_ rest

def shownEvents (local_ : ℤ → Option String) (latest : ServerState) (stream : List (Option ServerEvent)) :
    List LiveEvent :=
  match shownState local_ latest with
  | none => []
  | some state => .state state :: shownLoop local_ stream

def mergedEvents (dateParse : String → Option ℤ) (current : Option LiveState) (events : List LiveEvent) :
    Option LiveState :=
  events.foldl (fun page event => some (mergeState dateParse page event.incoming event.eventSnapshot)) current

variable (reads : ReadsTimes dateParse local_)

include reads in
/-- What the page makes of a message of the loop. -/
theorem event_readAs (event : ServerEvent) :
    ReadAs (fun json => some (parseLiveEvent dateParse event.kind json)) (eventJson local_ (utcEvent event))
      (shownEvent local_ event) := by
  have state := state_readAs reads event.state
  rcases event.published with ⟨kind, present⟩ | ⟨kind, absent⟩
  · obtain ⟨snapshot, found⟩ := Option.ne_none_iff_exists'.mp present
    unfold eventJson shownEvent
    simp only [utcEvent, utcSnapshot, found, Option.map_some, snapshotField, Option.bind_eq_bind, Option.bind_map]
    apply (snapshot_readAs reads snapshot).bind
    intro json latest readLatest
    apply state.bind
    intro stateJson shown readState
    apply ReadAs.written
    simp [parseLiveEvent, kind, List.lookup_cons, string, readLatest, readState]
  · unfold eventJson shownEvent
    simp only [utcEvent, utcSnapshot, absent, snapshotField, Option.bind_eq_bind, Option.map_eq_bind]
    apply state.bind
    intro stateJson shown readState
    apply ReadAs.written
    simp [parseLiveEvent, kind, isState, List.lookup_cons, boolean]

include reads in
theorem merged_eventLoop (current : Option LiveState) (stream : List (Option ServerEvent)) :
    merged dateParse current (eventLoop local_ stream) = mergedEvents dateParse current (shownLoop local_ stream) := by
  induction stream generalizing current with
  | nil => rfl
  | cons event rest ih =>
    cases event with
    | none => exact ih current
    | some event =>
      rw [eventLoop, shownLoop, writeSSE]
      rcases (event_readAs reads event).cases with ⟨unwritten, unshown⟩ | ⟨json, shown, written, same, read⟩
      · rw [unwritten, unshown]
        rfl
      · rw [written, same]
        have parsed : parseLiveEvent dateParse event.kind (some json) = shown := Option.some.inj read
        change merged dateParse (apply dateParse current (event.kind, some json)) _ =
          mergedEvents dateParse current (shown.toList ++ _)
        rw [ih, apply, parsed]
        cases shown <;> rfl

include reads in
theorem merged_events (current : Option LiveState) (latest : ServerState) (stream : List (Option ServerEvent)) :
    merged dateParse current (events local_ latest stream) =
      mergedEvents dateParse current (shownEvents local_ latest stream) := by
  rw [events, shownEvents, writeSSE]
  rcases (state_readAs reads latest).cases with ⟨unwritten, unshown⟩ | ⟨json, shown, written, same, read⟩
  · rw [unwritten, unshown]
    rfl
  · rw [written, same]
    have parsed : parseLiveEvent dateParse "state" (some json) = some (.state shown) := by simp [parseLiveEvent, read]
    change merged dateParse (apply dateParse current ("state", some json)) _ = _
    rw [merged_eventLoop reads, apply, parsed]
    rfl

theorem shownLoop_unsuccessful {stream : List (Option ServerEvent)}
    (none_succeeds : ∀ event, some event ∈ stream → event.snapshot = none) : shownLoop local_ stream = [] := by
  induction stream with
  | nil => rfl
  | cons event rest ih =>
    have later := ih fun other member => none_succeeds other (List.mem_cons_of_mem _ member)
    cases event with
    | none => exact later
    | some event =>
      rw [shownLoop, shownEvent, none_succeeds event List.mem_cons_self, later]
      cases shownState local_ event.state <;> rfl

/-- The messages of a connection have the page merge its first state and the successes after it. A stream
without a success leaves the page as the first message makes it. -/
theorem stream_read (reads : ReadsTimes dateParse local_) (current : Option LiveState) (latest : ServerState)
    (stream : List (Option ServerEvent)) :
    merged dateParse current (events local_ latest stream) =
        mergedEvents dateParse current (shownEvents local_ latest stream) ∧
      ((∀ event, some event ∈ stream → event.snapshot = none) →
        merged dateParse current (events local_ latest stream) = merged dateParse current (events local_ latest [])) := by
  refine ⟨merged_events reads current latest stream, fun none_succeeds => ?_⟩
  rw [merged_events reads, merged_events reads, shownEvents, shownEvents, shownLoop_unsuccessful none_succeeds]
  rfl

/-- `Date.parse` on the texts of a server in UTC. -/
private def utcParse (text : String) : Option ℤ := (Alexapush.readNano text.toList).map (· / 1000000)

private theorem utcParse_reads : ReadsTimes utcParse utcText := by
  have parses : ∀ t text, utcText t = some text → (utcParse text).isSome := by
    intro t text written
    obtain ⟨year, same⟩ := Option.ite_none_right_eq_some.mp written
    obtain rfl := Option.some.inj same
    simp [utcParse, Alexapush.readNano_rfc3339Nano year]
  exact ⟨parses, parses⟩

private def connected : ServerState := { lastSuccess := 1784043730123456789 }

private def silence : ServerEvent where
  kind := "state"
  snapshot := none
  state :=
    { connected with
      lastError := "read logger: i/o timeout", lastErrorAt := 1784043763123456789, errorClass := "communication"
      stale := true }
  published := Or.inr ⟨rfl, rfl⟩

/-- The server has been stale for a while, and the page is connected and does not know it. -/
theorem outage_unseen : silence.state.stale = true ∧
    (merged utcParse none (events utcText connected [none, some silence])).map LiveState.stale = some false := by
  refine ⟨rfl, ?_⟩
  rw [(stream_read utcParse_reads none connected [none, some silence]).2 (by simp [silence])]
  decide +kernel

end Streams

end Helio.Live
