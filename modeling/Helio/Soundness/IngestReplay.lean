import Helio.Machine.Run
import Helio.Model.RelayIngest

/-! # Replayed requests

The stored observation is never older than one that was accepted, so a request that is sent again is
either older, and ignored, or of the same time. It is then only ignored when it is the stored version:
another version of the same observation that was accepted since is overwritten.
-/

namespace Helio.Relay

variable {Body : Type} {platform : Platform Body} {relay t : RelayApp Body} {events : List (RelayEvent Body)}

/-- The snapshot is another version of the observation that is stored. -/
def IsOvertaken (data : Data) (snapshot : Snapshot) : Prop :=
  ∃ current, data.snapshot = some current ∧ current.observedAt = snapshot.observedAt ∧ current ≠ snapshot

/-- What is promised about a relay that has been running for some time. -/
structure ReplaySafe (platform : Platform Body) (relay : RelayApp Body) : Prop where
  /-- A request that was accepted and is valid again changes nothing exactly when it is not overtaken. -/
  replayed : ∀ request ∈ relay.accepted, ∀ authenticatedAt parsedAt fault raw snapshot,
    verifySignature platform request authenticatedAt = .ok () → request.body = some raw →
      parseSnapshot platform raw parsedAt = .ok snapshot →
        ((relay.step platform (.ingest request authenticatedAt parsedAt fault)).data.snapshot = relay.data.snapshot ↔
          ¬IsOvertaken relay.data snapshot)
  monotone : ∀ later final, Run (Steps (RelayApp.step platform)) relay later final → ∀ current,
    relay.data.snapshot = some current → ∃ next, final.data.snapshot = some next ∧ current.observedAt ≤ next.observedAt
  devices : relay.data.devices.Nodup ∧ relay.data.devices.length ≤ 20

/-- The devices of a state are distinct and few. -/
def Data.Installed (data : Data) : Prop := data.devices.Nodup ∧ data.devices.length ≤ 20

theorem load_installed {content : FileContent} {data : Data} (loaded : load content = .ok data) : data.Installed := by
  cases content with
  | missing =>
    cases loaded
    exact ⟨List.nodup_nil, Nat.zero_le _⟩
  | failed message => cases loaded
  | parsed version snapshot devices =>
    cases devices with
    | none => cases loaded
    | some devices =>
      rw [load] at loaded
      split at loaded
      · cases loaded
      cases loaded
      have distinct : (uniqueValues (devices.filter validDeviceId)).Nodup :=
        List.nodup_reverse.mpr (List.nodup_dedup _)
      exact ⟨distinct.sublist (List.take_sublist ..), List.length_take_le ..⟩

theorem packageInstalled_installed {data : Data} (installed : data.Installed) (device : Option String) :
    (packageInstalled data device).Installed ∧ (packageInstalled data device).snapshot = data.snapshot := by
  rw [packageInstalled]
  split
  · exact ⟨installed, rfl⟩
  next id valid =>
  rw [Data.addDevice]
  split
  · next after added =>
    split at added
    · cases added
    next absent =>
    split at added
    · cases added
    next room =>
    cases added
    simp only [Bool.or_eq_true, decide_eq_true_eq, not_or] at absent
    refine ⟨⟨?_, ?_⟩, rfl⟩
    · exact List.nodup_append.mpr ⟨installed.1, List.nodup_singleton _, fun item member other same => by
        rw [List.mem_singleton.mp same]
        rintro rfl
        exact absent.2 member⟩
    · rw [List.length_append, List.length_singleton]
      omega
  · exact ⟨installed, rfl⟩

theorem packageRemoved_installed {data : Data} (installed : data.Installed) (device : Option String) :
    (packageRemoved data device).Installed ∧ (packageRemoved data device).snapshot = data.snapshot := by
  rw [packageRemoved]
  split
  · exact ⟨installed, rfl⟩
  next id valid =>
  rw [Data.removeDevice]
  split
  · exact ⟨installed, rfl⟩
  · exact ⟨⟨installed.1.filter _, (List.length_filter_le ..).trans installed.2⟩, rfl⟩

/-- The snapshot of the second state is there and not older. -/
def NotOlder (before after : Data) : Prop :=
  ∀ current, before.snapshot = some current → ∃ next, after.snapshot = some next ∧ current.observedAt ≤ next.observedAt

theorem NotOlder.of_eq {before after : Data} (same : after.snapshot = before.snapshot) : NotOlder before after :=
  fun current here => ⟨current, same.trans here, le_refl _⟩

theorem NotOlder.trans {first second third : Data} (left : NotOlder first second) (right : NotOlder second third) :
    NotOlder first third := fun current here => by
  obtain ⟨next, there, order⟩ := left current here
  obtain ⟨last, found, later⟩ := right next there
  exact ⟨last, found, order.trans later⟩

theorem updateSnapshot_some {data after : Data} {snapshot : Snapshot}
    (updated : data.updateSnapshot snapshot = some after) :
    after = { data with snapshot := some snapshot } ∧
      ∀ current, data.snapshot = some current → current.observedAt ≤ snapshot.observedAt ∧ current ≠ snapshot := by
  rw [Data.updateSnapshot] at updated
  split at updated
  · next current here =>
    split at updated
    · cases updated
    next order =>
    split at updated
    · cases updated
    next differ =>
    refine ⟨(Option.some.inj updated).symm, fun other found => ?_⟩
    rw [here] at found
    cases found
    exact ⟨not_lt.mp order, differ⟩
  · next empty =>
    refine ⟨(Option.some.inj updated).symm, fun other found => ?_⟩
    rw [empty] at found
    cases found

theorem updateSnapshot_none {data : Data} {snapshot : Snapshot} (unchanged : data.updateSnapshot snapshot = none) :
    ∃ current, data.snapshot = some current ∧ (snapshot.observedAt < current.observedAt ∨ current = snapshot) := by
  rw [Data.updateSnapshot] at unchanged
  split at unchanged
  · next current here =>
    refine ⟨current, here, ?_⟩
    split at unchanged
    · next order => exact Or.inl order
    split at unchanged
    · next same => exact Or.inr same
    · cases unchanged
  · cases unchanged

/-- What a body says does not depend on when it is read. -/
theorem parseSnapshot_stable {raw : Body} {before after : ℤ} {first second : Snapshot}
    (read : parseSnapshot platform raw before = .ok first) (again : parseSnapshot platform raw after = .ok second) :
    first = second := by
  rw [parseSnapshot] at read again
  split at read
  · cases read
  · next fields value =>
    rw [value] at again
    dsimp only at again
    split at read
    · cases read
    next snapshot found =>
    rw [found] at again
    dsimp only at again
    split at read
    · cases read
    split at again
    · cases again
    rw [← Except.ok.inj read, ← Except.ok.inj again]
  · cases read

/-- How a request may end. -/
inductive Ingested (platform : Platform Body) (data : Data) (request : IngestRequest Body)
    (authenticatedAt parsedAt : ℤ) :
    Data × IngestResponse → Prop
  | rejected (error : RequestError) : Ingested platform data request authenticatedAt parsedAt (data, .rejected error)
  | ignored (raw : Body) (snapshot : Snapshot) (body : request.body = some raw)
    (parsed : parseSnapshot platform raw parsedAt = .ok snapshot) (unchanged : data.updateSnapshot snapshot = none) :
    Ingested platform data request authenticatedAt parsedAt (data, .accepted false)
  | updated (raw : Body) (snapshot : Snapshot) (body : request.body = some raw)
    (parsed : parseSnapshot platform raw parsedAt = .ok snapshot) (after : Data)
    (changed : data.updateSnapshot snapshot = some after) (response : IngestResponse) :
    Ingested platform data request authenticatedAt parsedAt (after, response)

theorem ingest_cases (platform : Platform Body) (data : Data) (request : IngestRequest Body)
    (authenticatedAt parsedAt : ℤ) (fault : Option String) :
    Ingested platform data request authenticatedAt parsedAt
      (ingest platform data request authenticatedAt parsedAt fault) := by
  rw [ingest]
  split
  · exact .rejected _
  · exact .rejected _
  · next raw _ body =>
    split
    · exact .rejected _
    next snapshot parsed =>
    split
    · next unchanged => exact .ignored raw snapshot body parsed unchanged
    next after changed =>
    split <;> exact .updated raw snapshot body parsed after changed _

/-- A request never brings an older snapshot, and its own when it is accepted; devices stay. -/
theorem ingest_spec (platform : Platform Body) (data : Data) (request : IngestRequest Body)
    (authenticatedAt parsedAt : ℤ) (fault : Option String) :
    NotOlder data (ingest platform data request authenticatedAt parsedAt fault).1 ∧
      (ingest platform data request authenticatedAt parsedAt fault).1.devices = data.devices := by
  generalize result : ingest platform data request authenticatedAt parsedAt fault = effect
  have cases := ingest_cases platform data request authenticatedAt parsedAt fault
  rw [result] at cases
  cases cases with
  | rejected error => exact ⟨.of_eq rfl, rfl⟩
  | ignored raw snapshot body parsed unchanged => exact ⟨.of_eq rfl, rfl⟩
  | updated raw snapshot body parsed after changed response =>
    obtain ⟨rfl, newer⟩ := updateSnapshot_some changed
    exact ⟨fun current here => ⟨snapshot, rfl, (newer current here).1⟩, rfl⟩

/-- The stored observation is not older than that of the request. -/
def Covers (platform : Platform Body) (data : Data) (request : IngestRequest Body) : Prop :=
  ∀ raw parsedAt snapshot, request.body = some raw → parseSnapshot platform raw parsedAt = .ok snapshot →
    ∃ current, data.snapshot = some current ∧ snapshot.observedAt ≤ current.observedAt

theorem Covers.later {before after : Data} {request : IngestRequest Body} (covers : Covers platform before request)
    (order : NotOlder before after) : Covers platform after request := fun raw parsedAt snapshot body parsed => by
  obtain ⟨current, here, older⟩ := covers raw parsedAt snapshot body parsed
  obtain ⟨next, there, newer⟩ := order current here
  exact ⟨next, there, older.trans newer⟩

/-- What every step keeps. -/
structure Kept (platform : Platform Body) (relay : RelayApp Body) : Prop where
  covers : ∀ request ∈ relay.accepted, Covers platform relay.data request
  installed : relay.data.Installed

theorem ingest_covers {data after : Data} {request : IngestRequest Body} {authenticatedAt parsedAt : ℤ}
    {fault : Option String} {updated : Bool}
    (accepted : ingest platform data request authenticatedAt parsedAt fault = (after, .accepted updated)) :
    Covers platform after request := by
  have cases := ingest_cases platform data request authenticatedAt parsedAt fault
  rw [accepted] at cases
  intro raw at_ snapshot body parsed
  cases cases with
  | ignored _ stored same earlier unchanged =>
    rw [body] at same
    cases same
    rw [parseSnapshot_stable parsed earlier]
    obtain ⟨current, here, order⟩ := updateSnapshot_none unchanged
    rcases order with newer | rfl
    · exact ⟨current, here, newer.le⟩
    · exact ⟨current, here, le_refl _⟩
  | updated _ stored same earlier _ changed =>
    rw [body] at same
    cases same
    obtain ⟨rfl, -⟩ := updateSnapshot_some changed
    rw [parseSnapshot_stable parsed earlier]
    exact ⟨stored, rfl, le_refl _⟩

/-- A step keeps the devices, and stores no older observation. -/
theorem step_notOlder (platform : Platform Body) (relay : RelayApp Body) (event : RelayEvent Body)
    (installed : relay.data.Installed) :
    NotOlder relay.data (relay.step platform event).data ∧ (relay.step platform event).data.Installed := by
  cases event with
  | ingest request authenticatedAt parsedAt fault =>
    have spec := ingest_spec platform relay.data request authenticatedAt parsedAt fault
    rw [RelayApp.step]
    split <;> next data _ result =>
      rw [result] at spec
      exact ⟨spec.1, by rw [Data.Installed, spec.2]; exact installed⟩
  | packageInstalled device =>
    have spec := packageInstalled_installed installed device
    exact ⟨.of_eq spec.2, spec.1⟩
  | packageRemoved device =>
    have spec := packageRemoved_installed installed device
    exact ⟨.of_eq spec.2, spec.1⟩

theorem Kept.step (kept : Kept platform relay) (event : RelayEvent Body) :
    Kept platform (relay.step platform event) := by
  obtain ⟨order, installed⟩ := step_notOlder platform relay event kept.installed
  refine ⟨fun request member => ?_, installed⟩
  have old : request ∈ relay.accepted → Covers platform (relay.step platform event).data request := fun before =>
    (kept.covers request before).later order
  cases event with
  | ingest sent authenticatedAt parsedAt fault =>
    rcases result : ingest platform relay.data sent authenticatedAt parsedAt fault with ⟨data, updated | error⟩
    · rw [RelayApp.step, result] at member old ⊢
      rcases List.mem_append.mp member with before | new
      · exact old before
      · rw [List.mem_singleton.mp new]
        exact ingest_covers result
    · rw [RelayApp.step, result] at member old ⊢
      exact old member
  | packageInstalled device => exact old member
  | packageRemoved device => exact old member

theorem Kept.run (kept : Kept platform relay) (run : Run (Steps (RelayApp.step platform)) relay events t) :
    Kept platform t ∧ NotOlder relay.data t.data := by
  refine @Run.invariant _ _ _ _ _ _ (fun t => Kept platform t ∧ NotOlder relay.data t.data) run ⟨kept, .of_eq rfl⟩ ?_
  rintro t event u ⟨before, order⟩ rfl
  exact ⟨before.step event, order.trans (step_notOlder platform t event before.installed).1⟩

/-- A request is sent again: it changes the snapshot exactly when another version has overtaken it. -/
theorem Kept.replayed (kept : Kept platform relay) {request : IngestRequest Body} (accepted : request ∈ relay.accepted)
    {authenticatedAt parsedAt : ℤ} (fault : Option String) {raw : Body} {snapshot : Snapshot}
    (valid : verifySignature platform request authenticatedAt = .ok ()) (body : request.body = some raw)
    (parsed : parseSnapshot platform raw parsedAt = .ok snapshot) :
    (relay.step platform (.ingest request authenticatedAt parsedAt fault)).data.snapshot = relay.data.snapshot ↔
      ¬IsOvertaken relay.data snapshot := by
  obtain ⟨current, here, older⟩ := kept.covers request accepted raw parsedAt snapshot body parsed
  have stored : (relay.step platform (.ingest request authenticatedAt parsedAt fault)).data =
      (relay.data.updateSnapshot snapshot).getD relay.data := by
    rw [RelayApp.step, ingest, valid, body]
    dsimp only
    rw [parsed]
    dsimp only
    cases relay.data.updateSnapshot snapshot with
    | none => rfl
    | some after => cases fault <;> rfl
  rw [stored, IsOvertaken, here]
  rcases updated : relay.data.updateSnapshot snapshot with _ | after
  · obtain ⟨other, found, order⟩ := updateSnapshot_none updated
    rw [here] at found
    cases found
    refine iff_of_true here ?_
    rintro ⟨_, found, same, differ⟩
    cases found
    rcases order with newer | equal
    · omega
    · exact differ equal
  · obtain ⟨rfl, newer⟩ := updateSnapshot_some updated
    obtain ⟨order, differ⟩ := newer current here
    refine iff_of_false (fun same => differ (Option.some.inj same).symm) (not_not.mpr ?_)
    exact ⟨current, rfl, le_antisymm order older, differ⟩

/-- After any requests and events, a request that was accepted and is sent again leaves the snapshot as it is
exactly when no other version of its observation is stored; the observation never becomes older, and the
devices stay distinct and few. -/
theorem replay_exactly {content : FileContent} {data : Data} (loaded : load content = .ok data)
    (run : Run (Steps (RelayApp.step platform)) ⟨data, []⟩ events t) : ReplaySafe platform t := by
  have initial : Kept platform (⟨data, []⟩ : RelayApp Body) := ⟨by simp, load_installed loaded⟩
  have kept := (initial.run run).1
  exact ⟨fun request member authenticatedAt parsedAt fault raw snapshot valid body parsed =>
    kept.replayed member fault valid body parsed, fun later final more => (kept.run more).2, kept.installed⟩

/-- The bodies of two requests about one observation, fresh and then stale, with the digests of both. -/
private def publisher : Platform Bool where
  hmac timestamp stale :=
    match timestamp.toList, stale with
    | ['1', '7', '8', '5', '3', '5', '3', '4', '0', '0'], false =>
      "8c43139086009b8cb08b859b328df59864233408fa1d717ec76857cf2c85e4de"
    | _, _ => "a48a7f8f74d6b5ba8bd18d72e11f9d683fa82f0602fa7607949d3409059175c5"
  parseJson stale := some (.object [("version", .number (.finite 1)), ("observedAt", .string "2026-07-29T19:29:55Z"),
    ("acPowerW", .number (.finite 2840)), ("energyTodayWh", .number (.finite 14200)), ("status", .string "normal"),
    ("stale", .bool stale)])
  parseDate _ := some 1785353395000

private def fresh : IngestRequest Bool :=
  ⟨some false, "1785353400", "sha256=8c43139086009b8cb08b859b328df59864233408fa1d717ec76857cf2c85e4de"⟩

private def aged : IngestRequest Bool :=
  ⟨some true, "1785353460", "sha256=a48a7f8f74d6b5ba8bd18d72e11f9d683fa82f0602fa7607949d3409059175c5"⟩

private def published : List (RelayEvent Bool) :=
  [.ingest fresh 1785353400500 1785353400500 none, .ingest aged 1785353460500 1785353460500 none]

private def reported (stale : Bool) : Snapshot := ⟨1785353395000, 2840, 14200, "normal", stale⟩

/-- The relay is told that its data are stale. -/
private def informed : RelayApp Bool := ⟨⟨some (reported true), []⟩, [fresh, aged]⟩

private theorem published_informed : Run (Steps (RelayApp.step publisher)) ⟨emptyState, []⟩ published informed :=
  Run.steps_iff.mpr rfl

theorem informed_safe : ReplaySafe publisher informed := by
  have missing : load .missing = .ok emptyState := rfl
  exact replay_exactly missing published_informed

/-- The fresh version is sent again two minutes after it was accepted: the data are not stale any more. -/
theorem informed_undone : Run (Steps (RelayApp.step publisher)) ⟨emptyState, []⟩ published informed ∧
    fresh ∈ informed.accepted ∧ informed.data.snapshot = some (reported true) ∧
      informed.step publisher (.ingest fresh 1785353520500 1785353520500 none) =
        ⟨⟨some (reported false), []⟩, [fresh, aged, fresh]⟩ :=
  ⟨published_informed, List.mem_cons_self, rfl, rfl⟩

end Helio.Relay
