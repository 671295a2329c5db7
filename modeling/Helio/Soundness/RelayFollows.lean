import Helio.Machine.Run
import Helio.Soundness.IngestReplay
import Helio.Soundness.RelayAcceptance

/-! # The relay follows the publisher

Requests may be lost, be handled late and be handled again. A publisher with nothing left to deliver leaves a
relay that is at least as recent as the last payload; where no request is handled late it holds that payload.
What the relay holds was published.
-/

namespace Helio.Alexapush

open Relay

variable {Body : Type} {encoder : Encoder Body} {platform : Platform Body} {link t : Link Body}
  {payload : SnapshotPayload} {unix authenticatedAt parsedAt : ℤ} {made : IngestRequest Body} {data : Data}
  {fault : Option String} {events : List LinkEvent}

/-- What a payload says. -/
def SnapshotPayload.Says (payload : SnapshotPayload) (snapshot : Snapshot) : Prop :=
  ∃ w e, payload.acPowerW = .finite w ∧ payload.energyTodayWh = .finite e ∧ snapshot = payload.snapshot w e

/-- The relay knows of an observation as recent as that of the payload. -/
def SnapshotPayload.Reached (payload : SnapshotPayload) (data : Data) : Prop :=
  ∃ current, data.snapshot = some current ∧ payload.observedAt / 1000000 ≤ current.observedAt

theorem SnapshotPayload.Reached.later {before after : Data} (reached : payload.Reached before)
    (order : NotOlder before after) : payload.Reached after := by
  obtain ⟨current, here, older⟩ := reached
  obtain ⟨next, there, newer⟩ := order current here
  exact ⟨next, there, older.trans newer⟩

section Requests

variable (understands : Understands encoder platform) (here : request encoder payload unix = some made)
  (version : payload.version = 1)

include understands here version

/-- What the relay reads of a request is what the payload says. -/
theorem says_of_parsed {raw : Body} {snapshot : Snapshot} (body : made.body = some raw)
    (parsed : parseSnapshot platform raw parsedAt = .ok snapshot) : payload.Says snapshot := by
  obtain ⟨fields, written, rfl⟩ := request_cases here
  obtain rfl := Option.some.inj body
  obtain ⟨⟨-, power, energy⟩, -⟩ := Option.ite_none_right_eq_some.mp written
  rcases acPowerW : payload.acPowerW with _ | _ | w
  · simp [acPowerW, Float64.isFinite] at power
  · simp [acPowerW, Float64.isFinite] at power
  rcases energyTodayWh : payload.energyTodayWh with _ | _ | e
  · simp [energyTodayWh, Float64.isFinite] at energy
  · simp [energyTodayWh, Float64.isFinite] at energy
  refine ⟨w, e, acPowerW, energyTodayWh, ?_⟩
  rw [parseSnapshot, understands.parses payload fields written] at parsed
  simp only [readSnapshot_fields understands written version acPowerW energyTodayWh] at parsed
  split at parsed
  · cases parsed
  next found =>
  split at parsed
  · cases parsed
  obtain ⟨-, same⟩ := Option.ite_none_right_eq_some.mp found
  rw [← Except.ok.inj parsed, ← Option.some.inj same]

/-- After a request the relay holds what it held, or what the payload says. -/
theorem ingest_genuine {current : Snapshot}
    (holds : (ingest platform data made authenticatedAt parsedAt fault).1.snapshot = some current) :
    data.snapshot = some current ∨ payload.Says current := by
  generalize result : ingest platform data made authenticatedAt parsedAt fault = effect at holds
  have cases := ingest_cases platform data made authenticatedAt parsedAt fault
  rw [result] at cases
  cases cases with
  | rejected error => exact Or.inl holds
  | ignored raw snapshot body parsed unchanged => exact Or.inl holds
  | updated raw snapshot body parsed after changed response =>
    obtain ⟨rfl, -⟩ := updateSnapshot_some changed
    obtain rfl := Option.some.inj holds
    exact Or.inr (says_of_parsed understands here version body parsed)

/-- A request that is accepted leaves the relay with the payload or with something more recent. -/
theorem ingest_accepted {after : Data} {updated : Bool}
    (accepted : ingest platform data made authenticatedAt parsedAt fault = (after, .accepted updated)) :
    ∃ snapshot, payload.Says snapshot ∧
      (after.snapshot = some snapshot ∨
        after = data ∧ ∃ current, data.snapshot = some current ∧ snapshot.observedAt < current.observedAt) := by
  have cases := ingest_cases platform data made authenticatedAt parsedAt fault
  rw [accepted] at cases
  cases cases with
  | ignored raw snapshot body parsed unchanged =>
    refine ⟨snapshot, says_of_parsed understands here version body parsed, ?_⟩
    obtain ⟨current, found, older | same⟩ := updateSnapshot_none unchanged
    · exact Or.inr ⟨rfl, current, found, older⟩
    · exact Or.inl (same ▸ found)
  | updated raw snapshot body parsed _ changed =>
    obtain ⟨rfl, -⟩ := updateSnapshot_some changed
    exact ⟨snapshot, says_of_parsed understands here version body parsed, Or.inl rfl⟩

theorem ingest_reached {after : Data} {updated : Bool}
    (accepted : ingest platform data made authenticatedAt parsedAt fault = (after, .accepted updated)) :
    payload.Reached after := by
  obtain ⟨snapshot, ⟨w, e, -, -, told⟩, holds | ⟨rfl, current, holds, older⟩⟩ :=
    ingest_accepted understands here version accepted
  · exact ⟨snapshot, holds, by rw [told]; rfl⟩
  · rw [told] at older
    exact ⟨current, holds, older.le⟩

end Requests

section Steps

/-- What an attempt to send a payload can do. -/
inductive Attempted (encoder : Encoder Body) (platform : Platform Body) (link : Link Body)
    (payload : SnapshotPayload) : Link Body → Prop
  | unsent : Attempted encoder platform link payload link
  | unanswered {unix : ℤ} {made : IngestRequest Body} : request encoder payload unix = some made →
      Attempted encoder platform link payload { link with requests := link.requests ++ [made] }
  | refused {unix authenticatedAt parsedAt : ℤ} {made : IngestRequest Body} {fault : Option String}
      {error : RequestError} {after : Data} : request encoder payload unix = some made →
      ingest platform link.relay made authenticatedAt parsedAt fault = (after, .rejected error) →
      Attempted encoder platform link payload { link with requests := link.requests ++ [made], relay := after }
  | delivered {unix authenticatedAt parsedAt : ℤ} {made : IngestRequest Body} {fault : Option String}
      {updated : Bool} {after : Data} : request encoder payload unix = some made →
      ingest platform link.relay made authenticatedAt parsedAt fault = (after, .accepted updated) →
      Attempted encoder platform link payload
        { link with publisher := ⟨none, true⟩, requests := link.requests ++ [made], relay := after }

theorem attempted (link : Link Body) (payload : SnapshotPayload) (unix : ℤ) (outcome : Outcome) :
    Attempted encoder platform link payload (link.attempt encoder platform payload unix outcome) := by
  unfold Link.attempt Link.send
  rcases sent : request encoder payload unix with _ | made
  · exact .unsent
  cases outcome with
  | failed => exact .unanswered sent
  | answered authenticatedAt parsedAt fault =>
    dsimp only
    generalize result : ingest platform link.relay made authenticatedAt parsedAt fault = effect
    obtain ⟨after, updated | error⟩ := effect
    · exact .delivered sent result
    · exact .refused sent result

/-- What a step can do. -/
inductive Moved (encoder : Encoder Body) (platform : Platform Body) (link : Link Body) : LinkEvent → Link Body → Prop
  | idle {event : LinkEvent} : Moved encoder platform link event link
  | keeps {event : Event} {unix : ℤ} {outcome : Outcome} {next : SnapshotPayload} : event.payload = some next →
      Moved encoder platform link (.event event unix outcome) (link.keep next)
  | begins {event : Event} {unix : ℤ} {outcome : Outcome} {next : SnapshotPayload} {after : Link Body} : event.payload = some next →
      Attempted encoder platform (link.keep next) next after →
      Moved encoder platform link (.event event unix outcome) after
  | ticks {unix : ℤ} {outcome : Outcome} {latest : SnapshotPayload} {after : Link Body} : link.publisher.latest = some latest →
      Attempted encoder platform link latest after → Moved encoder platform link (.tick unix outcome) after
  | arrives {i : ℕ} {made : IngestRequest Body} {authenticatedAt parsedAt : ℤ} {fault : Option String} : made ∈ link.requests →
      Moved encoder platform link (.arrive i authenticatedAt parsedAt fault)
        { link with relay := (ingest platform link.relay made authenticatedAt parsedAt fault).1 }

theorem step_moved (link : Link Body) (event : LinkEvent) :
    Moved encoder platform link event (link.step encoder platform event) := by
  cases event with
  | event event unix outcome =>
    rw [Link.step]
    split
    · exact .idle
    next next read =>
    split
    · exact .keeps read
    · exact .begins read (attempted ..)
  | tick unix outcome =>
    rw [Link.step]
    split
    · exact .idle
    next latest pending => exact .ticks pending (attempted ..)
  | arrive i authenticatedAt parsedAt fault =>
    rw [Link.step]
    split
    · exact .idle
    next made found => exact .arrives (List.mem_of_getElem? found)

end Steps

section Runs

/-- The state of a publisher that begins, and of a relay that may have a snapshot. -/
def opened (relay : Data) : Link Body := { relay }

/-- What holds of a publisher and a relay that knew a snapshot before, or none. -/
structure Follows (encoder : Encoder Body) (platform : Platform Body) (known : Option Snapshot)
    (link : Link Body) : Prop where
  versions : ∀ payload ∈ link.taken, payload.version = 1
  /-- Only the newest payload may still have to be delivered. -/
  newest : link.publisher.latest = none ∨ link.publisher.latest = link.taken.getLast?
  /-- Every request is for a payload that was taken. -/
  made : ∀ made ∈ link.requests, ∃ payload ∈ link.taken, ∃ unix, request encoder payload unix = some made
  /-- What the relay holds is what it knew or what was published. -/
  genuine : ∀ current, link.relay.snapshot = some current →
    known = some current ∨ ∃ payload ∈ link.taken, payload.Says current
  /-- When nothing has to be delivered, the relay is as recent as the last payload. -/
  delivered : link.publisher.latest = none → ∀ last ∈ link.taken.getLast?, last.Reached link.relay

variable {known : Option Snapshot}

theorem follows_opened (relay : Data) : Follows encoder platform relay.snapshot (opened relay : Link Body) where
  versions _ member := by cases member
  newest := Or.inl rfl
  made _ member := by cases member
  genuine _ holds := Or.inl holds
  delivered _ _ member := by cases member

/-- A payload that is taken is the one to deliver. -/
theorem Follows.keep (follows : Follows encoder platform known link) (version : payload.version = 1) :
    Follows encoder platform known (link.keep payload) where
  versions other member := by
    rcases List.mem_append.mp member with before | last
    · exact follows.versions other before
    · rwa [List.mem_singleton.mp last]
  newest := Or.inr (by simp [Link.keep])
  made made member := by
    obtain ⟨other, inside, sent⟩ := follows.made made member
    exact ⟨other, List.mem_append_left _ inside, sent⟩
  genuine current holds := by
    rcases follows.genuine current holds with before | ⟨other, inside, told⟩
    · exact Or.inl before
    · exact Or.inr ⟨other, List.mem_append_left _ inside, told⟩
  delivered none := by cases none

/-- A request for the newest payload is made, and the relay may handle it. -/
theorem Follows.attempted (understands : Understands encoder platform) (follows : Follows encoder platform known link)
    (pending : link.publisher.latest = some payload) {after : Link Body}
    (attempt : Attempted encoder platform link payload after) : Follows encoder platform known after := by
  have newest : link.taken.getLast? = some payload := by
    rcases follows.newest with none | same
    · rw [pending] at none
      cases none
    · rw [← same, pending]
  have taken : payload ∈ link.taken := List.mem_of_getLast? newest
  have version := follows.versions payload taken
  have asked {unix : ℤ} {made : IngestRequest Body} (sent : request encoder payload unix = some made) :
      ∀ other ∈ link.requests ++ [made], ∃ payload ∈ link.taken, ∃ unix, request encoder payload unix = some other := by
    intro other member
    rcases List.mem_append.mp member with before | last
    · exact follows.made other before
    · exact ⟨payload, taken, unix, by rwa [List.mem_singleton.mp last]⟩
  have waiting {data : Data} : link.publisher.latest = none → ∀ last ∈ link.taken.getLast?, last.Reached data := by
    intro none
    rw [pending] at none
    cases none
  have told {unix authenticatedAt parsedAt : ℤ} {made : IngestRequest Body} {fault : Option String}
      (sent : request encoder payload unix = some made) (current : Snapshot)
      (holds : (ingest platform link.relay made authenticatedAt parsedAt fault).1.snapshot = some current) :
      known = some current ∨ ∃ payload ∈ link.taken, payload.Says current := by
    rcases ingest_genuine understands sent version holds with before | told
    · exact follows.genuine current before
    · exact Or.inr ⟨payload, taken, told⟩
  cases attempt with
  | unsent => exact follows
  | unanswered sent => exact ⟨follows.versions, follows.newest, asked sent, follows.genuine, follows.delivered⟩
  | refused sent result =>
    refine ⟨follows.versions, follows.newest, asked sent, fun current holds => ?_, waiting⟩
    exact told sent current (by rw [result]; exact holds)
  | delivered sent result =>
    refine ⟨follows.versions, Or.inl rfl, asked sent, fun current holds => ?_, fun _ last member => ?_⟩
    · exact told sent current (by rw [result]; exact holds)
    · obtain rfl : payload = last := Option.some.inj (newest.symm.trans member)
      exact ingest_reached understands sent version result

theorem Follows.step (understands : Understands encoder platform) (follows : Follows encoder platform known link)
    {event : LinkEvent} (moved : Moved encoder platform link event t) : Follows encoder platform known t := by
  have version {event : Event} {next : SnapshotPayload} (read : event.payload = some next) : next.version = 1 := by
    obtain ⟨snapshot, -, rfl⟩ := Option.map_eq_some_iff.mp read
    rfl
  cases moved with
  | idle => exact follows
  | keeps read => exact follows.keep (version read)
  | begins read attempt => exact (follows.keep (version read)).attempted understands rfl attempt
  | ticks pending attempt => exact follows.attempted understands pending attempt
  | @arrives i made authenticatedAt parsedAt fault member =>
    obtain ⟨payload, taken, unix, sent⟩ := follows.made made member
    refine ⟨follows.versions, follows.newest, follows.made, fun current holds => ?_, fun none last found => ?_⟩
    · rcases ingest_genuine understands sent (follows.versions payload taken) holds with before | told
      · exact follows.genuine current before
      · exact Or.inr ⟨payload, taken, told⟩
    · exact (follows.delivered none last found).later (ingest_spec ..).1

/-- However requests are lost, delayed and repeated: a publisher that has nothing left to deliver leaves a relay
as recent as the last payload, and the relay never holds what was not published. -/
theorem relay_follows (understands : Understands encoder platform) {relay : Data}
    (run : Run (Steps (Link.step encoder platform)) (opened relay) events t) :
    Follows encoder platform relay.snapshot t := by
  apply run.invariant (follows_opened relay)
  rintro link event u follows rfl
  exact follows.step understands (step_moved link event)

/-- Payloads are taken in the order of their observations, and the relay knew nothing newer before. -/
def Link.InOrder (known : Option Snapshot) (link : Link Body) : Prop :=
  link.taken.Pairwise (fun earlier later => earlier.observedAt ≤ later.observedAt) ∧
    ∀ before ∈ known, ∀ payload ∈ link.taken, before.observedAt ≤ payload.observedAt / 1000000

/-- The relay holds nothing newer than the last payload. -/
theorem Follows.observed_le (follows : Follows encoder platform known link) (inOrder : link.InOrder known)
    {last : SnapshotPayload} (newest : link.taken.getLast? = some last) {current : Snapshot}
    (holds : link.relay.snapshot = some current) : current.observedAt ≤ last.observedAt / 1000000 := by
  rcases follows.genuine current holds with before | ⟨payload, taken, w, e, -, -, rfl⟩
  · exact inOrder.2 current before last (List.mem_of_getLast? newest)
  · obtain ⟨front, whole⟩ := List.getLast?_eq_some_iff.mp newest
    have order := inOrder.1
    rw [whole] at taken order
    apply Int.ediv_le_ediv (by decide)
    rcases List.mem_append.mp taken with earlier | same
    · exact (List.pairwise_append.mp order).2.2 payload earlier last List.mem_cons_self
    · rw [List.mem_singleton.mp same]

/-- When nothing has to be delivered, the relay holds the last payload. -/
def Link.Exact (known : Option Snapshot) (link : Link Body) : Prop :=
  link.InOrder known → link.publisher.latest = none → ∀ last ∈ link.taken.getLast?,
    ∃ snapshot, last.Says snapshot ∧ link.relay.snapshot = some snapshot

theorem Follows.attempted_exact (understands : Understands encoder platform)
    (follows : Follows encoder platform known link) (pending : link.publisher.latest = some payload)
    {after : Link Body} (attempt : Attempted encoder platform link payload after) : after.Exact known := by
  cases attempt with
  | unsent | unanswered | refused =>
    intro inOrder idle
    have idle : link.publisher.latest = none := idle
    rw [idle] at pending
    cases pending
  | @delivered unix authenticatedAt parsedAt made fault updated after sent result =>
    rintro inOrder - last newest
    have same : payload = last := by
      rcases follows.newest with none | same
      · rw [pending] at none
        cases none
      · exact Option.some.inj (pending.symm.trans (same.trans newest))
    obtain rfl := same
    have version := follows.versions payload (List.mem_of_getLast? newest)
    obtain ⟨snapshot, ⟨w, e, power, energy, rfl⟩, holds | ⟨-, current, holds, older⟩⟩ :=
      ingest_accepted understands sent version result
    · exact ⟨_, ⟨w, e, power, energy, rfl⟩, holds⟩
    · have bound := follows.observed_le inOrder newest holds
      exact absurd bound (not_le.mpr older)

/-- A request is only handled while the publisher waits for the answer. -/
def LinkEvent.IsPunctual : LinkEvent → Prop
  | .arrive .. => False
  | _ => True

theorem step_exact (understands : Understands encoder platform) (follows : Follows encoder platform known link)
    (exact_ : link.Exact known) {event : LinkEvent} (punctual : event.IsPunctual)
    (moved : Moved encoder platform link event t) : t.Exact known := by
  cases moved with
  | idle => exact exact_
  | keeps read => rintro inOrder ⟨⟩
  | @begins event unix outcome next after read attempt =>
    obtain ⟨snapshot, -, rfl⟩ := Option.map_eq_some_iff.mp read
    exact (follows.keep rfl).attempted_exact understands rfl attempt
  | ticks pending attempt => exact follows.attempted_exact understands pending attempt
  | arrives member => exact punctual.elim

/-- With payloads in the order of their observations, a publisher that has nothing left to deliver leaves the relay
with a version of the last observation. It is the last version when no request was handled late. -/
theorem relay_exact (understands : Understands encoder platform) {relay : Data}
    (run : Run (Steps (Link.step encoder platform)) (opened relay) events t) (inOrder : t.InOrder relay.snapshot)
    (idle : t.publisher.latest = none) {last : SnapshotPayload} (newest : t.taken.getLast? = some last) :
    (∃ current, t.relay.snapshot = some current ∧ current.observedAt = last.observedAt / 1000000) ∧
      ((∀ event ∈ events, event.IsPunctual) →
        ∃ snapshot, last.Says snapshot ∧ t.relay.snapshot = some snapshot) := by
  have follows := relay_follows understands run
  constructor
  · obtain ⟨current, holds, reached⟩ := follows.delivered idle last newest
    exact ⟨current, holds, le_antisymm (follows.observed_le inOrder newest holds) reached⟩
  · intro punctual
    have guarded := run.guard_events punctual
    have both : Follows encoder platform relay.snapshot t ∧ t.Exact relay.snapshot := by
      refine @Run.invariant _ _ _ _ _ _
        (fun t => Follows encoder platform relay.snapshot t ∧ t.Exact relay.snapshot) guarded
        ⟨follows_opened relay, fun _ _ last member => by cases member⟩ ?_
      rintro link event u ⟨follows, exact_⟩ ⟨punctual, rfl⟩
      have moved : Moved encoder platform link event (link.step encoder platform event) := step_moved link event
      exact ⟨follows.step understands moved, step_exact understands follows exact_ punctual moved⟩
    exact both.2 inOrder idle last newest

end Runs

section Published

/-- The digests of the three requests below, under a secret of 32 zero bytes. -/
private def digests (timestamp : String) (_ : List (String × Json)) : String :=
  if timestamp = "1785353400" then "9d957c2fa1be211b63925660eaf7039b05b47da20ab4a438a21fe0b396f83015"
  else if timestamp = "1785353430" then "2a09c3509fd9e0934e90f7f5c8b2bebb8fbaf524517c25b9fb4a6475c7fb0eb3"
  else "db926e62cc06d8526fd8725047c55942fd4f0c4c019fe1a3115c48b436653bac"

private theorem digests_understood : Understands (sending digests) (relaying digests) := by
  apply relaying_understands
  intro timestamp body
  rw [digests]
  split
  · decide
  · split <;> decide

private def measured : Domain.TelemetrySnapshot :=
  { observedAt := 1785353395250000000, status := "normal", acPowerW := .finite 2840, energyTodayWh := .finite 14200 }

/-- The first request is lost. The snapshot is stale when the ticker fires. -/
private def outage : List LinkEvent :=
  [.event ⟨some measured, none, false⟩ 1785353400 .failed, .event ⟨none, none, true⟩ 1785353410 .failed,
    .event ⟨none, some measured, true⟩ 1785353430 .failed,
    .tick 1785353460 (.answered 1785353460500 1785353460500 none)]

private def outlived : Link (List (String × Json)) :=
  outage.foldl (Link.step (sending digests) (relaying digests)) (opened emptyState)

private theorem outage_run : Run (Steps (Link.step (sending digests) (relaying digests))) (opened emptyState) outage
    outlived :=
  Run.steps_iff.mpr rfl

theorem outlived_follows : Follows (sending digests) (relaying digests) none outlived :=
  relay_follows digests_understood outage_run

theorem outlived_exact : ∃ snapshot, (Alexapush.payload measured true).Says snapshot ∧
    outlived.relay.snapshot = some snapshot := by
  have taken : outlived.taken = [Alexapush.payload measured false, Alexapush.payload measured true] := by decide +kernel
  have idle : outlived.publisher.latest = none := by decide +kernel
  have inOrder : outlived.InOrder none := by
    rw [Link.InOrder, taken]
    exact ⟨by decide, by simp⟩
  have newest : outlived.taken.getLast? = some (Alexapush.payload measured true) := by rw [taken]; rfl
  have punctual : ∀ event ∈ outage, event.IsPunctual := by simp [outage, LinkEvent.IsPunctual]
  exact (relay_exact digests_understood outage_run inOrder idle newest).2 punctual

end Published

end Helio.Alexapush
