import Helio.Soundness.WeatherCache
import Helio.ToMathlib.Except

/-! # Where stored weather comes from

Requests for weather run concurrently over one repository that starts empty. Every row in it was saved by
one of them, with the provider's numbers for its place, for an hour of its window, and stamped with its first
clock reading; so were the hours of every cache that a request has loaded.
-/

namespace Helio.Weather

open Calendar

abbrev Requests := Flight Store Request (Reply (ν := Measured)) (Result Measured)

/-- A request in flight, or finished. -/
abbrev Getting := Thread Request (Reply (ν := Measured)) (Result Measured)

/-- The provider has answered the request. -/
def Answered (thread : Getting) : Prop := ∃ hours, ⟨.hourly thread.request, .ok hours⟩ ∈ thread.exchanges

/-- The request has fetched the hour for its place and its window, at its first clock reading. -/
structure Fetched (thread : Getting) (value : Hour Measured) : Prop where
  answered : Answered thread
  first : (readings thread.exchanges).head? = some value.fetchedAt
  isFor : value.isFor thread.request
  whole : hour ∣ value.time
  within : thread.request.start ≤ value.time ∧ value.time < thread.request.stop

/-- One of the requests has fetched the hour. -/
def Originates (threads : List Getting) (value : Hour Measured) : Prop := ∃ thread ∈ threads, Fetched thread value

/-- A stored row, as an hour of a cache. -/
def storedHour (row : ℤ × Row Measured) : Hour Measured :=
  ⟨row.1, row.2.cloudCoverPct, row.2.irradianceWM2, row.2.source, row.2.fetchedAt⟩

/-- All stored and all loaded hours were fetched by requests of the run. -/
structure Traced (s : Requests) : Prop where
  rows : ∀ row ∈ s.shared.rows.rows, Originates s.threads (storedHour row)
  caches : ∀ thread ∈ s.threads, ∀ start stop cache, ⟨.load start stop, (cache, none)⟩ ∈ thread.exchanges →
    ∀ value ∈ cache.hours, Originates s.threads value

section Repository

theorem upsertHours_mem {source : String} {fetchedAt : ℤ} {hours : List (Hour Measured)}
    {rows after : Table ℤ (Row Measured)} (saved : WeatherRepository.upsertHours source fetchedAt hours rows = .ok after) :
    ∀ row ∈ after.rows, row ∈ rows.rows ∨ ∃ value ∈ hours,
      row = (value.time / hour * hour, ⟨value.cloudCoverPct, value.irradianceWM2, source, fetchedAt⟩) := by
  induction hours generalizing rows with
  | nil =>
    cases saved
    exact fun row member => Or.inl member
  | cons value rest ih =>
    rw [WeatherRepository.upsertHours] at saved
    split at saved
    · cases saved
    intro row member
    rcases ih saved row member with old | ⟨other, found, rfl⟩
    · rw [WeatherRepository.upsertHour] at old
      split at old
      · split at old
        · exact Or.inl old
        · rcases Table.mem_upsert.mp old with rfl | ⟨kept, -⟩
          · exact Or.inr ⟨value, List.mem_cons_self, rfl⟩
          · exact Or.inl kept
      · rcases Table.mem_upsert.mp old with rfl | ⟨kept, -⟩
        · exact Or.inr ⟨value, List.mem_cons_self, rfl⟩
        · exact Or.inl kept
    · exact Or.inr ⟨other, List.mem_cons_of_mem _ found, rfl⟩

private theorem eq_of_parseTime {t read : ℤ} {context : String → String}
    (parsed : (parseTime t).mapError context = .ok read) : read = t := by
  rw [parseTime] at parsed
  split at parsed
  · exact (Except.ok.inj parsed).symm
  · cases parsed

theorem scan_mem {rows : List (ℤ × Row Measured)} {hours : List (Hour Measured)}
    (scanned : WeatherRepository.scan rows = .ok hours) : ∀ value ∈ hours, ∃ row ∈ rows, value = storedHour row := by
  induction rows generalizing hours with
  | nil =>
    cases scanned
    exact fun value member => absurd member List.not_mem_nil
  | cons row rest ih =>
    rcases row with ⟨key, row⟩
    rw [WeatherRepository.scan] at scanned
    simp only [Except.bind_eq_ok] at scanned
    obtain ⟨time, isTime, fetchedAt, isFetched, later, rest, same⟩ := scanned
    obtain rfl := eq_of_parseTime isTime
    obtain rfl := eq_of_parseTime isFetched
    cases same
    intro value member
    rcases List.mem_cons.mp member with rfl | old
    · exact ⟨_, List.mem_cons_self, rfl⟩
    · obtain ⟨found, kept, same⟩ := ih rest value old
      exact ⟨found, List.mem_cons_of_mem _ kept, same⟩

theorem cacheOf_hours (hours : List (Hour Measured)) : (WeatherRepository.cacheOf hours).hours = hours := by
  have steps : ∀ cache : Cache Measured, (hours.foldl (fun cache hour =>
      ({ hours := cache.hours ++ [hour]
         fetchedAt :=
          if cache.fetchedAt = zeroTime ∨ hour.fetchedAt < cache.fetchedAt then hour.fetchedAt else cache.fetchedAt
         source :=
          if cache.source = "" then hour.source else if cache.source ≠ hour.source then "mixed" else cache.source } :
        Cache Measured)) cache).hours = cache.hours ++ hours := by
    induction hours with
    | nil => simp
    | cons value rest ih =>
      intro cache
      rw [List.foldl_cons, ih]
      simp
  exact steps {}

/-- The hours of a cache are stored rows. -/
theorem load_mem {fault error : Option String} {start stop : ℤ} {rows : Table ℤ (Row Measured)} {cache : Cache Measured}
    (loaded : WeatherRepository.load fault start stop rows = (cache, error)) :
    ∀ value ∈ cache.hours, ∃ row ∈ rows.rows, value = storedHour row := by
  unfold WeatherRepository.load at loaded
  split at loaded
  · cases loaded
    exact fun value member => absurd member List.not_mem_nil
  · split at loaded
    · next hours scanned =>
      cases loaded
      intro value member
      rw [cacheOf_hours] at member
      obtain ⟨row, found, rfl⟩ := scan_mem scanned value member
      rw [WeatherRepository.window, List.mem_insertionSort] at found
      exact ⟨row, List.mem_of_mem_filter found, rfl⟩
    · cases loaded
      exact fun value member => absurd member List.not_mem_nil

/-- The rows that a call leaves are those before, or those it saves. -/
theorem exec_mem {store after : Store} {luck : Luck} {c : Call Measured} {answer : Reply c}
    (executed : store.exec luck c = (after, answer)) : ∀ row ∈ after.rows.rows, row ∈ store.rows.rows ∨
      ∃ hours source fetchedAt, c = .upsert hours source fetchedAt ∧ ∃ value ∈ hours,
        row = (value.time / hour * hour, ⟨value.cloudCoverPct, value.irradianceWM2, source, fetchedAt⟩) := by
  intro row member
  cases c with
  | upsert hours source fetchedAt =>
    rw [Store.exec] at executed
    split at executed
    · next rows saved =>
      cases executed
      unfold WeatherRepository.upsert at saved
      split at saved
      · cases saved
      split at saved
      · cases saved
      split at saved
      · cases saved
      rcases upsertHours_mem saved row member with old | new
      · exact Or.inl old
      · exact Or.inr ⟨hours, source, fetchedAt, rfl, new⟩
    · cases executed
      exact Or.inl member
  | _ =>
    cases executed
    exact Or.inl member

end Repository

section Request

variable {service : Service} {request : Request}

/-- A call that saves nothing. -/
def SavesNothing (c : Call Measured) : Prop := ∀ hours source fetchedAt, c ≠ .upsert hours source fetchedAt

private theorem not_upsert {p : Effect Measured (Result Measured)} {trace : List (Exchange (Reply (ν := Measured)))}
    {hours : List (Hour Measured)} {source : String} {fetchedAt : ℤ}
    {next : Option String → Effect Measured (Result Measured)} (uses : p.Uses SavesNothing) :
    ¬p.Reaches trace (.call (.upsert hours source fetchedAt) next) := fun reached =>
  (reached.always uses).1 hours source fetchedAt rfl

private theorem withCurrent_saves_nothing (result : Result Measured) :
    (service.withCurrent request result).Uses SavesNothing := by
  rw [Service.withCurrent]
  split
  · refine ⟨fun hours source fetchedAt same => (by cases same), fun answer => ?_⟩
    cases answer <;> trivial
  · trivial

private theorem fallback_saves_nothing (now : ℤ) (cache : Cache Measured) (cacheErr : Option String) :
    (service.fallback request now cache cacheErr).Uses SavesNothing := by
  rw [Service.fallback]
  split <;> exact withCurrent_saves_nothing _

/-- What follows the upsert of a refresh saves nothing. -/
private theorem refresh_saves_once (now : ℤ) (refreshed : List (Hour Measured)) : ∃ later,
    service.refresh request now refreshed = .call (.upsert refreshed service.providerSource now) later ∧
      ∀ answer, (later answer).Uses SavesNothing := by
  refine ⟨_, rfl, fun answer => ?_⟩
  rcases answer with - | failed
  · refine ⟨fun hours source fetchedAt same => (by cases same), fun ⟨persisted, error⟩ => ?_⟩
    rcases error with - | failed
    · refine ⟨fun hours source fetchedAt same => (by cases same), fun completedAt => ?_⟩
      dsimp only [Program.bind]
      split <;> exact withCurrent_saves_nothing _
    · exact withCurrent_saves_nothing _
  · exact withCurrent_saves_nothing _

/-- A request that is about to save hours has read the clock and has them from the provider. -/
theorem upsert_stands {trace : List (Exchange (Reply (ν := Measured)))} {hours : List (Hour Measured)} {source : String}
    {fetchedAt : ℤ} {next : Option String → Effect Measured (Result Measured)}
    (reached : (service.get request).Reaches trace (.call (.upsert hours source fetchedAt) next)) :
    ∃ cache, trace = [⟨.now, fetchedAt⟩, ⟨.load request.start request.stop, cache⟩, ⟨.hourly request, .ok hours⟩] ∧
      completeCoverage hours request.start request.stop = true := by
  simp only [Service.get, Program.call_bind, Program.done_bind, Program.reaches_call] at reached
  obtain ⟨-, same⟩ | ⟨now, trace, rfl, reached⟩ := reached
  · cases same
  obtain ⟨-, same⟩ | ⟨⟨cache, cacheErr⟩, trace, rfl, reached⟩ := reached
  · cases same
  split at reached
  · exact absurd reached (not_upsert (withCurrent_saves_nothing _))
  rw [Program.reaches_call] at reached
  obtain ⟨-, same⟩ | ⟨failed | refreshed, trace, rfl, reached⟩ := reached
  · cases same
  · exact absurd reached (not_upsert (fallback_saves_nothing _ _ _))
  dsimp only at reached
  split at reached
  case isFalse => exact absurd reached (not_upsert (fallback_saves_nothing _ _ _))
  next complete =>
  obtain ⟨later, refresh, nothing⟩ := @refresh_saves_once service request now refreshed
  rw [refresh, Program.reaches_call] at reached
  obtain ⟨rfl, same⟩ | ⟨answer, trace, rfl, reached⟩ := reached
  · cases same
    exact ⟨_, rfl, complete⟩
  · exact absurd reached (not_upsert (nothing answer))

end Request

section Trace

variable {service : Service} {s t u : Requests} {events : List (Happening Request Luck ℤ)}

private theorem measuredFor_isFor {asked : Request} {answer : Except String (List (Hour Float64))}
    {hours : List (Hour Measured)} (provided : answer.map (List.map (Hour.measuredFor asked)) = .ok hours) :
    ∀ value ∈ hours, value.isFor asked := by
  rcases answer with failed | raw
  · cases provided
  · cases provided
    intro value member
    obtain ⟨unmarked, -, rfl⟩ := List.mem_map.mp member
    exact ⟨⟨rfl, rfl⟩, ⟨rfl, rfl⟩⟩

/-- What the provider tells a request is for the place it is asked for. -/
theorem provided_isFor (run : Run (Enabled (requests service).step) s events t) (initial : s.threads = []) :
    ∀ thread ∈ t.threads, ∀ asked hours, ⟨.hourly asked, .ok hours⟩ ∈ thread.exchanges →
      ∀ value ∈ hours, value.isFor asked := by
  refine Interleaving.threads_keep _ run.guard_trivially initial
    (fun _ _ _ asked hours member => absurd member List.not_mem_nil) ?_
  intro s t i luck thread later _ _ advanced told asked hours member
  obtain ⟨c, next, answer, -, executed, rfl⟩ := Interleaving.advance_cases advanced
  rcases List.mem_append.mp member with old | new
  · exact told asked hours old
  · cases List.mem_singleton.mp new
    exact measuredFor_isFor (congrArg Prod.snd (Option.some.inj executed))

theorem Fetched.extend {thread later : Getting} {value : Hour Measured} (fetched : Fetched thread value)
    (request : later.request = thread.request) (extends_ : thread.exchanges <+: later.exchanges) :
    Fetched later value where
  answered := by
    obtain ⟨hours, found⟩ := fetched.answered
    exact ⟨hours, request ▸ extends_.subset found⟩
  first := by
    obtain ⟨more, same⟩ := extends_
    have first := fetched.first
    rw [← same, readings, List.filterMap_append, List.head?_append, ← readings, first]
    rfl
  isFor := request ▸ fetched.isFor
  whole := fetched.whole
  within := request ▸ fetched.within

/-- Hours stay attributed while the requests go on. -/
theorem Originates.step {event : Happening Request Luck ℤ} {value : Hour Measured}
    (stepped : (requests service).step t event = some u) (originates : Originates t.threads value) :
    Originates u.threads value := by
  obtain ⟨thread, member, fetched⟩ := originates
  obtain ⟨later, found, request, extends_⟩ := Interleaving.thread_extends stepped member
  exact ⟨later, found, fetched.extend request extends_⟩

/-- A request that saves hours has fetched them. -/
private theorem fetched_of_upsert {thread : Getting} {hours : List (Hour Measured)} {source : String} {fetchedAt : ℤ}
    {next : Option String → Effect Measured (Result Measured)}
    (reached : (service.get thread.request).Reaches thread.exchanges (.call (.upsert hours source fetchedAt) next))
    (provided : ∀ asked hours, ⟨.hourly asked, .ok hours⟩ ∈ thread.exchanges → ∀ value ∈ hours, value.isFor asked) :
    ∀ value ∈ hours, Fetched thread (storedHour (value.time / hour * hour,
      ⟨value.cloudCoverPct, value.irradianceWM2, source, fetchedAt⟩)) := by
  intro value member
  obtain ⟨cache, trace, complete⟩ := upsert_stands reached
  have asked : ⟨.hourly thread.request, .ok hours⟩ ∈ thread.exchanges := by simp [trace]
  obtain ⟨whole, within⟩ := (completeCoverage_covered complete).2 value.time |>.mp (List.mem_map_of_mem member)
  have same : value.time / hour * hour = value.time := Int.ediv_mul_cancel whole
  exact {
    answered := ⟨hours, asked⟩
    first := by rw [trace]; rfl
    isFor := provided _ _ asked value member
    whole := dvd_mul_left hour _
    within := by rw [storedHour, same]; exact within }

/-- A step keeps all hours attributed. -/
private theorem traced_step {event : Happening Request Luck ℤ} (run : Run (Enabled (requests service).step) s events t)
    (initial : s.threads = []) (traced : Traced t) (stepped : (requests service).step t event = some u) : Traced u := by
  have rows : ∀ row ∈ t.shared.rows.rows, Originates u.threads (storedHour row) :=
    fun row member => (traced.rows row member).step stepped
  have caches : ∀ thread ∈ t.threads, ∀ start stop cache, ⟨.load start stop, (cache, none)⟩ ∈ thread.exchanges →
      ∀ value ∈ cache.hours, Originates u.threads value :=
    fun thread member start stop cache loaded value found =>
      (traced.caches thread member start stop cache loaded value found).step stepped
  have stays := stepped
  obtain ⟨request, rfl, rfl⟩ | ⟨i, luck, thread, later, rfl, found, advanced, threads⟩ |
    ⟨change, rfl, changed, threads⟩ := Interleaving.step_cases stays
  · refine ⟨rows, fun thread member => ?_⟩
    rcases List.mem_append.mp member with old | new
    · exact caches thread old
    · rw [List.mem_singleton.mp new]
      exact fun start stop cache loaded => absurd loaded List.not_mem_nil
  · have here := List.mem_of_getElem? found
    obtain ⟨c, next, answer, standing, executed, rfl⟩ := Interleaving.advance_cases advanced
    have executed : t.shared.exec luck c = (u.shared, answer) := Option.some.inj executed
    constructor
    · intro row member
      rcases exec_mem executed row member with old | ⟨hours, source, fetchedAt, rfl, value, among, rfl⟩
      · exact rows row old
      · have reached := Interleaving.threads_reach run initial thread here
        rw [Interleaving.Reached, standing] at reached
        have fetched := fetched_of_upsert reached (provided_isFor run initial thread here) value among
        rw [threads]
        exact ⟨_, Interleaving.mem_set found, fetched.extend rfl (List.prefix_append _ _)⟩
    · intro other member start stop cache loaded value among
      rw [threads] at member
      rcases Interleaving.mem_set_cases member with rfl | old
      · rcases List.mem_append.mp loaded with before | new
        · exact caches thread here start stop cache before value among
        · cases List.mem_singleton.mp new
          obtain ⟨row, stored, rfl⟩ := load_mem (congrArg Prod.snd executed) value among
          exact rows row stored
      · exact caches other old start stop cache loaded value among
  · have same : u.shared.rows = t.shared.rows := by rw [← Option.some.inj changed]
    constructor
    · rw [same]
      exact rows
    · rw [threads] at caches ⊢
      exact caches

/-- In every run from an empty repository all stored and all loaded hours are attributed. -/
theorem traced (run : Run (Enabled (requests service).step) s events t) (initial : s.threads = [])
    (empty : s.shared.rows = .empty) : Traced t := by
  refine run.reached_invariant ⟨fun row member => ?_, fun thread member => ?_⟩ fun fs t e u before traced stepped =>
    traced_step before initial traced stepped
  · rw [empty] at member
    cases member
  · rw [initial] at member
    cases member

end Trace

end Helio.Weather
