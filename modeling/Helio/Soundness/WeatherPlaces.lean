import Helio.Soundness.WeatherOrigins

/-! # Whose weather a request is served

The cache is keyed by the hour alone. What a request is served from it has been fetched by some request for
the same hours, less than sixty minutes before a clock reading of its own. So a request is served the weather
of its own place as long as requests for different places that ask for an hour both keep that far apart.
-/

namespace Helio.Weather

open Calendar

/-- The requests are for different places and ask for some hour both. -/
def Request.Collides (one other : Request) : Prop :=
  ¬(one.latitude = other.latitude ∧ one.longitude = other.longitude) ∧
    ∃ time, hour ∣ time ∧ (one.start ≤ time ∧ time < one.stop) ∧ other.start ≤ time ∧ time < other.stop

/-- No request reads the clock within sixty minutes after a colliding one whose provider answered began. -/
def Apart (threads : List Getting) : Prop :=
  ∀ saver ∈ threads, ∀ other ∈ threads, saver.request.Collides other.request → Answered saver →
    ∀ began ∈ (readings saver.exchanges).head?, ∀ now ∈ readings other.exchanges,
      now < began ∨ began + freshFor ≤ now

/-- What a request has been told: the provider's hours are for its place, and so are the stored ones that it
may serve as fresh. -/
structure ToldOwnPlace (request : Request) (trace : List (Exchange (Reply (ν := Measured)))) : Prop where
  provided : ∀ hours, ⟨.hourly request, .ok hours⟩ ∈ trace → ∀ value ∈ hours, value.isFor request
  loaded : ∀ start stop cache, ⟨.load start stop, (cache, none)⟩ ∈ trace → ∀ now ∈ readings trace,
    completeCoverage cache.hours request.start request.stop = true → allYoungerThan cache.hours now freshFor = true →
      ∀ value ∈ cache.hours, value.isFor request

/-- Where colliding requests keep apart, every request is told of its own place. -/
private theorem told_own_place {s : Requests} (traced : Traced s) (apart : Apart s.threads) {thread : Getting}
    (member : thread ∈ s.threads) (provided : ∀ asked hours, ⟨.hourly asked, .ok hours⟩ ∈ thread.exchanges →
      ∀ value ∈ hours, value.isFor asked) : ToldOwnPlace thread.request thread.exchanges where
  provided := provided thread.request
  loaded := by
    intro start stop cache loaded now reading complete young value found
    obtain ⟨saver, among, fetched⟩ := traced.caches thread member start stop cache loaded value found
    by_contra elsewhere
    have inWindow := ((completeCoverage_covered complete).2 value.time).mp (List.mem_map_of_mem found)
    have differ : ¬(saver.request.latitude = thread.request.latitude ∧
        saver.request.longitude = thread.request.longitude) := by
      rintro ⟨latitude, longitude⟩
      apply elsewhere
      have own := fetched.isFor
      simpa only [Hour.isFor, Measured.isFor, latitude, longitude] using own
    have collides : saver.request.Collides thread.request :=
      ⟨differ, value.time, fetched.whole, fetched.within, inWindow.2⟩
    have far := apart saver among thread member collides fetched.answered _ fetched.first now reading
    have age : 0 ≤ now - value.fetchedAt ∧ now - value.fetchedAt < freshFor := by
      obtain ⟨seen, at_, past, recent⟩ := allYoungerThan_young (List.mem_singleton_self now) (by decide) (by decide)
        young value found
      rw [List.mem_singleton.mp at_] at past recent
      exact ⟨past, recent⟩
    omega

/-- Of a result that is not stale, every hour is for the place of the request. -/
def Result.IsLocal (request : Request) (result : Result Measured) : Prop :=
  result.available = true → result.stale = false → ∀ hour ∈ result.hours, hour.isFor request

private theorem withCurrent_isLocal {service : Service} {request : Request} {result final : Result Measured}
    {trace : List (Exchange Reply)} (here : result.IsLocal request)
    (returned : (service.withCurrent request result).Returns trace final) : final.IsLocal request := by
  obtain ⟨current, rfl⟩ := withCurrent_returns returned
  exact here

private theorem resultFromHours_isLocal {request : Request} {hours : List (Hour Measured)} {stale : Bool}
    {errorClass : String} (here : stale = false → ∀ hour ∈ hours, hour.isFor request) :
    (resultFromHours hours stale errorClass).IsLocal request := by
  cases hours with
  | nil => exact fun available => (by cases available)
  | cons first rest => exact fun _ fresh => here fresh

private theorem fallback_isLocal {service : Service} {request : Request} {result : Result Measured} {now : ℤ}
    {cache : Cache Measured} {cacheErr : Option String} {trace : List (Exchange (Reply (ν := Measured)))}
    (returned : (service.fallback request now cache cacheErr).Returns trace result) : result.IsLocal request := by
  rw [Service.fallback] at returned
  split at returned
  · exact withCurrent_isLocal (fun available => (by cases available)) returned
  · exact withCurrent_isLocal (resultFromHours_isLocal fun fresh => (by cases fresh)) returned

/-- A request that was told of its own place only serves its own place. -/
private theorem get_isLocal {service : Service} {request : Request} {result : Result Measured}
    {trace : List (Exchange (Reply (ν := Measured)))} (returned : (service.get request).Returns trace result)
    (told : ToldOwnPlace request trace) : result.IsLocal request := by
  simp only [Service.get, Program.call_bind, Program.done_bind, Program.returns_call] at returned
  obtain ⟨now, rest, rfl, ⟨cache, cacheErr⟩, trace, rfl, returned⟩ := returned
  split at returned
  · next served =>
    obtain ⟨rfl, complete, young⟩ := served
    refine withCurrent_isLocal (resultFromHours_isLocal fun _ => ?_) returned
    exact told.loaded request.start request.stop _ (by simp) now (by simp [readings]) complete young
  rw [Program.returns_call] at returned
  obtain ⟨failed | refreshed, trace, rfl, returned⟩ := returned
  · exact fallback_isLocal returned
  dsimp only at returned
  split at returned
  case isFalse => exact fallback_isLocal returned
  have own : (resultFromHours (withMetadata refreshed service.providerSource now) false errorClassCache).IsLocal
      request := by
    refine resultFromHours_isLocal fun _ hour member => ?_
    obtain ⟨fetched, found, rfl⟩ := List.mem_map.mp member
    exact told.provided refreshed (by simp) fetched found
  simp only [Service.refresh, Program.call_bind, Program.done_bind, Program.returns_call] at returned
  obtain ⟨- | failed, trace, rfl, returned⟩ := returned
  case some => exact withCurrent_isLocal own returned
  rw [Program.returns_call] at returned
  obtain ⟨⟨persisted, - | failed⟩, trace, rfl, returned⟩ := returned
  case some => exact withCurrent_isLocal own returned
  rw [Program.returns_call] at returned
  obtain ⟨completedAt, trace, rfl, returned⟩ := returned
  split at returned
  · exact withCurrent_isLocal own returned
  refine withCurrent_isLocal (resultFromHours_isLocal fun current => ?_) returned
  simp only [Bool.or_eq_false_iff, Bool.not_eq_false'] at current
  exact told.loaded request.start request.stop _ (by simp) completedAt (by simp [readings]) current.1 current.2

/-- In every run from an empty repository in which colliding requests keep apart, every result that is not
stale holds weather of the place it was requested for. -/
theorem weather_of_own_place {service : Service} {s t : Requests} {events : List (Happening Request Luck ℤ)}
    (run : Run (Enabled (requests service).step) s events t) (initial : s.threads = []) (empty : s.shared.rows = .empty)
    (apart : Apart t.threads) :
    ∀ thread ∈ t.threads, ∀ result, thread.rest = .done result → result.available = true → result.stale = false →
      ∀ hour ∈ result.hours, hour.isFor thread.request := by
  intro thread member result finished
  have returned : (service.get thread.request).Returns thread.exchanges result := by
    have here := Interleaving.threads_reach run initial thread member
    rwa [Interleaving.Reached, finished] at here
  have told := told_own_place (traced run initial empty) apart member (provided_isFor run initial thread member)
  exact get_isLocal returned told

section Coordinates

private def openMeteo : Service := ⟨some "open-meteo", false⟩

private def at_ (latitude : ℚ) : Request := ⟨.finite latitude, .zero, 0, hour⟩

private def empty : Requests := ⟨⟨1000 * second, .empty⟩, []⟩

/-- A request asks the provider, saves its hour and serves it; a second one reads the clock and the cache. -/
private def twoRequests (latitude : ℚ) : List (Happening Request Luck ℤ) :=
  [.begins (at_ 0), .moves 0 {}, .moves 0 {},
    .moves 0 { hourly := .ok [⟨0, .finite 10, .finite 700, "", 0⟩] }, .moves 0 {}, .moves 0 {}, .moves 0 {},
    .begins (at_ latitude), .moves 1 {}, .moves 1 {}]

private def Requests.served (s : Requests) (test : Request → Hour Measured → Bool) : Bool :=
  s.threads.any fun thread =>
    match thread.rest with
    | .done result => result.available && !result.stale && result.hours.any (test thread.request)
    | .call _ _ => false

private theorem Requests.exists_of_served {s : Requests} {test : Request → Hour Measured → Bool}
    (served : s.served test = true) :
    ∃ thread ∈ s.threads, ∃ result, thread.rest = .done result ∧ result.available = true ∧ result.stale = false ∧
      ∃ hour ∈ result.hours, test thread.request hour = true := by
  obtain ⟨thread, member, shown⟩ := List.any_eq_true.mp served
  split at shown
  · next result finished =>
    simp only [Bool.and_eq_true, Bool.not_eq_true', List.any_eq_true] at shown
    exact ⟨thread, member, result, finished, shown.1.1, shown.1.2, shown.2⟩
  · cases shown

/-- The place is asked for twice, then another one a minute after the hour. -/
private def threeRequests : List (Happening Request Luck ℤ) :=
  twoRequests 0 ++ [.world (4660 * second), .begins (at_ 10), .moves 2 {}, .moves 2 {},
    .moves 2 { hourly := .ok [⟨0, .finite 80, .finite 90, "", 0⟩] }, .moves 2 {}, .moves 2 {}, .moves 2 {}]

/-- The condition on the clock readings, whatever hours are asked for. -/
private def Requests.apart (s : Requests) : Bool :=
  s.threads.all fun saver => s.threads.all fun other =>
    decide (saver.request.latitude = other.request.latitude ∧ saver.request.longitude = other.request.longitude) ||
      (readings saver.exchanges).head?.all fun began =>
        (readings other.exchanges).all fun now => decide (now < began ∨ began + freshFor ≤ now)

private theorem Requests.apart_of_test {s : Requests} (test : s.apart = true) : Apart s.threads := by
  intro saver among other member collides answered began first now reading
  have pair := List.all_eq_true.mp (List.all_eq_true.mp test saver among) other member
  rw [Bool.or_eq_true, decide_eq_true_eq] at pair
  have far := pair.resolve_left collides.1
  rw [Option.mem_def.mp first, Option.all_some, List.all_eq_true] at far
  exact of_decide_eq_true (far now reading)

theorem weather_of_own_place_thrice : ∃ t, Run (Enabled (requests openMeteo).step) empty threeRequests t ∧
    ∀ thread ∈ t.threads, ∀ result, thread.rest = .done result → result.available = true →
      result.stale = false → ∀ hour ∈ result.hours, hour.isFor thread.request := by
  have possible : (threeRequests.foldlM (requests openMeteo).step empty).map Requests.apart = some true := by
    decide +kernel
  obtain ⟨t, reached, test⟩ := Option.map_eq_some_iff.mp possible
  exact ⟨t, Run.of_foldlM reached, weather_of_own_place (Run.of_foldlM reached) rfl rfl (Requests.apart_of_test test)⟩

/-- Within the hour, a request for another place is served the first one's weather as fresh. -/
theorem weather_of_other_place : ¬∀ (service : Service) (s t : Requests) (events : List (Happening Request Luck ℤ)),
    s.threads = [] → Run (Enabled (requests service).step) s events t →
      ∀ thread ∈ t.threads, ∀ result, thread.rest = .done result → result.available = true →
        result.stale = false → ∀ hour ∈ result.hours, hour.isFor thread.request := by
  intro claimed
  have possible : ((twoRequests 10).foldlM (requests openMeteo).step empty).map
      (Requests.served · fun request hour => !decide (hour.isFor request)) = some true := by
    decide +kernel
  obtain ⟨t, reached, served⟩ := Option.map_eq_some_iff.mp possible
  obtain ⟨thread, member, result, finished, available, fresh, hour, found, elsewhere⟩ := Requests.exists_of_served served
  have own := claimed openMeteo empty t _ rfl (Run.of_foldlM reached) thread member result finished available fresh
    hour found
  simp [own] at elsewhere

end Coordinates

end Helio.Weather
