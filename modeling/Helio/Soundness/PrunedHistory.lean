import Helio.Calendar.KeptMidnights
import Helio.Model.HistoryJobs
import Helio.Soundness.JobsAlone
import Helio.Soundness.LocalDays

/-! # Pruned history is not rebuilt

A nightly run prunes up to its clock reading, moved back by the retention; a rebuild starts at a local
midnight that it finds from a reading of its own, which may be from an earlier day. So a rebuild spares
what was pruned when its reading is not too many days older than that of the nightly run, and when the
midnight of the day it was asked to start from bounds that day. With some days in between, neither the
midnights nor the zone of the reading matter.
-/

namespace Helio.History

open Calendar Telemetry

/-- No instant of the window is earlier than a cutoff pruned before, and none of its minutes was deleted. -/
structure Rebuilt.Intact (window : Rebuilt) : Prop where
  covers : ∀ cutoff ∈ window.cutoffs, ∀ t, window.start ≤ t → t < window.stop → cutoff ≤ t
  minutes : ∀ row ∈ window.deleted, ¬(window.start ≤ row.1 ∧ row.1 < window.stop)

/-- The clock reading of a job. -/
def reading : List (Exchange Reply) → Option ℤ
  | [] => none
  | ⟨.now, now⟩ :: _ => some now
  | _ :: rest => reading rest

/-- The location of the settings was loaded, or has not been needed. -/
def located : List (Exchange Reply) → Bool
  | [] => true
  | ⟨.billingLocation, failure⟩ :: _ => failure.isNone
  | _ :: rest => located rest

def prunes : Exchange Reply → Bool
  | ⟨.deleteBatch _, .ok _⟩ => true
  | _ => false

/-- How many days of minutes a nightly run keeps. -/
def Request.retention : Request → Option ℤ
  | .nightly ⟨days, _⟩ _ => some (if days = 0 then defaultRetentionDays else days)
  | _ => none

/-- How many days a job that rebuilds goes back, the current one included. -/
def Request.days : Request → Option ℤ
  | .nightly _ _ => none
  | .sync days => some (syncDays days)
  | .recovery => some automaticRecoveryDays
  | .refresh _ _ _ => some 1

/-- The local day that a job asks to start from. -/
def Request.firstDay (location : Zone) (now : ℤ) : Request → ℤ
  | .refresh _ _ _ => location.date now
  | request => location.date (location.addDays now (1 - request.days.getD 1))

abbrev Running := Thread Request Reply (Except String Unit)

/-- The job goes on with an hour or a day that it aggregates. -/
def Running.isAggregating (job : Running) : Bool :=
  match job.rest with
  | .call (.aggregateHour _ _) _ | .call (.aggregateDay _ _) _ => true
  | _ => false

/-- A rebuild that goes on after a nightly run has pruned, with what the two have read. -/
structure Encounter where
  pruned : ℤ
  retention : ℤ
  request : Request
  located : Bool
  now : ℤ
  days : ℤ

def encounter (pruner job : Running) : Option Encounter := do
  let retention ← pruner.request.retention
  let pruned ← reading pruner.exchanges
  let days ← job.request.days
  let now ← reading job.exchanges
  if pruner.exchanges.any prunes ∧ job.isAggregating then
    some ⟨pruned, retention, job.request, located job.exchanges, now, days⟩
  else none

namespace Encounter

variable (zone host : Zone) (e : Encounter)

def location : Zone := if e.located then zone else host

def firstDay : ℤ := e.request.firstDay (e.location zone host) e.now

/-- The day on which the kept minutes begin is before the first day to rebuild, and neither clock
reading changes its day when it is moved back. -/
def InDays : Prop :=
  e.located = true ∧ zone.date e.pruned - e.retention ≤ zone.date e.now - e.days ∧
    zone.date (zone.addDays e.pruned (-e.retention)) = zone.date e.pruned - e.retention ∧
    e.firstDay zone host = zone.date e.now + 1 - e.days

instance : Decidable (e.InDays zone host) := inferInstanceAs (Decidable (_ ∧ _ ∧ _ ∧ _))

/-- The rebuild starts past the cutoff: on the calendar, where its first midnight opens a day, or with
some days in between. -/
def Apart : Prop :=
  e.InDays zone host ∧ zone.Opens (e.firstDay zone host) ∨
    (zone.OffsetsWithinDay ∧ host.OffsetsWithinDay) ∧
      zone.date e.pruned - e.retention + 6 ≤ (e.location zone host).date e.now - e.days

end Encounter

/-- Every rebuild that goes on is apart from every pruning so far. -/
def Spares (apart : Encounter → Prop) (s : Jobs) : Happening Request Luck World → Prop
  | .moves i _ => ∀ job ∈ s.threads[i]?, ∀ pruner ∈ s.threads, ∀ e ∈ encounter pruner job, apart e
  | _ => True

instance (apart : Encounter → Prop) [DecidablePred apart] (s : Jobs) (event : Happening Request Luck World) :
    Decidable (Spares apart s event) := by
  cases event <;> unfold Spares <;> infer_instance

section Programs

variable {zone host : Zone}

private theorem wrap_uses {allowed : Call → Prop} {α : Type} {job : Job α} (uses : job.run.Uses allowed)
    (context : String) : (wrap context job).run.Uses allowed :=
  uses.bind fun _ => trivial

/-- A call that aggregates nothing before an instant, and prunes nothing. -/
def NotBefore (floor : ℤ) : Call → Prop
  | .aggregateHour start _ | .aggregateDay start _ => floor ≤ start
  | .deleteBatch _ => False
  | _ => True

private theorem aggregateLocalDay_uses {floor : ℤ} (hourly daily : String) {day : ℤ × ℤ} (later : floor ≤ day.1) :
    (aggregateLocalDay hourly daily day).run.Uses (NotBefore floor) := by
  refine Program.Uses.run_bind (Program.Uses.run_forM fun window member => ?_) fun _ => ?_
  · have proper := hourWindows_ordered _ _ window member
    have inside := (hourWindows_cover day.1 day.2 window.1).mp ⟨window, member, le_rfl, proper⟩
    apply wrap_uses
    exact ⟨later.trans inside.1, fun _ => trivial⟩
  · apply wrap_uses
    exact ⟨later, fun _ => trivial⟩

private theorem le_of_mem_rebuildDaysFrom {lastDay : ℤ} {fuel : ℕ} {day : ℤ} {visited : ℤ × ℤ}
    (member : visited ∈ rebuildDaysFrom zone lastDay fuel day) : day ≤ visited.1 := by
  induction fuel generalizing day with
  | zero => cases member
  | succ fuel ih =>
    rw [rebuildDaysFrom] at member
    split at member
    · rcases List.mem_cons.mp member with rfl | member
      · exact le_rfl
      · split at member
        · next forward => exact forward.le.trans (ih member)
        · cases member
    · cases member

private theorem rebuildSummaries_uses (start stop : ℤ) :
    (rebuildSummaries zone start stop).run.Uses (NotBefore (zone.midnight (zone.date start))) := by
  rw [rebuildSummaries]
  split
  · refine Program.Uses.run_bind (Program.Uses.run_forM fun day member => ?_) fun _ => ?_
    · exact aggregateLocalDay_uses _ _ (le_of_mem_rebuildDaysFrom member)
    · refine Program.Uses.run_forM fun month _ => ?_
      apply wrap_uses
      exact ⟨trivial, fun _ => trivial⟩
  · trivial

private theorem recoverFrames_uses (stationID start now : ℤ) :
    (recoverFrames zone stationID start now).run.Uses (NotBefore (zone.midnight (zone.date start))) := by
  refine Program.Uses.run_bind ⟨trivial, fun _ => trivial⟩ fun frames => ?_
  refine Program.Uses.run_bind (Program.Uses.run_forM fun frame _ => ?_) fun _ => ?_
  · apply wrap_uses
    exact ⟨trivial, fun _ => trivial⟩
  · split
    · exact wrap_uses (rebuildSummaries_uses start now) _
    · trivial

variable {request : Request} {trace : List (Exchange Reply)} {c : Call} {next : Reply c → Effect (Except String Unit)}

/-- What a rebuild may call when it has read its location and the clock: it starts from the midnight of
the first day it was asked for. -/
def StartsFrom (zone host : Zone) (request : Request) (trace : List (Exchange Reply)) : Call → Prop
  | .aggregateHour start _ | .aggregateDay start _ => ∃ now, reading trace = some now ∧
      let location := if located trace then zone else host
      zone.midnight (zone.date (location.midnight (request.firstDay location now))) ≤ start
  | .deleteBatch _ => False
  | _ => True

private theorem startsFrom_of_notBefore (now : ℤ) (here : reading trace = some now)
    (later : NotBefore (zone.midnight (zone.date ((if located trace then zone else host).midnight
      (request.firstDay (if located trace then zone else host) now)))) c) : StartsFrom zone host request trace c := by
  cases c
  case aggregateHour start stop => exact ⟨now, here, later⟩
  case aggregateDay start stop => exact ⟨now, here, later⟩
  case deleteBatch cutoff => exact later
  all_goals trivial

private theorem recoverSolarman_call {days : ℤ} (reached : (recoverSolarman zone host days).Reaches trace (.call c next))
    (first : ∀ location now, request.firstDay location now = location.date (location.addDays now (1 - days))) :
    StartsFrom zone host request trace c := by
  simp only [recoverSolarman, Program.call_bind, Program.done_bind, Program.reaches_call] at reached
  obtain ⟨rfl, same⟩ | ⟨failed | stationID, trace, rfl, reached⟩ := reached
  · cases same
    trivial
  · cases reached
  dsimp only at reached
  split at reached
  · cases reached
  simp only [Program.reaches_call] at reached
  obtain ⟨rfl, same⟩ | ⟨failure, trace, rfl, ⟨rfl, same⟩ | ⟨now, trace, rfl, reached⟩⟩ := reached
  · cases same
    trivial
  · cases same
    trivial
  have later := (reached.always (recoverFrames_uses _ _ _)).1
  refine startsFrom_of_notBefore now rfl ?_
  rw [first]
  exact later

private theorem refreshCurrentHistory_call {start stop : ℤ} {resolution : Resolution}
    (reached : (refreshCurrentHistory zone start stop resolution).Reaches trace (.call c next)) :
    StartsFrom zone host (.refresh start stop resolution) trace c := by
  rw [refreshCurrentHistory] at reached
  split at reached
  · cases reached
  simp only [Program.call_bind, Program.done_bind, Program.reaches_call] at reached
  obtain ⟨rfl, same⟩ | ⟨- | message, trace, rfl, reached⟩ := reached
  · cases same
    trivial
  case inr.some => cases reached
  simp only [Program.reaches_call] at reached
  obtain ⟨rfl, same⟩ | ⟨now, trace, rfl, reached⟩ := reached
  · cases same
    trivial
  split at reached
  · cases reached
  have later := (reached.always (rebuildSummaries_uses _ _)).1
  exact startsFrom_of_notBefore now rfl later

/-- All jobs that rebuild start where they are asked to, and none of them prunes. -/
theorem rebuild_call {days : ℤ} (rebuilds : request.days = some days)
    (reached : (request.body zone host).Reaches trace (.call c next)) : StartsFrom zone host request trace c := by
  cases request with
  | nightly retentionDays batches => cases rebuilds
  | sync days =>
    rw [Request.body, syncSolarman] at reached
    split at reached
    · cases reached
    · exact recoverSolarman_call reached fun _ _ => rfl
  | recovery => exact recoverSolarman_call reached fun _ _ => rfl
  | refresh start stop resolution => exact refreshCurrentHistory_call reached

private theorem pruneBefore_uses (cutoff : ℤ) (batches : ℕ) :
    (pruneBefore cutoff batches).run.Uses fun c => ∀ other, c = .deleteBatch other → other = cutoff := by
  induction batches with
  | zero => trivial
  | succ batches ih =>
    refine Program.Uses.run_bind ⟨fun other same => ?_, fun _ => trivial⟩ fun deleted => ?_
    · cases same
      rfl
    · split
      · trivial
      · exact ih

private theorem runOnce_uses (now retentionDays : ℤ) (batches : ℕ) :
    (runOnce zone now retentionDays batches).run.Uses fun c => ∀ cutoff, c = .deleteBatch cutoff →
      cutoff = zone.addDays now (-if retentionDays = 0 then defaultRetentionDays else retentionDays) := by
  have never : ∀ {c : Call} (other : ∀ cutoff, c ≠ .deleteBatch cutoff) (cutoff : ℤ), c = .deleteBatch cutoff →
    cutoff = zone.addDays now (-if retentionDays = 0 then defaultRetentionDays else retentionDays) :=
    fun other cutoff same => absurd same (other cutoff)
  refine Program.Uses.run_bind (Program.Uses.run_bind (Program.Uses.run_forM fun window _ => ?_) fun _ => ?_) fun _ =>
    Program.Uses.run_bind ?_ fun _ => Program.Uses.run_bind ?_ fun _ => ?_
  · apply wrap_uses
    exact ⟨never (by simp), fun _ => trivial⟩
  · apply wrap_uses
    exact ⟨never (by simp), fun _ => trivial⟩
  · exact ⟨never (by simp), fun _ => trivial⟩
  · apply wrap_uses
    exact ⟨never (by simp), fun _ => trivial⟩
  · apply wrap_uses
    exact pruneBefore_uses _ batches

/-- Only a nightly run prunes, up to its reading moved back by its retention. -/
theorem prune_call {cutoff : ℤ} {next : Reply (.deleteBatch cutoff) → Effect (Except String Unit)}
    (reached : (request.body zone host).Reaches trace (.call (.deleteBatch cutoff) next)) :
    ∃ now retention, request.retention = some retention ∧ reading trace = some now ∧
      cutoff = zone.addDays now (-retention) := by
  rcases rebuilds : request.days with _ | days
  case some => exact (rebuild_call rebuilds reached).elim
  cases request with
  | nightly retentionDays batches =>
    simp only [Request.body, nightly, Program.call_bind, Program.done_bind, Program.reaches_call] at reached
    obtain ⟨rfl, same⟩ | ⟨now, trace, rfl, reached⟩ := reached
    · cases same
    split at reached
    · cases reached
    · exact ⟨now, _, rfl, rfl, (reached.always (runOnce_uses _ _ _)).1 cutoff rfl⟩
  | sync days => cases rebuilds
  | recovery => cases rebuilds
  | refresh start stop resolution => cases rebuilds

end Programs

/-- The first day is asked for on the calendar, or by a clock reading that is moved back. -/
private theorem firstDay_near {location : Zone} (within : location.OffsetsWithinDay) {request : Request} {now days : ℤ}
    (goesBack : request.days = some days) : location.date now - days - 1 ≤ request.firstDay location now := by
  have moved := (Zone.date_addDays_near within now (1 - days)).1
  cases request with
  | nightly retentionDays batches => cases goesBack
  | sync asked =>
    cases goesBack
    change _ ≤ location.date (location.addDays now (1 - syncDays asked))
    omega
  | recovery =>
    cases goesBack
    change _ ≤ location.date (location.addDays now (1 - automaticRecoveryDays))
    omega
  | refresh start stop resolution =>
    cases goesBack
    change _ ≤ location.date now
    omega

/-- Apart on the calendar is apart in time. -/
theorem Encounter.Apart.cutoff_le {zone host : Zone} {e : Encounter} (apart : e.Apart zone host)
    (goesBack : e.request.days = some e.days) : zone.addDays e.pruned (-e.retention) ≤
      zone.midnight (zone.date ((e.location zone host).midnight (e.firstDay zone host))) := by
  rcases apart with ⟨⟨located, order, cutoffDay, firstDay⟩, opens⟩ | ⟨⟨within, hostWithin⟩, far⟩
  · have here : e.location zone host = zone := if_pos located
    rw [here, opens.shown]
    apply (opens.before _).le
    omega
  · have locationWithin : (e.location zone host).OffsetsWithinDay := by
      rw [Encounter.location]
      split
      · exact within
      · exact hostWithin
    have first : (e.location zone host).date e.now - e.days - 1 ≤ e.firstDay zone host :=
      firstDay_near locationWithin goesBack
    have start := Zone.midnight_near within locationWithin (e.firstDay zone host)
    have cutoff := (Zone.date_addDays_near within e.pruned (-e.retention)).2
    omega

private theorem write_past (store : Store) (fault : Option String) (call : Except String TelemetryRepository) :
    (store.write fault call).1.past = store.past := by
  cases fault <;> cases call <;> rfl

private theorem aggregates_past (store : Store) (request : Request) (start stop : ℤ) :
    (store.aggregates request start stop).past = store.past ∨ (∃ days, request.days = some days) ∧
      (store.aggregates request start stop).past = store.past.rebuild start stop := by
  cases request with
  | nightly retentionDays batches => exact Or.inl rfl
  | sync days => exact Or.inr ⟨⟨_, rfl⟩, rfl⟩
  | recovery => exact Or.inr ⟨⟨_, rfl⟩, rfl⟩
  | refresh lower upper resolution => exact Or.inr ⟨⟨_, rfl⟩, rfl⟩

private theorem saveMinute_past (store : Store) (observedAt : ℤ) (sample : Sample) :
    (store.saveMinute observedAt sample).past = store.past := by
  rw [Store.saveMinute]
  split
  · split <;> rfl
  · rfl

/-- What a call leaves on record: nothing, a batch that was deleted, or a window of a rebuild. -/
private theorem exec_cases {store after : Store} {request : Request} {luck : Luck} {c : Call} {answer : Reply c}
    (executed : store.exec request luck c = (after, answer)) :
    after.past = store.past ∨
    (∃ cutoff count, (⟨c, answer⟩ : Exchange Reply) = ⟨.deleteBatch cutoff, .ok count⟩ ∧
      after.past = store.past.prune cutoff (store.batch cutoff)) ∨
    ∃ start stop, (c = .aggregateHour start stop ∨ c = .aggregateDay start stop) ∧
      (∃ days, request.days = some days) ∧ after.past = store.past.rebuild start stop := by
  have past : after.past = (store.exec request luck c).1.past := by rw [executed]
  cases c with
  | aggregateHour start stop =>
    rw [Store.exec, write_past] at past
    rcases aggregates_past store request start stop with same | ⟨rebuilds, noted⟩
    · exact Or.inl (past.trans same)
    · exact Or.inr (Or.inr ⟨start, stop, Or.inl rfl, rebuilds, past.trans noted⟩)
  | aggregateDay start stop =>
    rw [Store.exec, write_past] at past
    rcases aggregates_past store request start stop with same | ⟨rebuilds, noted⟩
    · exact Or.inl (past.trans same)
    · exact Or.inr (Or.inr ⟨start, stop, Or.inr rfl, rebuilds, past.trans noted⟩)
  | deleteBatch cutoff =>
    rw [Store.exec] at executed
    split at executed
    · cases executed
      exact Or.inr (Or.inl ⟨cutoff, _, rfl, rfl⟩)
    · cases executed
      exact Or.inl rfl
  | saveMinute frame =>
    rw [Store.exec] at past
    split at past
    · exact Or.inl (past.trans (saveMinute_past _ _ _))
    · exact Or.inl past
  | analyzeDay => exact Or.inl (past.trans (write_past _ _ _))
  | aggregateMonth inMonth => exact Or.inl (past.trans (write_past _ _ _))
  | now | station | billingLocation | fetchFrames _ _ _ => exact Or.inl past

theorem reading_append {trace : List (Exchange Reply)} {now : ℤ} (here : reading trace = some now)
    (more : List (Exchange Reply)) : reading (trace ++ more) = some now := by
  fun_induction reading trace with
  | case1 => cases here
  | case2 first rest => exact here
  | case3 exchange rest other ih =>
    rw [List.cons_append, reading]
    · exact ih here
    · exact other

/-- A job has deleted a batch before the cutoff. -/
def PrunedUpTo (zone : Zone) (job : Running) (cutoff : ℤ) : Prop :=
  job.exchanges.any prunes = true ∧ ∃ now retention, job.request.retention = some retention ∧
    reading job.exchanges = some now ∧ cutoff = zone.addDays now (-retention)

/-- Every cutoff is that of a nightly run, and only minutes before one were deleted. -/
structure Accounted (zone : Zone) (s : Jobs) : Prop where
  cutoffs : ∀ cutoff ∈ s.shared.past.cutoffs, ∃ job ∈ s.threads, PrunedUpTo zone job cutoff
  deleted : ∀ row ∈ s.shared.past.deleted, ∃ cutoff ∈ s.shared.past.cutoffs, row.1 < cutoff
  intact : ∀ window ∈ s.shared.past.rebuilt, window.Intact

section Steps

variable {zone host : Zone} {s t : Jobs}

theorem Accounted.of_past (accounted : Accounted zone s) (past : t.shared.past = s.shared.past)
    (threads : ∀ job ∈ s.threads, ∀ cutoff, PrunedUpTo zone job cutoff → ∃ later ∈ t.threads, PrunedUpTo zone later cutoff) :
    Accounted zone t := by
  refine ⟨fun cutoff member => ?_, ?_, ?_⟩
  · rw [past] at member
    obtain ⟨job, here, pruned⟩ := accounted.cutoffs cutoff member
    exact threads job here cutoff pruned
  · rw [past]
    exact accounted.deleted
  · rw [past]
    exact accounted.intact

variable {thread : Running} {i : ℕ} {c : Call} {answer : Reply c} {next : Reply c → Effect (Except String Unit)} {moved : ℤ}

/-- A job that goes on has still pruned, and the others are as they were. -/
private theorem prunedUpTo_stays {later : Running} (found : s.threads[i]? = some thread)
    (threads : t.threads = s.threads.set i later) (same : later.request = thread.request)
    (longer : later.exchanges = thread.exchanges ++ [⟨c, answer⟩]) :
    ∀ job ∈ s.threads, ∀ cutoff, PrunedUpTo zone job cutoff → ∃ later ∈ t.threads, PrunedUpTo zone later cutoff := by
  rintro job member cutoff ⟨pruned, now, retention, keeps, here, at_⟩
  obtain ⟨j, place⟩ := List.mem_iff_getElem?.mp member
  by_cases moving : i = j
  · subst moving
    rw [found] at place
    cases place
    refine ⟨later, threads ▸ Interleaving.mem_set found, ?_, now, retention, ?_, ?_, at_⟩
    · rw [longer, List.any_append, pruned, Bool.true_or]
    · rw [same, keeps]
    · rw [longer]
      exact reading_append here _
  · refine ⟨job, ?_, pruned, now, retention, keeps, here, at_⟩
    rw [threads]
    exact List.mem_iff_getElem?.mpr ⟨j, by rw [List.getElem?_set_ne moving, place]⟩

/-- A window of a rebuild that is apart from all prunings starts past their cutoffs. -/
private theorem rebuild_intact (accounted : Accounted zone s)
    (reached : (thread.request.body zone host).Reaches thread.exchanges (.call c next)) (standing : thread.rest = .call c next)
    (allowed : ∀ pruner ∈ s.threads, ∀ e ∈ encounter pruner thread, e.Apart zone host) {start stop days : ℤ}
    (aggregates : c = .aggregateHour start stop ∨ c = .aggregateDay start stop)
    (rebuilds : thread.request.days = some days) :
    Rebuilt.Intact ⟨start, stop, s.shared.past.cutoffs, s.shared.past.deleted⟩ := by
  have starts := rebuild_call rebuilds reached
  obtain ⟨now, here, floor⟩ : ∃ now, reading thread.exchanges = some now ∧
      let location := if located thread.exchanges then zone else host
      zone.midnight (zone.date (location.midnight (thread.request.firstDay location now))) ≤ start := by
    rcases aggregates with rfl | rfl <;> exact starts
  have aggregating : thread.isAggregating = true := by
    rw [Running.isAggregating, standing]
    rcases aggregates with rfl | rfl <;> rfl
  have past : ∀ cutoff ∈ s.shared.past.cutoffs, cutoff ≤ start := by
    intro cutoff member
    obtain ⟨pruner, present, pruned, before, retention, keeps, read, rfl⟩ := accounted.cutoffs cutoff member
    have met : encounter pruner thread =
        some ⟨before, retention, thread.request, located thread.exchanges, now, days⟩ := by
      simp [encounter, keeps, read, rebuilds, here, pruned, aggregating]
    exact ((allowed pruner present _ met).cutoff_le rebuilds).trans floor
  refine ⟨fun cutoff member t from_ _ => (past cutoff member).trans from_, ?_⟩
  rintro row member ⟨inside, -⟩
  obtain ⟨cutoff, pruned, before⟩ := accounted.deleted row member
  exact absurd (before.trans_le ((past cutoff pruned).trans inside)) (lt_irrefl _)

/-- One call of a job. -/
private theorem Accounted.advance {luck : Luck} {later : Running} (accounted : Accounted zone s)
    (reached : (jobs zone host).Reached thread) (found : s.threads[i]? = some thread)
    (allowed : Spares (·.Apart zone host) s (.moves i luck))
    (advanced : (jobs zone host).advance s.shared thread luck = some (t.shared, later))
    (threads : t.threads = s.threads.set i later) : Accounted zone t := by
  obtain ⟨c, next, answer, standing, executed, made⟩ := Interleaving.advance_cases advanced
  rw [Interleaving.Reached, standing] at reached
  have request : later.request = thread.request := by rw [made]
  have longer : later.exchanges = thread.exchanges ++ [⟨c, answer⟩] := by rw [made]
  have stays : ∀ job ∈ s.threads, ∀ cutoff, PrunedUpTo zone job cutoff → ∃ later ∈ t.threads,
      PrunedUpTo zone later cutoff := prunedUpTo_stays found threads request longer
  rcases exec_cases (Option.some.inj executed) with same | ⟨cutoff, count, exchange, noted⟩ |
    ⟨start, stop, aggregates, ⟨days, rebuilds⟩, noted⟩
  · exact accounted.of_past same stays
  · cases exchange
    obtain ⟨now, retention, keeps, here, upTo⟩ := prune_call reached
    refine ⟨fun other member => ?_, fun row member => ?_, fun window member => ?_⟩
    · rw [noted] at member
      rcases List.mem_cons.mp member with rfl | earlier
      · refine ⟨later, threads ▸ Interleaving.mem_set found, ?_, now, retention, request ▸ keeps, ?_, upTo⟩
        · rw [longer, List.any_append]
          exact Bool.or_true _
        · rw [longer]
          exact reading_append here _
      · obtain ⟨job, present, pruned⟩ := accounted.cutoffs other earlier
        exact stays job present other pruned
    · rw [noted] at member ⊢
      rcases List.mem_append.mp member with fresh | earlier
      · exact ⟨cutoff, List.mem_cons_self, (mem_before.mp (List.mem_of_mem_take fresh)).2⟩
      · obtain ⟨other, pruned, before⟩ := accounted.deleted row earlier
        exact ⟨other, List.mem_cons_of_mem _ pruned, before⟩
    · rw [noted] at member
      exact accounted.intact window member
  · refine ⟨fun cutoff member => ?_, fun row member => ?_, fun window member => ?_⟩
    · rw [noted] at member
      obtain ⟨job, present, pruned⟩ := accounted.cutoffs cutoff member
      exact stays job present cutoff pruned
    · rw [noted] at member ⊢
      exact accounted.deleted row member
    · rw [noted] at member
      rcases List.mem_cons.mp member with rfl | earlier
      · exact rebuild_intact accounted reached standing (allowed thread found) aggregates rebuilds
      · exact accounted.intact window earlier

private theorem world_past {store after : Store} {change : World} (changed : store.world change = some after) :
    after.past = store.past := by
  cases change with
  | advance time =>
    obtain ⟨-, same⟩ := Option.ite_none_right_eq_some.mp changed
    cases same
    rfl
  | saveMinute observedAt sample =>
    cases changed
    exact saveMinute_past store observedAt sample

/-- What one step preserves. -/
theorem Accounted.step {event : Happening Request Luck World} (accounted : Accounted zone s)
    (reached : ∀ thread ∈ s.threads, (jobs zone host).Reached thread) (allowed : Spares (·.Apart zone host) s event)
    (stepped : (jobs zone host).step s event = some t) : Accounted zone t := by
  obtain ⟨request, rfl, rfl⟩ | ⟨i, luck, thread, later, rfl, found, advanced, threads⟩ |
    ⟨change, rfl, changed, threads⟩ := Interleaving.step_cases stepped
  · exact accounted.of_past rfl fun job present cutoff pruned => ⟨job, List.mem_append_left _ present, pruned⟩
  · exact accounted.advance (reached thread (List.mem_of_getElem? found)) found allowed advanced threads
  · refine accounted.of_past (world_past changed) fun job present cutoff pruned => ⟨job, ?_, pruned⟩
    rwa [threads]

end Steps

/-- In every run in which each rebuild that goes on is apart from what has been pruned, no rebuild covers an
instant before a cutoff, and no row is overwritten from deleted minutes. -/
theorem pruned_history_kept {host : Zone} {clock : ℤ} {repo : TelemetryRepository} {sources : Table ℤ ℤ} {t : Jobs}
    {events : List (Happening Request Luck World)}
    (run : Run (Guarded (Spares (·.Apart repo.zone host)) (Enabled (jobs repo.zone host).step))
      (opened clock repo sources) events t) :
    ∀ window ∈ t.shared.past.rebuilt, window.Intact := by
  have accounted : Accounted repo.zone t := by
    apply run.reached_invariant
    · exact ⟨by simp [opened], by simp [opened], by simp [opened]⟩
    · rintro earlier s event u before accounted ⟨allowed, stepped⟩
      exact accounted.step (Interleaving.threads_reach before.unguard rfl) allowed stepped
  exact accounted.intact

section ThirtyDays

/-- A repository with one minute of sun. -/
private def oneMinute (zone : Zone) (minute : ℤ) : TelemetryRepository :=
  ⟨zone, Table.empty.upsert minute ⟨500, .normal⟩, Table.empty, Table.empty, Table.empty⟩

private def sunny (zone : Zone) (clock minute : ℤ) : Jobs :=
  opened clock (oneMinute zone minute) (Table.empty.upsert minute minute)

/-- A nightly run that keeps thirty days, from its clock reading to its pruning. -/
private def nightlyRun (job : ℕ) : List (Happening Request Luck World) :=
  .begins (.nightly ⟨30, by decide⟩ 1) :: List.replicate 29 (.moves job {})

private def reaches (clock : ℤ) : Happening Request Luck World := .world (.advance clock)

/-- A synchronisation of thirty days gets one frame, and goes on with so many calls. -/
private def synchronises (job : ℕ) (frame : ℤ) (calls : ℕ) : List (Happening Request Luck World) :=
  [.begins (.sync 30), .moves job { station := .ok 1 }, .moves job {}, .moves job {},
    .moves job { frames := .ok [⟨frame, 400⟩] }] ++ List.replicate calls (.moves job {})

private def sameDay : List (Happening Request Luck World) :=
  nightlyRun 0 ++ reaches (30 * 86400 + 86340) :: synchronises 1 (30 * 86400 + 43200) 3

private def Past.overwrites (past : Past) : Bool :=
  past.rebuilt.any fun window => decide (window.start < window.stop) && window.cutoffs.any fun cutoff =>
    decide (window.start < cutoff)

private theorem not_intact_of_overwrites {past : Past} (overwrites : past.overwrites = true) :
    ¬∀ window ∈ past.rebuilt, window.Intact := by
  intro intact
  obtain ⟨window, member, found⟩ := List.any_eq_true.mp overwrites
  rw [Bool.and_eq_true, decide_eq_true_eq] at found
  obtain ⟨cutoff, pruned, later⟩ := List.any_eq_true.mp found.2
  exact absurd ((intact window member).covers cutoff pruned _ le_rfl found.1) (not_le.mpr (of_decide_eq_true later))

/-- The first two hours of a synchronisation, minutes before the end of the day that began with the pruning. -/
theorem pruned_history_kept_same_day : ∃ t,
    Run (Guarded (Spares (·.Apart Zone.utc Zone.utc)) (Enabled (jobs Zone.utc Zone.utc).step))
      (sunny Zone.utc (30 * 86400 + 600) 300) sameDay t ∧
    t.shared.past.cutoffs = [600] ∧ t.shared.past.rebuilt.length = 2 ∧ ∀ window ∈ t.shared.past.rebuilt, window.Intact := by
  have possible : ((sameDay.foldlM (fun s event =>
      if Spares (·.InDays Zone.utc Zone.utc) s event then (jobs Zone.utc Zone.utc).step s event else none)
        (sunny Zone.utc (30 * 86400 + 600) 300)).map fun t =>
      (t.shared.past.cutoffs, t.shared.past.rebuilt.length)) = some ([600], 2) := by
    decide +kernel
  obtain ⟨t, reached, shown⟩ := Option.map_eq_some_iff.mp possible
  obtain ⟨cutoffs, rebuilt⟩ := Prod.mk.inj shown
  have run : Run (Guarded (Spares (·.Apart Zone.utc Zone.utc)) (Enabled (jobs Zone.utc Zone.utc).step))
      (sunny Zone.utc (30 * 86400 + 600) 300) sameDay t := by
    refine (Run.of_guarded_foldlM reached).weaken fun s event allowed => ?_
    cases event with
    | begins request => trivial
    | world change => trivial
    | moves i luck =>
      intro job found pruner present e met
      exact Or.inl ⟨allowed job found pruner present e met,
        Zone.opens_of_keepsMidnights (Zone.fixed_keepsMidnights _) _⟩
  exact ⟨t, run, cutoffs, rebuilt, @pruned_history_kept Zone.utc _ (oneMinute Zone.utc 300) _ t sameDay run⟩

private def stalled : List (Happening Request Luck World) :=
  synchronises 0 (30 * 86400 + 43200) 1 ++ reaches (31 * 86400 + 360) :: nightlyRun 1 ++ [.moves 0 {}]

/-- A synchronisation that has read the clock a minute before midnight rebuilds, after the nightly run of the
next day, an hour whose first minutes were pruned. -/
theorem stalled_sync_rebuilds_pruned_hour : ¬∀ (host : Zone) (clock : ℤ) (repo : TelemetryRepository)
    (sources : Table ℤ ℤ) (t : Jobs) (events : List (Happening Request Luck World)),
    Run (Enabled (jobs repo.zone host).step) (opened clock repo sources) events t →
      ∀ window ∈ t.shared.past.rebuilt, window.Intact := by
  intro claimed
  have possible : ((stalled.foldlM (jobs Zone.utc Zone.utc).step
      (sunny Zone.utc (30 * 86400 + 86340) (86400 + 60))).map fun t => t.shared.past.overwrites) = some true := by
    decide +kernel
  obtain ⟨t, reached, overwrites⟩ := Option.map_eq_some_iff.mp possible
  have run : Run (Enabled (jobs Zone.utc Zone.utc).step) (sunny Zone.utc (30 * 86400 + 86340) (86400 + 60)) stalled t :=
    Run.of_foldlM reached
  exact not_intact_of_overwrites overwrites
    (claimed Zone.utc _ (oneMinute Zone.utc (86400 + 60)) (Table.empty.upsert (86400 + 60) (86400 + 60)) t stalled run)

private def afterSkip : List (Happening Request Luck World) :=
  nightlyRun 0 ++ reaches (20731 * 86400 + 43200) :: synchronises 1 (20731 * 86400 + 43200) 2

/-- On the day of the nightly run, a synchronisation back to a day whose midnight is skipped rebuilds the first
hour of the day before. -/
theorem skipped_midnight_rebuilds_pruned_hour : ∃ t,
    Run (Enabled (jobs skippedMidnight skippedMidnight).step)
      (sunny skippedMidnight (20731 * 86400 + 11400) (20701 * 86400 + 14460)) afterSkip t ∧
    ¬∀ window ∈ t.shared.past.rebuilt, window.Intact := by
  have possible : ((afterSkip.foldlM (jobs skippedMidnight skippedMidnight).step
      (sunny skippedMidnight (20731 * 86400 + 11400) (20701 * 86400 + 14460))).map fun t =>
      t.shared.past.overwrites) = some true := by
    decide +kernel
  obtain ⟨t, reached, overwrites⟩ := Option.map_eq_some_iff.mp possible
  exact ⟨t, Run.of_foldlM reached, not_intact_of_overwrites overwrites⟩

end ThirtyDays

end Helio.History
