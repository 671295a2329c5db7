import Helio.Soundness.SessionLifetime

/-! # A session in steady use

A session that is authenticated by one request at a time stays alive: a request may not move
`last_seen_at`, but then it lags less than five minutes behind, so a day less five minutes after the
latest use the session is still not idle.
-/

namespace Helio.Auth

open Calendar

variable {κ : Type} [DecidableEq κ] {digest : String → κ} {s t : Requests κ} {thread later : Operation κ} {luck : Luck}
  {key : κ} {m after : Manager κ}

def Operation.isUnfinished (thread : Operation κ) : Bool :=
  match thread.rest with
  | .call _ _ => true
  | .done _ => false

/-- The session is younger than thirty days, and its creation or an `Authenticate` of it that has passed
its check is no longer ago than a day less five minutes. -/
def timely (digest : String → κ) (key : κ) (s : Requests κ) : Bool :=
  (s.shared.created.find? key).any fun created =>
    decide (s.shared.clock < created + sessionLifetime) &&
      (decide (s.shared.clock ≤ created + (sessionIdleTime - sessionTouchInterval)) ||
        s.threads.any fun thread => Operation.authenticates digest key thread &&
          (Operation.authenticatedAt thread).any fun now =>
            decide (s.shared.clock ≤ now + (sessionIdleTime - sessionTouchInterval)))

/-- A step of session requests without a store failure, in which the session is not logged out and is
authenticated by one request at a time, each in time. -/
def steady (digest : String → κ) (key : κ) (s : Requests κ) : Happening Request Luck ℤ → Bool
  | .begins (.login _ _ _) => true
  | .begins (.authenticate token) => digest token ≠ key || !s.threads.any fun thread =>
      Operation.authenticates digest key thread && Operation.isUnfinished thread
  | .begins (.logout token) => digest token ≠ key
  | .begins _ => false
  | .moves i luck => luck.fault.isNone && s.threads[i]?.all fun thread =>
      match thread.rest with
      | .call .now _ => !Operation.authenticates digest key thread || timely digest key s
      | _ => true
  | .world _ => true

abbrev SteadyRun (digest : String → κ) (key : κ) :=
  Run (Guarded (fun s event => steady digest key s event = true) (Enabled (manager digest).step))

theorem SteadyRun.sessionRun {events : List (Happening Request Luck ℤ)} (run : SteadyRun digest key s events t) :
    SessionRun digest s events t := by
  refine run.weaken fun s event allowed => ?_
  match event, allowed with
  | .begins (.login _ _ _), _ | .begins (.authenticate _), _ | .begins (.logout _), _ => trivial
  | .moves _ _, _ | .world _, _ => trivial

/-- The session is in the store, with its user and with readable times. -/
structure Stored (m : Manager κ) (key : κ) (row : SessionRow κ) : Prop where
  found : m.sessions.find? key = some row
  user : m.users.find? row.userID ≠ none
  created : FourDigitYear row.createdAt
  expires : FourDigitYear row.expiresAt

/-- A session in the store is looked up. -/
theorem Stored.lookup {row : SessionRow κ} (stored : Stored m key row) (recorded : Recorded m) :
    ∃ session, m.lookup key = .ok session := by
  obtain ⟨-, expires, lived, unexpired⟩ := recorded key row stored.found
  obtain ⟨user, named⟩ := Option.ne_none_iff_exists'.mp stored.user
  have seen : FourDigitYear row.lastSeenAt := stored.created.between stored.expires lived unexpired.le
  have readable : ∀ {t : ℤ}, FourDigitYear t → parseTime t = .ok t := fun digits => by
    rw [parseTime]
    exact if_pos digits
  simp [Manager.lookup, stored.found, named, readable stored.created, readable seen, readable stored.expires]

/-- What a step leaves of a stored session: it stays unless it is deleted, and only a touch moves it. -/
theorem advance_keeps {row : SessionRow κ} (stored : Stored s.shared key row)
    (recorded : s.shared.created.find? key ≠ none) (kept : ∀ next, thread.rest ≠ .call (.deleteSession key) next)
    (advanced : (manager digest).advance s.shared thread luck = some (t.shared, later)) :
    Stored t.shared key row ∨ ∃ seenAt next, thread.rest = .call (.touchSession key seenAt) next ∧
      Stored t.shared key { row with lastSeenAt := seenAt } := by
  obtain ⟨c, next, answer, standing, executed, -⟩ := Interleaving.advance_cases advanced
  generalize t.shared = after at *
  obtain ⟨found, user, created, expires⟩ := stored
  cases exec_sessions executed with
  | kept confirmed same =>
    subst same
    exact Or.inl ⟨found, user, created, expires⟩
  | created other fresh fault unused same =>
    subst same
    have differ : key ≠ other := by
      rintro rfl
      exact recorded unused
    exact Or.inl ⟨by rwa [Table.find?_upsert, if_neg differ], user, created, expires⟩
  | touched other seenAt old here due same =>
    subst same
    by_cases same : key = other
    · subst same
      rw [found] at here
      cases here
      exact Or.inr ⟨seenAt, next, standing, by simp, user, created, expires⟩
    · exact Or.inl ⟨by rwa [Table.find?_upsert, if_neg same], user, created, expires⟩
  | deleted other same =>
    subst same
    have differ : key ≠ other := by
      rintro rfl
      exact kept next standing
    exact Or.inl ⟨by rwa [Table.find?_erase, if_neg differ], user, created, expires⟩

/-- A due touch after a check moves the row that was looked up. -/
theorem touch_moves {row : SessionRow κ} {session : Session κ} {now : ℤ} (known : Known m key session)
    (found : m.sessions.find? key = some row) (same : session.lastSeenAt = row.lastSeenAt)
    (alive : ¬session.isOver now) (due : sessionTouchInterval ≤ durationSince now session.lastSeenAt) :
    (m.touch key now).sessions.find? key = some { row with lastSeenAt := now } := by
  simp only [Session.isOver, not_or, not_not] at alive
  rw [← not_lt, durationSince_lt (by decide) (by decide), not_lt] at due
  have positive : 0 < sessionTouchInterval := by decide
  have ends := known.expires
  have order : ¬formatTime (now - sessionTouchInterval) < formatTime row.lastSeenAt := by
    rw [← same]
    intro texts
    rcases (show session.lastSeenAt ≤ now - sessionTouchInterval by omega).lt_or_eq with earlier | equal
    · have readable := known.lastSeen.between known.expiry (show _ ≤ now - sessionTouchInterval by omega) (by omega)
      exact lt_asymm texts (formatTime_strictMono known.lastSeen readable earlier)
    · rw [equal] at texts
      exact lt_irrefl _ texts
  simp [Manager.touch, found, order]

/-- An `Authenticate` in a steady run: it is refused only for its text, what it has looked up is still
so, and when it has returned the row lags less than five minutes behind it. -/
structure Fares (digest : String → κ) (key : κ) (row : SessionRow κ) (thread : Operation κ) : Prop where
  refused : ∀ error, thread.rest = .done (.refused error) → ∀ token, thread.request = .authenticate token →
    ¬decodesToToken token
  deletes : ∀ other next, thread.rest ≠ .call (.deleteSession other) next
  looked : Operation.isUnfinished thread = true → ∀ session, ⟨.lookupSession key, .ok session⟩ ∈ thread.exchanges →
    session.lastSeenAt = row.lastSeenAt
  passed : Operation.isUnfinished thread = false → ∀ now, Operation.authenticatedAt thread = some now →
    now < row.lastSeenAt + sessionTouchInterval

omit [DecidableEq κ] in
theorem Fares.of_call {row : SessionRow κ} {c : Call κ} {next : Reply c → Effect κ (Outcome κ)}
    (standing : thread.rest = .call c next) (keeps : ∀ other, c ≠ .deleteSession other)
    (looked : ∀ session, ⟨.lookupSession key, .ok session⟩ ∈ thread.exchanges → session.lastSeenAt = row.lastSeenAt) :
    Fares digest key row thread where
  refused := fun error finished => by
    rw [standing] at finished
    cases finished
  deletes := fun other next same => by
    rw [standing] at same
    cases same
    exact keeps other rfl
  looked := fun _ => looked
  passed := fun finished => by
    rw [Operation.isUnfinished, standing] at finished
    cases finished

omit [DecidableEq κ] in
theorem Fares.of_success {row : SessionRow κ} {principal : Principal κ} {now : ℤ}
    (finished : thread.rest = .done (.authenticated principal)) (at_ : Operation.authenticatedAt thread = some now)
    (lag : now < row.lastSeenAt + sessionTouchInterval) : Fares digest key row thread where
  refused := fun error same => by
    rw [finished] at same
    cases same
  deletes := fun other next same => by
    rw [finished] at same
    cases same
  looked := fun unfinished => by
    rw [Operation.isUnfinished, finished] at unfinished
    cases unfinished
  passed := fun _ now' same => by
    rw [at_] at same
    cases same
    exact lag

/-- A state of a steady run. -/
structure Steadied (digest : String → κ) (key : κ) (s : Requests κ) (row : SessionRow κ) : Prop where
  stored : Stored s.shared key row
  logout : ∀ thread ∈ s.threads, ∀ token, thread.request = .logout token → digest token ≠ key
  single : ∀ (i j : ℕ) (thread other : Operation κ), s.threads[i]? = some thread → s.threads[j]? = some other →
    Operation.authenticates digest key thread = true → Operation.isUnfinished thread = true →
      Operation.authenticates digest key other = true → Operation.isUnfinished other = true → i = j
  fares : ∀ thread ∈ s.threads, Operation.authenticates digest key thread = true → Fares digest key row thread

/-- The check of an `Authenticate` that looked the session up as it is and is in time. -/
theorem Steadied.alive {row : SessionRow κ} {session : Session κ} {i : ℕ} {next : ℤ → Effect κ (Outcome κ)}
    (steadied : Steadied digest key s row) (sane : Sane digest s) (timely_ : timely digest key s = true)
    (taken : s.threads[i]? = some thread) (authenticates : Operation.authenticates digest key thread = true)
    (standing : thread.rest = .call .now next) (looked : ⟨.lookupSession key, .ok session⟩ ∈ thread.exchanges) :
    ¬session.isOver s.shared.clock := by
  have member := List.mem_of_getElem? taken
  have unfinished : Operation.isUnfinished thread = true := by rw [Operation.isUnfinished, standing]
  have same := (steadied.fares thread member authenticates).looked unfinished session looked
  have known := (sane.knows thread member).sessions key session looked
  obtain ⟨onRecord, -, lived, -⟩ := sane.recorded key row steadied.stored.found
  have created := known.created
  rw [onRecord] at created
  have expires := known.expires
  have interval : 0 < sessionTouchInterval := by decide
  rw [timely, onRecord, Option.any_some, Bool.and_eq_true, Bool.or_eq_true, decide_eq_true_eq] at timely_
  obtain ⟨young, used⟩ := timely_
  have recent : s.shared.clock < row.lastSeenAt + sessionIdleTime := by
    rcases used with new | passed
    · have new := of_decide_eq_true new
      omega
    · obtain ⟨other, there, used⟩ := List.any_eq_true.mp passed
      obtain ⟨same, used⟩ := Bool.and_eq_true_iff.mp used
      obtain ⟨now, at_, within⟩ := (Option.any_eq_true _ _).mp used
      have within := of_decide_eq_true within
      cases going : Operation.isUnfinished other with
      | false =>
        have lag := (steadied.fares other there same).passed going now at_
        omega
      | true =>
        -- The only unfinished request is the one that is about to read the clock.
        obtain ⟨j, here⟩ := List.mem_iff_getElem?.mp there
        have unique := steadied.single i j thread other taken here authenticates unfinished same going
        subst unique
        rw [taken] at here
        cases here
        rw [Operation.authenticatedAt, standing] at at_
        split at at_
        · next rest => cases rest
        · next rest => cases rest
        · cases at_
  have same' : row.createdAt = session.createdAt := Option.some.inj created
  simp only [Session.isOver, not_or, not_not, not_le]
  rw [durationSince_lt (by decide) (by decide)]
  omega

/-- The next call of an `Authenticate` of the session. -/
theorem Steadied.moved {row row' : SessionRow κ} {i : ℕ} (steadied : Steadied digest key s row) (sane : Sane digest s)
    (stands : Operation.Stands digest later) (fault : luck.fault = none)
    (timely_ : ∀ next, thread.rest = .call .now next → timely digest key s = true)
    (taken : s.threads[i]? = some thread) (authenticates : Operation.authenticates digest key thread = true)
    (advanced : (manager digest).advance s.shared thread luck = some (t.shared, later))
    (stored : t.shared.sessions.find? key = some row') : Fares digest key row' later := by
  have member := List.mem_of_getElem? taken
  have fares := steadied.fares thread member authenticates
  have before := sane.stands thread member
  obtain ⟨c, next, answer, standing, executed, same⟩ := Interleaving.advance_cases advanced
  have unfinished : Operation.isUnfinished thread = true := by rw [Operation.isUnfinished, standing]
  obtain ⟨token, asked, rfl⟩ := authenticates_iff.mp authenticates
  have exchanges : later.exchanges = thread.exchanges ++ [⟨c, answer⟩] := by rw [same]
  have request : later.request = .authenticate token := by rw [same, ← asked]
  have alive : ∀ next session, thread.rest = .call .now next →
      ⟨.lookupSession (digest token), .ok session⟩ ∈ thread.exchanges → ¬session.isOver s.shared.clock :=
    fun next session standing => steadied.alive sane (timely_ next standing) taken authenticates standing
  have known := (sane.knows thread member).sessions (digest token)
  have looked := fares.looked unfinished
  rw [Operation.Stands, asked, standing] at before
  rw [Operation.Stands, request] at stands
  generalize left : later.rest = rest at stands
  generalize t.shared = after at *
  change s.shared.exec luck c = some (after, answer) at executed
  generalize past : thread.exchanges = trace at *
  cases before with
  | asked =>
    obtain ⟨session, found⟩ := steadied.stored.lookup sane.recorded
    simp only [Manager.exec, fault, found, Option.some.injEq, Prod.mk.injEq] at executed
    obtain ⟨rfl, rfl⟩ := executed
    rw [exchanges] at stands
    cases stands
    refine .of_call left (fun _ other => by cases other) fun session' member => ?_
    rw [exchanges] at member
    cases List.mem_singleton.mp member
    rw [(lookup_ok found).1] at stored
    cases stored
    rfl
  | found session next =>
    cases executed
    have same := looked session (by simp)
    have alive := alive _ session standing (by simp)
    rw [exchanges] at stands
    rw [steadied.stored.found] at stored
    cases stored
    cases stands with
    | ended _ _ _ ended => exact absurd ended alive
    | due _ _ next =>
      refine .of_call left (fun _ other => by cases other) fun session' member => ?_
      rw [exchanges] at member
      simp only [List.cons_append, List.nil_append, List.mem_cons, List.not_mem_nil, or_false] at member
      rcases member with first | second
      · cases first
        exact same
      · cases second
    | recent _ _ _ recent =>
      refine .of_success left (by rw [Operation.authenticatedAt, exchanges, left]; rfl) ?_
      rw [not_le, durationSince_lt (by decide) (by decide)] at recent
      omega
  | ended session now next ended =>
    exact absurd standing (fares.deletes _ _)
  | due session now next unended due =>
    have same := looked session (by simp)
    have moves := touch_moves (known session (by simp)) steadied.stored.found same unended due
    simp only [Manager.exec, Manager.write, fault, Option.some.injEq, Prod.mk.injEq] at executed
    obtain ⟨rfl, rfl⟩ := executed
    rw [moves] at stored
    cases stored
    rw [exchanges] at stands
    cases stands
    refine .of_success left (by rw [Operation.authenticatedAt, exchanges, left]; rfl) ?_
    have interval : 0 < sessionTouchInterval := by decide
    simpa using interval

/-- Only an `Authenticate` that finds the session over, or a logout, deletes it. -/
theorem Steadied.keeps {row : SessionRow κ} {next : Option String → Effect κ (Outcome κ)}
    (steadied : Steadied digest key s row) (stands : Operation.Stands digest thread) (member : thread ∈ s.threads) :
    thread.rest ≠ .call (.deleteSession key) next := by
  intro standing
  rw [Operation.Stands, standing] at stands
  split at stands
  · exact stands.1.elim
  · next token asked =>
    generalize thread.exchanges = trace at stands
    cases stands
    exact (steadied.fares thread member (authenticates_iff.mpr ⟨token, asked, rfl⟩)).deletes _ _ standing
  · next token asked => exact steadied.logout thread member token asked stands.1.symm
  · exact stands.elim

theorem isUnfinished_of_advance (advanced : (manager digest).advance s.shared thread luck = some (t.shared, later)) :
    Operation.isUnfinished thread = true ∧ later.request = thread.request := by
  obtain ⟨c, next, answer, standing, -, rfl⟩ := Interleaving.advance_cases advanced
  exact ⟨by rw [Operation.isUnfinished, standing], rfl⟩

theorem authenticates_of_request (same : later.request = thread.request) :
    Operation.authenticates digest key later = Operation.authenticates digest key thread := by
  rw [Operation.authenticates, Operation.authenticates, same]

omit [DecidableEq κ] in
/-- A request other than the one that moved. -/
theorem Fares.other {row row' : SessionRow κ} {other : Operation κ} (fares : Fares digest key row other)
    (forward : row.lastSeenAt ≤ row'.lastSeenAt)
    (same : Operation.isUnfinished other = true → row'.lastSeenAt = row.lastSeenAt) : Fares digest key row' other where
  refused := fares.refused
  deletes := fares.deletes
  looked := fun unfinished session member => (fares.looked unfinished session member).trans (same unfinished).symm
  passed := fun finished now at_ => by
    have lag := fares.passed finished now at_
    omega

theorem Steadied.moves {row : SessionRow κ} {i : ℕ} (steadied : Steadied digest key s row) (sane : Sane digest s)
    (stands : Operation.Stands digest later) (allowed : steady digest key s (.moves i luck) = true)
    (taken : s.threads[i]? = some thread)
    (advanced : (manager digest).advance s.shared thread luck = some (t.shared, later))
    (threads : t.threads = s.threads.set i later) (ages : Ages s.shared t.shared) :
    ∃ row', Steadied digest key t row' := by
  have member := List.mem_of_getElem? taken
  obtain ⟨onRecord, -⟩ := sane.recorded key row steadied.stored.found
  obtain ⟨unfinished, request⟩ := isUnfinished_of_advance advanced
  have authenticates := @authenticates_of_request _ _ digest _ _ key request
  obtain ⟨row', stored, moved⟩ : ∃ row', Stored t.shared key row' ∧
      (row' = row ∨ Operation.authenticates digest key thread = true) := by
    rcases advance_keeps steadied.stored (by simp [onRecord])
      (fun next => steadied.keeps (sane.stands thread member) member) advanced with same | ⟨seenAt, next, touch, moved⟩
    · exact ⟨row, same, Or.inl rfl⟩
    · exact ⟨_, moved, Or.inr (authenticatedAt_of_touch (sane.stands thread member) touch).1⟩
  have forward : row.lastSeenAt ≤ row'.lastSeenAt := by
    obtain ⟨old, found, earlier⟩ := ages.rows key _ row' onRecord stored.found
    rw [steadied.stored.found] at found
    cases found
    exact earlier
  have cases_ : ∀ (j : ℕ) (other : Operation κ), t.threads[j]? = some other →
      j = i ∧ other = later ∨ j ≠ i ∧ s.threads[j]? = some other := fun j other found => by
    rw [threads] at found
    by_cases same : i = j
    · subst same
      rw [List.getElem?_set_self (List.getElem?_eq_some_iff.mp taken).1] at found
      cases found
      exact Or.inl ⟨rfl, rfl⟩
    · rw [List.getElem?_set_ne same] at found
      exact Or.inr ⟨Ne.symm same, found⟩
  refine ⟨row', stored, fun other there token asked => ?_, fun j k one other first second oneAuth oneOpen otherAuth
    otherOpen => ?_, fun other there otherAuth => ?_⟩
  · rw [threads] at there
    rcases Interleaving.mem_set_cases there with rfl | old
    · exact steadied.logout thread member token (request ▸ asked)
    · exact steadied.logout other old token asked
  · have before : ∀ (j : ℕ) (other : Operation κ), t.threads[j]? = some other →
        Operation.authenticates digest key other = true → Operation.isUnfinished other = true →
          ∃ earlier : Operation κ, s.threads[j]? = some earlier ∧ Operation.authenticates digest key earlier = true ∧
            Operation.isUnfinished earlier = true := fun j other found auth going => by
      rcases cases_ j other found with ⟨rfl, rfl⟩ | ⟨-, old⟩
      · exact ⟨thread, taken, authenticates ▸ auth, unfinished⟩
      · exact ⟨other, old, auth, going⟩
    obtain ⟨one', here, oneAuth, oneOpen⟩ := before j one first oneAuth oneOpen
    obtain ⟨other', there, otherAuth, otherOpen⟩ := before k other second otherAuth otherOpen
    exact steadied.single j k one' other' here there oneAuth oneOpen otherAuth otherOpen
  · obtain ⟨j, found⟩ := List.mem_iff_getElem?.mp there
    rcases cases_ j other found with ⟨rfl, rfl⟩ | ⟨differ, old⟩
    · rw [authenticates] at otherAuth
      rw [steady, taken, Bool.and_eq_true, Option.isNone_iff_eq_none, Option.all_some] at allowed
      refine steadied.moved sane stands allowed.1 (fun next standing => ?_) taken otherAuth advanced stored.found
      simpa [standing, otherAuth] using allowed.2
    · refine (steadied.fares other (List.mem_of_getElem? old) otherAuth).other forward fun going => ?_
      rcases moved with rfl | auth
      · rfl
      · exact absurd (steadied.single j i other thread old taken otherAuth going auth unfinished) differ

theorem Steadied.begins {row : SessionRow κ} {request : Request} (steadied : Steadied digest key s row)
    (allowed : steady digest key s (.begins request) = true)
    (stands : Operation.Stands digest ((manager digest).launch s.shared request)) :
    Steadied digest key ⟨s.shared, s.threads ++ [(manager digest).launch s.shared request]⟩ row := by
  generalize new : (manager digest).launch s.shared request = thread at *
  have asked : thread.request = request := by rw [← new]; rfl
  have exchanges : thread.exchanges = [] := by rw [← new]; rfl
  have alone : Operation.authenticates digest key thread = true → ∀ other ∈ s.threads,
      Operation.authenticates digest key other = true → Operation.isUnfinished other = false := by
    intro auth other member otherAuth
    obtain ⟨token, same, rfl⟩ := authenticates_iff.mp auth
    rw [asked] at same
    subst same
    simp only [steady, ne_eq, decide_not, decide_true, Bool.not_true, Bool.false_or, Bool.not_eq_true',
      List.any_eq_false, Bool.and_eq_true, not_and, Bool.not_eq_true] at allowed
    exact allowed other member otherAuth
  have place : ∀ (j : ℕ) (other : Operation κ), (s.threads ++ [thread])[j]? = some other →
      j = s.threads.length ∧ other = thread ∨ s.threads[j]? = some other := fun j other found => by
    rw [List.getElem?_append] at found
    split at found
    · exact Or.inr found
    · next past =>
      obtain ⟨here, rfl⟩ := List.getElem?_eq_some_iff.mp found
      simp only [List.length_singleton] at here
      exact Or.inl ⟨by omega, List.mem_singleton.mp (List.getElem_mem here)⟩
  refine ⟨steadied.stored, fun other member token same => ?_, fun j k one other first second oneAuth oneOpen otherAuth
    otherOpen => ?_, fun other member auth => ?_⟩
  · rcases List.mem_append.mp member with old | launched
    · exact steadied.logout other old token same
    · rw [List.mem_singleton.mp launched, asked] at same
      rw [same] at allowed
      simpa [steady] using allowed
  · rcases place j one first with ⟨rfl, rfl⟩ | old <;> rcases place k other second with ⟨rfl, rfl⟩ | old'
    · rfl
    · rw [alone oneAuth other (List.mem_of_getElem? old') otherAuth] at otherOpen
      cases otherOpen
    · rw [alone otherAuth one (List.mem_of_getElem? old) oneAuth] at oneOpen
      cases oneOpen
    · exact steadied.single j k one other old old' oneAuth oneOpen otherAuth otherOpen
  · rcases List.mem_append.mp member with old | launched
    · exact steadied.fares other old auth
    · rw [List.mem_singleton.mp launched] at auth ⊢
      obtain ⟨token, same, rfl⟩ := authenticates_iff.mp auth
      rw [Operation.Stands, same, exchanges] at stands
      generalize left : thread.rest = rest at stands
      cases stands with
      | malformed text =>
        refine ⟨fun _ _ token' same' => ?_, fun _ _ other => ?_, fun going => ?_, fun _ now at_ => ?_⟩
        · rw [same] at same'
          cases same'
          exact text
        · rw [left] at other
          cases other
        · rw [Operation.isUnfinished, left] at going
          cases going
        · rw [Operation.authenticatedAt, exchanges] at at_
          cases at_
      | asked next =>
        refine .of_call left (fun _ other => by cases other) fun session looked => ?_
        rw [exchanges] at looked
        cases looked

/-- No request of the session has begun yet. -/
def Untouched (digest : String → κ) (key : κ) (s : Requests κ) : Prop := ∀ thread ∈ s.threads,
  Operation.authenticates digest key thread = false ∧ ∀ token, thread.request = .logout token → digest token ≠ key

/-- In a steady run from a stored session, every `Authenticate` of it succeeds within three calls. -/
theorem steady_succeeds {start : Requests κ} {early events : List (Happening Request Luck ℤ)} {token : String}
    {session : Session κ} (first : SessionRun digest start early s) (started : Started start)
    (found : s.shared.lookup (digest token) = .ok session) (text : decodesToToken token = true)
    (untouched : Untouched digest (digest token) s) (run : SteadyRun digest (digest token) s events t) :
    ∀ thread ∈ t.threads, thread.request = .authenticate token →
      (∃ principal, thread.rest = .done (.authenticated principal)) ∨
        Operation.isUnfinished thread = true ∧ thread.exchanges.length < 3 := by
  have steadied : ∃ row, Steadied digest (digest token) t row := by
    apply run.reached_invariant
    · obtain ⟨stored, user, created, -, expires⟩ := lookup_ok found
      have other : ∀ thread ∈ s.threads, Operation.authenticates digest (digest token) thread = true → False :=
        fun thread member auth => by
          rw [(untouched thread member).1] at auth
          cases auth
      exact ⟨session.toSessionRow, ⟨stored, user, created, expires⟩, fun thread member => (untouched thread member).2,
        fun i j thread _ here _ auth => (other thread (List.mem_of_getElem? here) auth).elim,
        fun thread member auth => (other thread member auth).elim⟩
    · rintro es u event v before ⟨row, steadied⟩ moved
      have early := first.append (SteadyRun.sessionRun before)
      have sane := sane_of_run early started
      have after := (sane_of_run (first.append (SteadyRun.sessionRun (before.step moved))) started).stands
      have ages := (step_ages sane.recorded sane.stands sane.knows moved.2).2.1
      obtain ⟨request, rfl, rfl⟩ | ⟨i, luck, thread, later, rfl, taken, advanced, threads⟩ |
        ⟨change, rfl, changed, threads⟩ := Interleaving.step_cases moved.2
      · exact ⟨row, steadied.begins moved.1 (after _ (by simp))⟩
      · exact steadied.moves sane (after later (threads ▸ Interleaving.mem_set taken)) moved.1 taken advanced threads ages
      · obtain ⟨same, -⟩ := world_ages changed
        have stored : Stored v.shared (digest token) row := by
          rw [same]
          exact ⟨steadied.stored.found, steadied.stored.user, steadied.stored.created, steadied.stored.expires⟩
        exact ⟨row, stored, threads ▸ steadied.logout, threads ▸ steadied.single, threads ▸ steadied.fares⟩
  obtain ⟨row, steadied⟩ := steadied
  intro thread member asked
  have sane := sane_of_run (first.append run.sessionRun) started
  have stands := sane.stands thread member
  have fares := steadied.fares thread member (authenticates_iff.mpr ⟨token, asked, rfl⟩)
  have refused : ∀ error, thread.rest ≠ .done (.refused error) := fun error same =>
    fares.refused error same token asked text
  rw [Operation.Stands, asked] at stands
  rw [Operation.isUnfinished]
  generalize thread.rest = rest at *
  generalize thread.exchanges = trace at *
  cases stands with
  | malformed | missed | deleted | untouched => exact absurd rfl (refused _)
  | asked | found | ended | due => exact Or.inr ⟨rfl, by simp⟩
  | touched session | recent session => exact Or.inl ⟨session.principal, rfl⟩

/-- Why an `Authenticate` that begins may not succeed any more. -/
inductive Lapsed (digest : String → κ) (start s : Requests κ) (token : String) : Prop
  /-- For a day the session was not created, and no `Authenticate` of it that has passed its check,
  finished or in flight, has read the clock. -/
  | idle {created : ℤ} (recorded : s.shared.created.find? (digest token) = some created)
      (old : created + sessionIdleTime ≤ s.shared.clock)
      (unused : ∀ thread ∈ s.threads, Operation.authenticates digest (digest token) thread = true →
        ∀ now, Operation.authenticatedAt thread = some now → now + sessionIdleTime ≤ s.shared.clock)
  | old {created : ℤ} (recorded : s.shared.created.find? (digest token) = some created)
      (old : created + sessionLifetime ≤ s.shared.clock)
  /-- A logout that began when the session was on record has returned. -/
  | loggedOut {u : Requests κ} {early events : List (Happening Request Luck ℤ)} {created : ℤ} {i : ℕ}
      {thread : Operation κ} (first : SessionRun digest start early u)
      (recorded : u.shared.created.find? (digest token) = some created) (run : SessionRun digest u events s)
      (later : u.threads.length ≤ i) (found : s.threads[i]? = some thread)
      (gone : Operation.hasLoggedOut digest (digest token) thread = true)

/-- What is promised about the session of a token from a state on. -/
structure Lifetime (digest : String → κ) (start s : Requests κ) (token : String) : Prop where
  forward : ∀ events t, SessionRun digest s events t → ∀ key old row, s.shared.sessions.find? key = some old →
    t.shared.sessions.find? key = some row → old.lastSeenAt ≤ row.lastSeenAt
  lapsed : Lapsed digest start s token → ∀ events t, SessionRun digest (launched digest s token) events t →
    ∀ thread : Operation κ, t.threads[s.threads.length]? = some thread → ∀ principal,
      thread.rest ≠ .done (.authenticated principal)
  steady : ∀ session, s.shared.lookup (digest token) = .ok session → decodesToToken token = true →
    Untouched digest (digest token) s → ∀ events t, SteadyRun digest (digest token) s events t →
      ∀ thread ∈ t.threads, thread.request = .authenticate token →
        (∃ principal, thread.rest = .done (.authenticated principal)) ∨
          Operation.isUnfinished thread = true ∧ thread.exchanges.length < 3

/-- In every run of logins, authentications and logouts, from every state that it reaches. -/
theorem sessions_live {start : Requests κ} {early : List (Happening Request Luck ℤ)} (token : String)
    (first : SessionRun digest start early s) (started : Started start) : Lifetime digest start s token where
  forward := fun events t run key old row before after => by
    obtain ⟨onRecord, -⟩ := (sane_of_run first started).recorded key old before
    obtain ⟨earlier, found, order⟩ := (ages_of_run first started run).rows key _ row onRecord after
    rw [before] at found
    cases found
    exact order
  lapsed := fun lapsed events t run thread found principal => by
    cases lapsed with
    | idle recorded old unused => exact idle_refused first started recorded old unused run found
    | old recorded old => exact old_refused first started recorded old run found
    | loggedOut begun recorded between later there gone =>
      have absent := loggedOut_gone begun started recorded between later there gone
      have onRecord := (ages_of_run begun started between).created _ _ recorded
      exact gone_refused first started onRecord absent run found
  steady := fun session found text untouched events t run =>
    steady_succeeds first started found text untouched run

/-- An `Authenticate` of the session that has succeeded. -/
def Operation.hasAuthenticated (digest : String → κ) (key : κ) (thread : Operation κ) : Bool :=
  match thread.request, thread.rest with
  | .authenticate token, .done (.authenticated _) => digest token = key
  | _, _ => false

/-- A step without a store failure. -/
def faultless : Happening Request Luck ℤ → Bool
  | .moves _ luck => luck.fault.isNone
  | _ => true

section Household

private def sessionToken : String := "AAAAAAAAAAAAAAAAAAAAAAAAAAAAAAAAAAAAAAAAAAA"

private def csrfToken : String := "BBBBBBBBBBBBBBBBBBBBBBBBBBBBBBBBBBBBBBBBBBB"

/-- The SHA-256 digests of the two tokens, in hexadecimal. -/
private def tokenDigest (text : String) : String :=
  if text = sessionToken then "0f007385b6f9d4b7eeb2748605afe1a984a0a3bfa3f014d09e2a784ce9e5cd1a"
  else if text = csrfToken then "412dc46cc9e3cb26f29f7c1415c556349af62904c5d15b0a2d8cfdc5cfa22b34"
  else ""

private def signedOut : Requests String where
  shared := ⟨0, Table.empty.upsert "user" ⟨"ana", "$argon2id$", 0⟩, Table.empty, Table.empty, Table.empty⟩
  threads := []

private def signingIn : List (Happening Request Luck ℤ) :=
  [.begins (.login "192.168.0.2" "ana" "correct horse battery"), .moves 0 {}, .moves 0 {},
    .moves 0 { verdict := (true, none) }, .moves 0 {}, .moves 0 { random := .ok sessionToken },
    .moves 0 { random := .ok csrfToken }, .moves 0 {}, .moves 0 {}]

/-- A request passes its check a second before the day is over, and does not touch the session yet. -/
private def slowly : List (Happening Request Luck ℤ) :=
  signingIn ++ [.world (sessionIdleTime - second), .begins (.authenticate sessionToken), .moves 1 {}, .moves 1 {},
    .world sessionIdleTime]

/-- It touches the session after the next request has begun. -/
private def touchedMeanwhile : List (Happening Request Luck ℤ) := [.moves 1 {}, .moves 2 {}, .moves 2 {}]

theorem signed_in_lives : ∃ s, SessionRun tokenDigest signedOut signingIn s ∧
    (s.shared.lookup (tokenDigest sessionToken)).isOk = true ∧ Lifetime tokenDigest signedOut s sessionToken := by
  have possible : (signingIn.foldlM (fun s event =>
      if SessionsOnly s event then (manager tokenDigest).step s event else none) signedOut).map (fun s =>
        (s.shared.lookup (tokenDigest sessionToken)).isOk) = some true := by
    decide +kernel
  obtain ⟨s, reached, found⟩ := Option.map_eq_some_iff.mp possible
  exact ⟨s, Run.of_guarded_foldlM reached, found, sessions_live sessionToken (Run.of_guarded_foldlM reached) ⟨rfl, rfl⟩⟩

/-- An `Authenticate` that begins a day after its session was created, when none has succeeded yet,
succeeds: one that is still in flight touches the session. -/
theorem touched_meanwhile : ∃ s t, SessionRun tokenDigest signedOut slowly s ∧
    SessionRun tokenDigest (launched tokenDigest s sessionToken) touchedMeanwhile t ∧
      (slowly ++ touchedMeanwhile).all faultless = true ∧
      s.shared.created.find? (tokenDigest sessionToken) = some (s.shared.clock - sessionIdleTime) ∧
      s.threads.any (Operation.hasAuthenticated tokenDigest (tokenDigest sessionToken)) = false ∧
      t.threads[s.threads.length]?.any (Operation.hasAuthenticated tokenDigest (tokenDigest sessionToken)) = true := by
  have possible : (slowly.foldlM (fun s event =>
      if SessionsOnly s event then (manager tokenDigest).step s event else none) signedOut).bind (fun s =>
        (touchedMeanwhile.foldlM (fun s event =>
          if SessionsOnly s event then (manager tokenDigest).step s event else none)
          (launched tokenDigest s sessionToken)).map fun t =>
            decide (s.shared.created.find? (tokenDigest sessionToken) = some (s.shared.clock - sessionIdleTime)) &&
              !s.threads.any (Operation.hasAuthenticated tokenDigest (tokenDigest sessionToken)) &&
              t.threads[s.threads.length]?.any (Operation.hasAuthenticated tokenDigest (tokenDigest sessionToken))) =
          some true := by
    decide +kernel
  obtain ⟨s, reached, rest⟩ := Option.bind_eq_some_iff.mp possible
  obtain ⟨t, reached', shown⟩ := Option.map_eq_some_iff.mp rest
  simp only [Bool.and_eq_true, decide_eq_true_eq, Bool.not_eq_true'] at shown
  exact ⟨s, t, Run.of_guarded_foldlM reached, Run.of_guarded_foldlM reached', by decide, shown.1.1, shown.1.2, shown.2⟩

end Household

end Helio.Auth
