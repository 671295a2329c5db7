import Helio.Calendar.TextOrder
import Helio.Soundness.Confirmations

/-! # How long a session lives

`Authenticate` looks a session up, reads the clock and refuses a session that was created thirty days
ago or last seen a day ago; else it moves `last_seen_at` on, but only in steps of five minutes. The
two conditions on a touch, one in the manager and one in the statement, keep `last_seen_at` from
going back under any interleaving. What keeps a session alive is an `Authenticate` that has passed its
check, even one that has not returned yet.
-/

namespace Helio.Auth

open Calendar

variable {κ : Type} [DecidableEq κ] {digest : String → κ}

/-- A session request: `Login`, `Authenticate` or `Logout`. -/
def SessionsOnly (_ : Requests κ) : Happening Request Luck ℤ → Prop
  | .begins (.login _ _ _) | .begins (.authenticate _) | .begins (.logout _) => True
  | .begins _ => False
  | _ => True

instance (s : Requests κ) (event : Happening Request Luck ℤ) : Decidable (SessionsOnly s event) :=
  match event with
  | .begins (.login _ _ _) | .begins (.authenticate _) | .begins (.logout _) => isTrue trivial
  | .begins (.confirmPassword _ _ _) | .begins (.recentlyConfirmed _) | .begins (.consumeRecentConfirmation _) =>
    isFalse id
  | .moves _ _ | .world _ => isTrue trivial

abbrev SessionRun (digest : String → κ) := Run (Guarded SessionsOnly (Enabled (manager digest).step))

/-- A thread that authenticates the session. -/
def Operation.authenticates (digest : String → κ) (key : κ) (thread : Operation κ) : Bool :=
  match thread.request with
  | .authenticate token => digest token = key
  | _ => false

theorem authenticates_iff {thread : Operation κ} {key : κ} : Operation.authenticates digest key thread = true ↔
    ∃ token, thread.request = .authenticate token ∧ digest token = key := by
  rw [Operation.authenticates]
  cases thread.request <;> simp

/-- The clock reading of an `Authenticate` that has passed its check, whether or not it has returned. -/
def Operation.authenticatedAt (thread : Operation κ) : Option ℤ :=
  match thread.exchanges, thread.rest with
  | [_, ⟨.now, now⟩], .call (.touchSession _ _) _ => some now
  | _ :: ⟨.now, now⟩ :: _, .done (.authenticated _) => some now
  | _, _ => none

/-- Where an `Authenticate` stands after its exchanges. -/
inductive AuthenticateAt (token : String) (key : κ) : List (Exchange (Reply (κ := κ))) → Effect κ (Outcome κ) → Prop
  | malformed (text : ¬decodesToToken token) : AuthenticateAt token key [] (.done (.refused .unauthenticated))
  | asked (next : Except StoreError (Session κ) → Effect κ (Outcome κ)) :
      AuthenticateAt token key [] (.call (.lookupSession key) next)
  | missed (failure : StoreError) (error : AuthError) :
      AuthenticateAt token key [⟨.lookupSession key, .error failure⟩] (.done (.refused error))
  | found (session : Session κ) (next : ℤ → Effect κ (Outcome κ)) :
      AuthenticateAt token key [⟨.lookupSession key, .ok session⟩] (.call .now next)
  | ended (session : Session κ) (now : ℤ) (next : Option String → Effect κ (Outcome κ)) (ended : session.isOver now) :
      AuthenticateAt token key [⟨.lookupSession key, .ok session⟩, ⟨.now, now⟩] (.call (.deleteSession key) next)
  | deleted (session : Session κ) (now : ℤ) (failed : Option String) (ended : session.isOver now) :
      AuthenticateAt token key [⟨.lookupSession key, .ok session⟩, ⟨.now, now⟩, ⟨.deleteSession key, failed⟩]
        (.done (.refused .unauthenticated))
  | due (session : Session κ) (now : ℤ) (next : Option String → Effect κ (Outcome κ)) (alive : ¬session.isOver now)
      (due : sessionTouchInterval ≤ durationSince now session.lastSeenAt) :
      AuthenticateAt token key [⟨.lookupSession key, .ok session⟩, ⟨.now, now⟩] (.call (.touchSession key now) next)
  | untouched (session : Session κ) (now : ℤ) (message : String) (error : AuthError) :
      AuthenticateAt token key [⟨.lookupSession key, .ok session⟩, ⟨.now, now⟩, ⟨.touchSession key now, some message⟩]
        (.done (.refused error))
  | touched (session : Session κ) (now : ℤ) (alive : ¬session.isOver now)
      (due : sessionTouchInterval ≤ durationSince now session.lastSeenAt) :
      AuthenticateAt token key [⟨.lookupSession key, .ok session⟩, ⟨.now, now⟩, ⟨.touchSession key now, none⟩]
        (.done (.authenticated session.principal))
  | recent (session : Session κ) (now : ℤ) (alive : ¬session.isOver now)
      (recent : ¬sessionTouchInterval ≤ durationSince now session.lastSeenAt) :
      AuthenticateAt token key [⟨.lookupSession key, .ok session⟩, ⟨.now, now⟩]
        (.done (.authenticated session.principal))

omit [DecidableEq κ] in
theorem authenticate_at {token : String} {trace : List (Exchange Reply)} {rest : Effect κ (Outcome κ)}
    (reached : (body digest (.authenticate token)).Reaches trace rest) :
    AuthenticateAt token (digest token) trace rest := by
  rw [body, authenticate] at reached
  split at reached
  case isFalse text =>
    obtain ⟨rfl, rfl⟩ := Program.reaches_done.mp reached
    exact .malformed text
  simp only [Program.call_bind, Program.done_bind] at reached
  rcases Program.reaches_call.mp reached with ⟨rfl, rfl⟩ | ⟨found, later, rfl, after⟩
  · exact .asked _
  clear reached
  rcases found with (- | message) | session
  · obtain ⟨rfl, rfl⟩ := Program.reaches_done.mp after
    exact .missed _ _
  · obtain ⟨rfl, rfl⟩ := Program.reaches_done.mp after
    exact .missed _ _
  rcases Program.reaches_call.mp after with ⟨rfl, rfl⟩ | ⟨now, trace, rfl, checked⟩
  · exact .found session _
  clear after
  by_cases ended : session.isOver now
  · simp only [ended, if_true] at checked
    rcases Program.reaches_call.mp checked with ⟨rfl, rfl⟩ | ⟨failed, rest, rfl, finished⟩
    · exact .ended session now _ ended
    · obtain ⟨rfl, rfl⟩ := Program.reaches_done.mp finished
      exact .deleted session now failed ended
  by_cases due : sessionTouchInterval ≤ durationSince now session.lastSeenAt
  · simp only [ended, due, if_true, if_false] at checked
    rcases Program.reaches_call.mp checked with ⟨rfl, rfl⟩ | ⟨touched, rest, rfl, finished⟩
    · exact .due session now _ ended due
    cases touched with
    | none =>
      obtain ⟨rfl, rfl⟩ := Program.reaches_done.mp finished
      exact .touched session now ended due
    | some message =>
      obtain ⟨rfl, rfl⟩ := Program.reaches_done.mp finished
      exact .untouched session now message _
  · simp only [ended, due, if_false] at checked
    obtain ⟨rfl, rfl⟩ := Program.reaches_done.mp checked
    exact .recent session now ended due

/-- What a logout does to the sessions: it only deletes its own. -/
def logoutCall (key : κ) : Call κ → Prop
  | .deleteSession deleted => deleted = key
  | .createSession _ _ | .lookupSession _ | .touchSession _ _ => False
  | _ => True

omit [DecidableEq κ] in
theorem login_creates (remoteAddr username password : String) :
    (body digest (.login remoteAddr username password)).Uses freshCall :=
  (login_uses remoteAddr username password).bind fun _ => trivial

omit [DecidableEq κ] in
theorem logout_deletes (token : String) : (body digest (.logout token)).Uses (logoutCall (digest token)) := by
  rw [body, logout]
  split
  · trivial
  · exact ⟨trivial, fun _ => ⟨rfl, fun failed => by cases failed <;> trivial⟩⟩

/-- Where the thread of a session request stands. -/
def Operation.Stands (digest : String → κ) (thread : Operation κ) : Prop :=
  match thread.request with
  | .login _ _ _ => thread.rest.Uses freshCall
  | .authenticate token => AuthenticateAt token (digest token) thread.exchanges thread.rest
  | .logout token => thread.rest.Uses (logoutCall (digest token))
  | _ => False

variable {s t : Requests κ} {thread later : Operation κ} {luck : Luck} {key : κ} {m after : Manager κ}

theorem stands_of_run {events : List (Happening Request Luck ℤ)} (run : SessionRun digest s events t)
    (initial : s.threads = []) : ∀ thread ∈ t.threads, Operation.Stands digest thread := by
  have reached := Interleaving.threads_reach run.unguard initial
  have kinds := Interleaving.threads_keep (fun thread : Operation κ => SessionsOnly s (.begins thread.request)) run
    initial (fun _ _ allowed => allowed) (fun s t i luck thread later _ _ advanced kind => by
      obtain ⟨c, next, answer, -, -, rfl⟩ := Interleaving.advance_cases advanced
      exact kind)
  intro thread member
  have here := reached thread member
  have kind := kinds thread member
  rw [Interleaving.Reached] at here
  cases asked : thread.request with
  | login remoteAddr username password =>
    rw [asked] at here
    rw [Operation.Stands, asked]
    exact here.always (login_creates remoteAddr username password)
  | authenticate token =>
    rw [asked] at here
    rw [Operation.Stands, asked]
    exact authenticate_at here
  | logout token =>
    rw [asked] at here
    rw [Operation.Stands, asked]
    exact here.always (logout_deletes token)
  | confirmPassword | recentlyConfirmed | consumeRecentConfirmation =>
    rw [asked] at kind
    exact kind.elim

/-- Every stored session is on record, and was last seen during its lifetime. -/
def Recorded (m : Manager κ) : Prop := ∀ key row, m.sessions.find? key = some row →
  m.created.find? key = some row.createdAt ∧ row.expiresAt = row.createdAt + sessionLifetime ∧
    row.createdAt ≤ row.lastSeenAt ∧ row.lastSeenAt < row.expiresAt

/-- What a manager may become: no session on record comes back, and none is seen at an earlier time. -/
structure Ages (m after : Manager κ) : Prop where
  clock : m.clock ≤ after.clock
  created : ∀ key created, m.created.find? key = some created → after.created.find? key = some created
  rows : ∀ key created row, m.created.find? key = some created → after.sessions.find? key = some row →
    ∃ old, m.sessions.find? key = some old ∧ old.lastSeenAt ≤ row.lastSeenAt

theorem Ages.refl (m : Manager κ) : Ages m m :=
  ⟨le_refl _, fun _ _ found => found, fun _ _ row _ found => ⟨row, found, le_refl _⟩⟩

theorem Ages.trans {middle : Manager κ} (first : Ages m middle) (second : Ages middle after) : Ages m after where
  clock := first.clock.trans second.clock
  created := fun key created found => second.created key created (first.created key created found)
  rows := fun key created row recorded found => by
    obtain ⟨old, before, earlier⟩ := second.rows key created row (first.created key created recorded) found
    obtain ⟨older, start, earliest⟩ := first.rows key created old recorded before
    exact ⟨older, start, earliest.trans earlier⟩

/-- A session that was looked up: it is on record, its times could be read, and its row has not been
seen at an earlier time since. -/
structure Known (m : Manager κ) (key : κ) (session : Session κ) : Prop where
  created : m.created.find? key = some session.createdAt
  expires : session.expiresAt = session.createdAt + sessionLifetime
  lastSeen : FourDigitYear session.lastSeenAt
  expiry : FourDigitYear session.expiresAt
  seen : ∀ row, m.sessions.find? key = some row → session.lastSeenAt ≤ row.lastSeenAt

theorem Known.ages {session : Session κ} (known : Known m key session) (ages : Ages m after) :
    Known after key session where
  created := ages.created _ _ known.created
  expires := known.expires
  lastSeen := known.lastSeen
  expiry := known.expiry
  seen := fun row found => by
    obtain ⟨old, before, earlier⟩ := ages.rows key _ row known.created found
    exact (known.seen old before).trans earlier

/-- What a thread has learnt from the clock and the store. -/
structure Knows (m : Manager κ) (thread : Operation κ) : Prop where
  begun : thread.begun ≤ m.clock
  readings : ∀ now, ⟨.now, now⟩ ∈ thread.exchanges → thread.begun ≤ now ∧ now ≤ m.clock
  sessions : ∀ key session, ⟨.lookupSession key, .ok session⟩ ∈ thread.exchanges → Known m key session

theorem Knows.ages (knows : Knows m thread) (ages : Ages m after) : Knows after thread where
  begun := knows.begun.trans ages.clock
  readings := fun now member => ⟨(knows.readings now member).1, (knows.readings now member).2.trans ages.clock⟩
  sessions := fun key session member => (knows.sessions key session member).ages ages

theorem Knows.snoc (knows : Knows m thread) {exchange : Exchange (Reply (κ := κ))} (moved : ℤ)
    (rest : Effect κ (Outcome κ))
    (reading : ∀ now, exchange = ⟨.now, now⟩ → thread.begun ≤ now ∧ now ≤ m.clock)
    (session : ∀ key session, exchange = ⟨.lookupSession key, .ok session⟩ → Known m key session) :
    Knows m (⟨thread.request, thread.begun, moved, thread.exchanges ++ [exchange], rest⟩ : Operation κ) where
  begun := knows.begun
  readings := fun now member => by
    rcases List.mem_append.mp member with old | new
    · exact knows.readings now old
    · exact reading now (List.mem_singleton.mp new).symm
  sessions := fun key found member => by
    rcases List.mem_append.mp member with old | new
    · exact knows.sessions key found old
    · exact session key found (List.mem_singleton.mp new).symm

/-- A call whose reply tells the clock or a session. -/
def tells : Call κ → Bool
  | .now | .lookupSession _ => true
  | _ => false

theorem Knows.silent (knows : Knows m thread) {c : Call κ} (silent : tells c = false) (answer : Reply c) (moved : ℤ)
    (rest : Effect κ (Outcome κ)) :
    Knows m (⟨thread.request, thread.begun, moved, thread.exchanges ++ [⟨c, answer⟩], rest⟩ : Operation κ) := by
  refine knows.snoc moved rest (fun _ same => ?_) fun _ _ same => ?_
  · cases same
    cases silent
  · cases same
    cases silent

/-- What a session that was found says about the store. -/
theorem lookup_ok {session : Session κ} (found : m.lookup key = .ok session) :
    m.sessions.find? key = some session.toSessionRow ∧ m.users.find? session.userID ≠ none ∧
      FourDigitYear session.createdAt ∧ FourDigitYear session.lastSeenAt ∧ FourDigitYear session.expiresAt := by
  have readable : ∀ {t u : ℤ}, parseTime t = .ok u → FourDigitYear t := fun {t u} parsed => by
    rw [parseTime] at parsed
    split at parsed
    · next digits => exact digits
    · cases parsed
  rw [Manager.lookup] at found
  split at found
  · cases found
  next row stored =>
  split at found
  · cases found
  next user named =>
  split at found
  · cases found
  · cases found
  · cases found
  · next created lastSeen expires parsedCreated parsedSeen parsedExpires =>
    cases found
    exact ⟨stored, by simp [named], readable parsedCreated, readable parsedSeen, readable parsedExpires⟩

theorem exec_lookup {session : Session κ} (executed : m.exec luck (.lookupSession key) = some (after, .ok session)) :
    m.lookup key = .ok session := by
  have found := congrArg Prod.snd (Option.some.inj executed)
  dsimp only at found
  split at found
  · cases found
  · exact found

theorem known_of_lookup {session : Session κ} (recorded : Recorded m) (found : m.lookup key = .ok session) :
    Known m key session := by
  obtain ⟨stored, -, -, lastSeen, expiry⟩ := lookup_ok found
  obtain ⟨created, expires, -, -⟩ := recorded key _ stored
  refine ⟨created, expires, lastSeen, expiry, fun row same => ?_⟩
  rw [stored] at same
  cases same
  exact le_refl _

theorem confirmed_ages (m : Manager κ) (confirmed : Table κ ℤ) : Ages m { m with confirmed } :=
  ⟨le_refl _, fun _ _ found => found, fun _ _ row _ found => ⟨row, found, le_refl _⟩⟩

/-- The session is deleted. -/
theorem erase_ages (recorded : Recorded m) (key : κ) :
    Recorded { m with sessions := m.sessions.erase key } ∧ Ages m { m with sessions := m.sessions.erase key } := by
  have before : ∀ other row, (m.sessions.erase key).find? other = some row → m.sessions.find? other = some row := by
    intro other row found
    rw [Table.find?_erase] at found
    split at found
    · cases found
    · exact found
  refine ⟨fun other row found => recorded other row (before other row found), le_refl _, fun _ _ found => found,
    fun other created row _ found => ⟨row, before other row found, le_refl _⟩⟩

/-- A session is created under a key that was never used. -/
theorem create_ages {row : SessionRow κ} (recorded : Recorded m) (unused : m.created.find? key = none)
    (seen : row.lastSeenAt = row.createdAt) (expires : row.expiresAt = row.createdAt + sessionLifetime) :
    Recorded { m with sessions := m.sessions.upsert key row, created := m.created.upsert key row.createdAt } ∧
      Ages m { m with sessions := m.sessions.upsert key row, created := m.created.upsert key row.createdAt } := by
  have positive : 0 < sessionLifetime := by decide
  have kept : ∀ other created, m.created.find? other = some created → other ≠ key := by
    rintro other created found rfl
    rw [unused] at found
    cases found
  refine ⟨fun other stored found => ?_, le_refl _, fun other created found => ?_, fun other created stored found after => ?_⟩
  · simp only [Table.find?_upsert] at found ⊢
    split at found
    · next same =>
      cases found
      rw [if_pos same]
      exact ⟨rfl, expires, seen.ge, by omega⟩
    · next differ =>
      rw [if_neg differ]
      exact recorded other stored found
  · rwa [Table.find?_upsert, if_neg (kept other created found)]
  · rw [Table.find?_upsert, if_neg (kept other created found)] at after
    exact ⟨stored, after, le_refl _⟩

/-- A due touch of a session that is not over moves its row forward. -/
theorem touch_ages {session : Session κ} {row : SessionRow κ} {now : ℤ} (recorded : Recorded m)
    (known : Known m key session) (found : m.sessions.find? key = some row) (alive : ¬session.isOver now)
    (due : sessionTouchInterval ≤ durationSince now session.lastSeenAt)
    (texts : ¬formatTime (now - sessionTouchInterval) < formatTime row.lastSeenAt) :
    Recorded { m with sessions := m.sessions.upsert key { row with lastSeenAt := now } } ∧
      Ages m { m with sessions := m.sessions.upsert key { row with lastSeenAt := now } } := by
  obtain ⟨created, expires, lived, unexpired⟩ := recorded key row found
  have same : row.createdAt = session.createdAt := Option.some.inj (created.symm.trans known.created)
  have seen := known.seen row found
  simp only [Session.isOver, not_or, not_not] at alive
  rw [← not_lt, durationSince_lt (by decide) (by decide), not_lt] at due
  have positive : 0 < sessionTouchInterval := by decide
  have order : row.lastSeenAt ≤ now - sessionTouchInterval := by
    have ends := known.expires
    apply le_of_formatTime
    · exact known.lastSeen.between known.expiry (by omega) (by omega)
    · exact known.lastSeen.between known.expiry seen (by omega)
    · exact texts
  have forward : row.lastSeenAt ≤ now := by omega
  have within : now < row.expiresAt := by
    have ends := known.expires
    omega
  refine ⟨fun other stored after => ?_, le_refl _, fun _ _ found => found, fun other _ stored _ after => ?_⟩
  · rw [Table.find?_upsert] at after
    split at after
    · next match_ =>
      cases after
      rw [match_]
      exact ⟨created, expires, lived.trans forward, within⟩
    · exact recorded other stored after
  · rw [Table.find?_upsert] at after
    split at after
    · next match_ =>
      cases after
      exact ⟨row, match_ ▸ found, forward⟩
    · exact ⟨stored, after, le_refl _⟩

omit [DecidableEq κ] in
theorem stands_create {row : SessionRow κ} {next : Option String → Effect κ (Outcome κ)}
    (stands : Operation.Stands digest thread) (standing : thread.rest = .call (.createSession key row) next) :
    row.lastSeenAt = row.createdAt ∧ row.expiresAt = row.createdAt + sessionLifetime := by
  rw [Operation.Stands, standing] at stands
  split at stands
  · exact stands.1
  · generalize thread.exchanges = trace at stands
    cases stands
  · exact stands.1.elim
  · exact stands.elim

omit [DecidableEq κ] in
/-- Only an `Authenticate` touches a session, and it has passed its check. -/
theorem stands_touch {seenAt : ℤ} {next : Option String → Effect κ (Outcome κ)}
    (stands : Operation.Stands digest thread) (standing : thread.rest = .call (.touchSession key seenAt) next) :
    ∃ token session, thread.request = .authenticate token ∧ digest token = key ∧
      thread.exchanges = [⟨.lookupSession key, .ok session⟩, ⟨.now, seenAt⟩] ∧ ¬session.isOver seenAt ∧
        sessionTouchInterval ≤ durationSince seenAt session.lastSeenAt := by
  rw [Operation.Stands, standing] at stands
  split at stands
  · exact stands.1.elim
  · next token asked =>
    generalize thread.exchanges = trace at stands
    cases stands with
    | due session now next alive due => exact ⟨token, session, asked, rfl, rfl, alive, due⟩
  · exact stands.1.elim
  · exact stands.elim

/-- What a call of a session request does to the manager. -/
theorem exec_ages {c : Call κ} {next : Reply c → Effect κ (Outcome κ)} {answer : Reply c} (recorded : Recorded m)
    (stands : Operation.Stands digest thread) (knows : Knows m thread) (standing : thread.rest = .call c next)
    (executed : m.exec luck c = some (after, answer)) : Recorded after ∧ Ages m after := by
  cases exec_sessions executed with
  | kept confirmed same =>
    subst same
    exact ⟨recorded, confirmed_ages m confirmed⟩
  | created key row fault unused same =>
    subst same
    obtain ⟨seen, expires⟩ := stands_create stands standing
    exact create_ages recorded unused seen expires
  | touched key seenAt row found texts same =>
    subst same
    obtain ⟨token, session, -, rfl, exchanged, alive, due⟩ := stands_touch stands standing
    have known := knows.sessions (digest token) session (by simp [exchanged])
    exact touch_ages recorded known found alive due texts
  | deleted key same =>
    subst same
    exact erase_ages recorded key

/-- What a step of a session request does to the manager, and what its thread learns. -/
theorem advance_ages (recorded : Recorded s.shared) (stands : Operation.Stands digest thread)
    (knows : Knows s.shared thread)
    (advanced : (manager digest).advance s.shared thread luck = some (t.shared, later)) :
    Recorded t.shared ∧ Ages s.shared t.shared ∧ Knows t.shared later := by
  obtain ⟨c, next, answer, standing, executed, rfl⟩ := Interleaving.advance_cases advanced
  generalize t.shared = after at *
  obtain ⟨still, ages⟩ := exec_ages recorded stands knows standing executed
  replace knows := knows.ages ages
  refine ⟨still, ages, ?_⟩
  cases c
  case now =>
    refine knows.snoc _ _ (fun now read => ?_) fun _ _ other => (by cases other)
    cases executed
    cases read
    exact ⟨knows.begun, le_refl _⟩
  case lookupSession key =>
    refine knows.snoc _ _ (fun _ other => (by cases other)) fun other session read => ?_
    cases read
    obtain ⟨rfl, -⟩ := Prod.mk.inj (Option.some.inj executed)
    exact known_of_lookup recorded (exec_lookup executed)
  all_goals exact knows.silent rfl _ _ _

theorem launch_knows (request : Request) : Knows s.shared ((manager digest).launch s.shared request) :=
  ⟨le_refl _, fun _ member => absurd member List.not_mem_nil, fun _ _ member => absurd member List.not_mem_nil⟩

theorem world_ages {clock : ℤ} (changed : (manager digest).world m clock = some after) :
    after = { m with clock } ∧ m.clock ≤ clock := by
  obtain ⟨later, same⟩ := Option.ite_none_right_eq_some.mp changed
  exact ⟨(Option.some.inj same).symm, later⟩

/-- A step of a session run: what the manager becomes, and what its threads know. -/
theorem step_ages {event : Happening Request Luck ℤ} (recorded : Recorded s.shared)
    (stands : ∀ thread ∈ s.threads, Operation.Stands digest thread) (knows : ∀ thread ∈ s.threads, Knows s.shared thread)
    (stepped : (manager digest).step s event = some t) :
    Recorded t.shared ∧ Ages s.shared t.shared ∧ ∀ thread ∈ t.threads, Knows t.shared thread := by
  obtain ⟨request, rfl, rfl⟩ | ⟨i, luck, thread, later, rfl, found, advanced, threads⟩ |
    ⟨change, rfl, changed, threads⟩ := Interleaving.step_cases stepped
  · refine ⟨recorded, Ages.refl _, fun thread member => ?_⟩
    rcases List.mem_append.mp member with old | launched
    · exact knows thread old
    · rw [List.mem_singleton.mp launched]
      exact launch_knows request
  · have member := List.mem_of_getElem? found
    obtain ⟨recorded', ages, learnt⟩ := advance_ages recorded (stands thread member) (knows thread member) advanced
    refine ⟨recorded', ages, fun other after => ?_⟩
    rw [threads] at after
    rcases Interleaving.mem_set_cases after with rfl | old
    · exact learnt
    · exact (knows other old).ages ages
  · obtain ⟨after, forward⟩ := world_ages changed
    have ages : Ages s.shared t.shared := by
      rw [after]
      exact ⟨forward, fun _ _ found => found, fun _ _ row _ found => ⟨row, found, le_refl _⟩⟩
    refine ⟨by rw [after]; exact recorded, ages, fun thread member => ?_⟩
    rw [threads] at member
    exact (knows thread member).ages ages

/-- What holds of every state of a session run. -/
structure Sane (digest : String → κ) (s : Requests κ) : Prop where
  recorded : Recorded s.shared
  stands : ∀ thread ∈ s.threads, Operation.Stands digest thread
  knows : ∀ thread ∈ s.threads, Knows s.shared thread

/-- A manager without sessions. -/
structure Started (s : Requests κ) : Prop where
  threads : s.threads = []
  sessions : s.shared.sessions = Table.empty

theorem sane_of_run {events : List (Happening Request Luck ℤ)} (run : SessionRun digest s events t)
    (started : Started s) : Sane digest t := by
  have kept : Recorded t.shared ∧ ∀ thread ∈ t.threads, Knows t.shared thread := by
    apply run.reached_invariant
    · refine ⟨fun key row found => ?_, by simp [started.threads]⟩
      rw [started.sessions] at found
      cases found
    · intro es t event u before known moved
      have stands := stands_of_run before started.threads
      obtain ⟨recorded, -, knows⟩ := step_ages known.1 stands known.2 moved.2
      exact ⟨recorded, knows⟩
  exact ⟨kept.1, stands_of_run run started.threads, kept.2⟩

theorem ages_of_run {start : Requests κ} {early events : List (Happening Request Luck ℤ)}
    (first : SessionRun digest start early s) (started : Started start) (run : SessionRun digest s events t) :
    Ages s.shared t.shared := by
  apply run.reached_invariant (Ages.refl _)
  intro es u event v before ages moved
  have sane := sane_of_run (first.append before) started
  exact ages.trans (step_ages sane.recorded sane.stands sane.knows moved.2).2.1

/-- An `Authenticate` that has passed its check, by the session it found and its clock reading. -/
theorem stands_authenticated {now : ℤ} (stands : Operation.Stands digest thread)
    (authenticates : Operation.authenticates digest key thread = true)
    (at_ : Operation.authenticatedAt thread = some now) :
    ∃ session, ⟨.lookupSession key, .ok session⟩ ∈ thread.exchanges ∧ ⟨.now, now⟩ ∈ thread.exchanges ∧
      ¬session.isOver now := by
  obtain ⟨token, asked, rfl⟩ := authenticates_iff.mp authenticates
  rw [Operation.Stands, asked] at stands
  rw [Operation.authenticatedAt] at at_
  generalize thread.exchanges = trace at *
  generalize thread.rest = rest at *
  cases stands with
  | malformed | asked | missed | found | ended | deleted | untouched => cases at_
  | due session seen next alive =>
    cases at_
    exact ⟨session, by simp, by simp, alive⟩
  | touched session seen alive =>
    cases at_
    exact ⟨session, by simp, by simp, alive⟩
  | recent session seen alive =>
    cases at_
    exact ⟨session, by simp, by simp, alive⟩

omit [DecidableEq κ] in
/-- A successful `Authenticate` has passed its check. -/
theorem authenticatedAt_of_success {token : String} {principal : Principal κ} (stands : Operation.Stands digest thread)
    (asked : thread.request = .authenticate token) (success : thread.rest = .done (.authenticated principal)) :
    ∃ now, Operation.authenticatedAt thread = some now := by
  rw [Operation.Stands, asked] at stands
  rw [Operation.authenticatedAt]
  rw [success] at stands ⊢
  generalize thread.exchanges = trace at *
  cases stands with
  | touched session now => exact ⟨now, rfl⟩
  | recent session now => exact ⟨now, rfl⟩

/-- An `Authenticate` begins. -/
def launched (digest : String → κ) (s : Requests κ) (token : String) : Requests κ :=
  ⟨s.shared, s.threads ++ [(manager digest).launch s.shared (.authenticate token)]⟩

/-- How a row may come about: it was there, a touch has moved it, or it was created. -/
theorem advance_row {row : SessionRow κ} (stands : Operation.Stands digest thread)
    (advanced : (manager digest).advance s.shared thread luck = some (t.shared, later))
    (found : t.shared.sessions.find? key = some row) :
    s.shared.sessions.find? key = some row ∨
      (∃ next, thread.rest = .call (.touchSession key row.lastSeenAt) next ∧
        later.exchanges = thread.exchanges ++ [⟨.touchSession key row.lastSeenAt, none⟩]) ∨
      s.shared.created.find? key = none ∧ row.lastSeenAt = row.createdAt := by
  obtain ⟨c, next, answer, standing, executed, rfl⟩ := Interleaving.advance_cases advanced
  generalize t.shared = after at *
  cases exec_sessions executed with
  | kept confirmed same =>
    subst same
    exact Or.inl found
  | created other fresh fault unused same =>
    subst same
    simp only [Table.find?_upsert] at found
    split at found
    · next same =>
      cases found
      exact Or.inr (Or.inr ⟨same ▸ unused, (stands_create stands standing).1⟩)
    · exact Or.inl found
  | touched other seenAt old here due same =>
    subst same
    simp only [Table.find?_upsert] at found
    split at found
    · next same =>
      cases found
      subst same
      exact Or.inr (Or.inl ⟨next, standing, rfl⟩)
    · exact Or.inl found
  | deleted other same =>
    subst same
    simp only [Table.find?_erase] at found
    split at found
    · cases found
    · exact Or.inl found

/-- An `Authenticate` before its touch has passed its check. -/
theorem authenticatedAt_of_touch {seenAt : ℤ} {next : Option String → Effect κ (Outcome κ)}
    (stands : Operation.Stands digest thread) (standing : thread.rest = .call (.touchSession key seenAt) next) :
    Operation.authenticates digest key thread = true ∧ Operation.authenticatedAt thread = some seenAt := by
  obtain ⟨token, session, asked, same, exchanged, -⟩ := stands_touch stands standing
  refine ⟨authenticates_iff.mpr ⟨token, asked, same⟩, ?_⟩
  rw [Operation.authenticatedAt, exchanged, standing]

/-- An `Authenticate` after its touch has returned. -/
theorem authenticatedAt_of_touched {seenAt : ℤ} {next : Option String → Effect κ (Outcome κ)}
    (stands : Operation.Stands digest thread) (standing : thread.rest = .call (.touchSession key seenAt) next)
    (after : Operation.Stands digest later) (request : later.request = thread.request)
    (exchanges : later.exchanges = thread.exchanges ++ [⟨.touchSession key seenAt, none⟩]) :
    Operation.authenticates digest key later = true ∧ Operation.authenticatedAt later = some seenAt ∧
      ∃ outcome, later.rest = .done outcome := by
  obtain ⟨token, session, asked, rfl, exchanged, -⟩ := stands_touch stands standing
  rw [asked] at request
  rw [exchanged] at exchanges
  refine ⟨authenticates_iff.mpr ⟨token, request, rfl⟩, ?_⟩
  rw [Operation.Stands, request, exchanges] at after
  rw [Operation.authenticatedAt, exchanges]
  generalize later.rest = rest at *
  cases after
  exact ⟨rfl, _, rfl⟩

/-- A thread that has passed its check passed it before, or has just read the clock. -/
theorem authenticatedAt_advance {now : ℤ} (stands : Operation.Stands digest later)
    (authenticates : Operation.authenticates digest key later = true)
    (at_ : Operation.authenticatedAt later = some now)
    (advanced : (manager digest).advance s.shared thread luck = some (t.shared, later)) :
    Operation.authenticatedAt thread = some now ∨ now = s.shared.clock := by
  obtain ⟨c, next, answer, standing, executed, same⟩ := Interleaving.advance_cases advanced
  have split : later.exchanges = thread.exchanges ++ [⟨c, answer⟩] := by rw [same]
  have readNow : ∀ first : Exchange Reply, later.exchanges = [first, ⟨.now, now⟩] → now = s.shared.clock :=
    fun first pair => by
      rw [split] at pair
      change thread.exchanges ++ [_] = [first] ++ [_] at pair
      obtain ⟨-, read⟩ := List.append_singleton_inj.mp pair
      cases read
      exact congrArg Prod.snd (Option.some.inj executed).symm
  obtain ⟨token, asked, rfl⟩ := authenticates_iff.mp authenticates
  rw [Operation.Stands, asked] at stands
  rw [Operation.authenticatedAt] at at_
  generalize later.exchanges = trace at *
  generalize later.rest = rest at *
  cases stands with
  | malformed | asked | missed | found | ended | deleted | untouched => cases at_
  | due session seen next alive =>
    cases at_
    exact Or.inr (readNow _ rfl)
  | recent session seen alive =>
    cases at_
    exact Or.inr (readNow _ rfl)
  | touched session seen alive =>
    cases at_
    change [_, _] ++ [_] = thread.exchanges ++ [_] at split
    obtain ⟨before, touch⟩ := List.append_singleton_inj.mp split
    cases touch
    left
    rw [Operation.authenticatedAt, ← before, standing]

/-- A row was last seen at its creation, or when an `Authenticate` that has returned read the clock. -/
def Traced (digest : String → κ) (s : Requests κ) : Prop := ∀ key row, s.shared.sessions.find? key = some row →
  row.lastSeenAt = row.createdAt ∨ ∃ thread ∈ s.threads, Operation.authenticates digest key thread = true ∧
    Operation.authenticatedAt thread = some row.lastSeenAt ∧ ∃ outcome, thread.rest = .done outcome

theorem Traced.next {event : Happening Request Luck ℤ} (traced : Traced digest s)
    (stands : ∀ thread ∈ s.threads, Operation.Stands digest thread)
    (after : ∀ thread ∈ t.threads, Operation.Stands digest thread)
    (stepped : (manager digest).step s event = some t) : Traced digest t := by
  intro key row found
  have carried : s.shared.sessions.find? key = some row → row.lastSeenAt = row.createdAt ∨ ∃ thread ∈ t.threads,
      Operation.authenticates digest key thread = true ∧ Operation.authenticatedAt thread = some row.lastSeenAt ∧
        ∃ outcome, thread.rest = .done outcome := fun before => by
    rcases traced key row before with new | ⟨thread, member, authenticates, at_, outcome, finished⟩
    · exact Or.inl new
    · exact Or.inr ⟨thread, Interleaving.finished_stay stepped member finished, authenticates, at_, outcome, finished⟩
  obtain ⟨request, rfl, rfl⟩ | ⟨i, luck, thread, later, rfl, taken, advanced, threads⟩ |
    ⟨change, rfl, changed, threads⟩ := Interleaving.step_cases stepped
  · exact carried found
  · have member : later ∈ t.threads := by
      rw [threads]
      exact Interleaving.mem_set taken
    have standing := stands thread (List.mem_of_getElem? taken)
    rcases advance_row standing advanced found with before | ⟨next, rest, exchanges⟩ | ⟨-, new⟩
    · exact carried before
    · obtain ⟨c, next', answer, -, -, same⟩ := Interleaving.advance_cases advanced
      exact Or.inr ⟨later, member,
        authenticatedAt_of_touched standing rest (after later member) (by rw [same]) exchanges⟩
    · exact Or.inl new
  · rw [(world_ages changed).1] at found
    exact carried found

theorem traced_of_run {events : List (Happening Request Luck ℤ)} (run : SessionRun digest s events t)
    (started : Started s) : Traced digest t := by
  apply run.reached_invariant
  · intro key row found
    rw [started.sessions] at found
    cases found
  · intro es u event v before traced moved
    exact traced.next (sane_of_run before started).stands (sane_of_run (before.step moved) started).stands moved.2

section Begun

variable {start : Requests κ} {early events : List (Happening Request Luck ℤ)} {token : String}

theorem launched_run (first : SessionRun digest start early s) (token : String) :
    SessionRun digest start (early ++ [.begins (.authenticate token)]) (launched digest s token) :=
  first.step ⟨trivial, rfl⟩

theorem launched_here : (launched digest s token).threads[s.threads.length]? =
    some ((manager digest).launch s.shared (.authenticate token)) := by
  simp [launched]

theorem launched_thread (run : SessionRun digest (launched digest s token) events t)
    (found : t.threads[s.threads.length]? = some thread) :
    thread.request = .authenticate token ∧ thread.begun = s.shared.clock := by
  obtain ⟨later, stays, request, begun⟩ := Interleaving.thread_stays run.unguard launched_here
  rw [found] at stays
  cases stays
  exact ⟨request, begun⟩

/-- A session that was created thirty days ago is over. -/
theorem old_refused {created : ℤ} {principal : Principal κ} (first : SessionRun digest start early s)
    (started : Started start) (recorded : s.shared.created.find? (digest token) = some created)
    (old : created + sessionLifetime ≤ s.shared.clock)
    (run : SessionRun digest (launched digest s token) events t)
    (found : t.threads[s.threads.length]? = some thread) : thread.rest ≠ .done (.authenticated principal) := by
  intro success
  obtain ⟨asked, begun⟩ := launched_thread run found
  have whole := (launched_run first token).append run
  have sane := sane_of_run whole started
  have member := List.mem_of_getElem? found
  have stands := sane.stands thread member
  obtain ⟨now, at_⟩ := authenticatedAt_of_success stands asked success
  obtain ⟨session, looked, read, alive⟩ := stands_authenticated stands (authenticates_iff.mpr ⟨token, asked, rfl⟩) at_
  have knows := sane.knows thread member
  have known := knows.sessions _ session looked
  have ages := ages_of_run (launched_run first token) started run
  have same : created = session.createdAt := by
    have kept := ages.created _ created recorded
    rw [known.created] at kept
    exact (Option.some.inj kept).symm
  have reading := knows.readings now read
  simp only [Session.isOver, not_or, not_not] at alive
  omega

/-- A session on record that is gone stays gone. -/
theorem Ages.gone {created : ℤ} (ages : Ages m after) (recorded : m.created.find? key = some created)
    (gone : m.sessions.find? key = none) : after.sessions.find? key = none := by
  rw [Option.eq_none_iff_forall_ne_some]
  intro row found
  obtain ⟨old, before, -⟩ := ages.rows key created row recorded found
  rw [gone] at before
  cases before

/-- The step in which a logout returns deletes the session. -/
theorem logout_erases (stands : thread.rest.Always (confirmationCall digest thread.request))
    (advanced : (manager digest).advance s.shared thread luck = some (t.shared, later))
    (gone : Operation.hasLoggedOut digest key later = true) : t.shared.sessions.find? key = none := by
  obtain ⟨request, -, -, effects⟩ := advance_effects stands advanced
  obtain ⟨token, logged, finished, named, rfl⟩ := hasLoggedOut_iff.mp gone
  cases effects with
  | quiet rest => rw [(@quiet_counts _ _ digest later (by rwa [request]) (digest token)).2.2] at gone; cases gone
  | stored token' _ _ asked => rw [request, asked] at logged; cases logged
  | consumed token' asked => rw [request, asked] at logged; cases logged
  | loggedOut token' asked next standing fault =>
    rw [request, asked] at logged
    cases logged
    obtain ⟨c, next', answer, standing', executed, -⟩ := Interleaving.advance_cases advanced
    rw [standing] at standing'
    cases standing'
    generalize t.shared = after at *
    rcases write_cases (Option.some.inj executed) with ⟨message, failed, -⟩ | ⟨-, rfl, -⟩
    · rw [fault] at failed
      cases failed
    · simp

/-- After a logout that began when the session was on record, the session is gone. -/
theorem loggedOut_gone {created : ℤ} {i : ℕ} (first : SessionRun digest start early s) (started : Started start)
    (recorded : s.shared.created.find? key = some created) (run : SessionRun digest s events t)
    (later_ : s.threads.length ≤ i) (found : t.threads[i]? = some thread)
    (gone : Operation.hasLoggedOut digest key thread = true) : t.shared.sessions.find? key = none := by
  have kept : ∀ i thread, s.threads.length ≤ i → t.threads[i]? = some thread →
      Operation.hasLoggedOut digest key thread = true → t.shared.sessions.find? key = none := by
    apply run.reached_invariant
    · intro i thread past found
      rw [List.getElem?_eq_none past] at found
      cases found
    · intro es u event v before kept moved i thread past found gone
      have whole := first.append before
      have sane := sane_of_run whole started
      have always := Interleaving.threads_always (fun request => (@body_spec _ digest request).2) whole.unguard
        started.threads
      have ages := (step_ages sane.recorded sane.stands sane.knows moved.2).2.1
      have onRecord := (ages_of_run first started before).created key created recorded
      obtain ⟨request, rfl, rfl⟩ | ⟨j, luck, mover, later, rfl, taken, advanced, threads⟩ |
        ⟨change, rfl, changed, threads⟩ := Interleaving.step_cases moved.2
      · rw [List.getElem?_append] at found
        split at found
        · exact kept i thread past found gone
        · have new := List.mem_singleton.mp (List.mem_of_getElem? found)
          rw [new, (@quiet_counts _ _ digest _ (body_spec request).1 key).2.2] at gone
          cases gone
      · rw [threads] at found
        by_cases same : j = i
        · subst same
          rw [List.getElem?_set_self (List.getElem?_eq_some_iff.mp taken).1] at found
          cases found
          exact logout_erases (always mover (List.mem_of_getElem? taken)) advanced gone
        · rw [List.getElem?_set_ne same] at found
          exact ages.gone onRecord (kept i thread past found gone)
      · rw [threads] at found
        exact ages.gone onRecord (kept i thread past found gone)
  exact kept i thread later_ found gone

/-- An `Authenticate` that begins when the session is gone never finds it. -/
theorem gone_refused {created : ℤ} {principal : Principal κ} (first : SessionRun digest start early s)
    (started : Started start) (recorded : s.shared.created.find? (digest token) = some created)
    (gone : s.shared.sessions.find? (digest token) = none)
    (run : SessionRun digest (launched digest s token) events t)
    (found : t.threads[s.threads.length]? = some thread) : thread.rest ≠ .done (.authenticated principal) := by
  intro success
  have begins := launched_run first token
  have missed : ∀ thread, t.threads[s.threads.length]? = some thread → ∀ session,
      ⟨.lookupSession (digest token), .ok session⟩ ∉ thread.exchanges := by
    apply run.reached_invariant
    · intro thread here session member
      rw [launched_here] at here
      cases here
      cases member
    · intro es u event v before missed moved thread here session member
      have absent := (ages_of_run begins started before).gone recorded gone
      obtain ⟨request, rfl, rfl⟩ | ⟨j, luck, mover, later, rfl, taken, advanced, threads⟩ |
        ⟨change, rfl, changed, threads⟩ := Interleaving.step_cases moved.2
      · obtain ⟨stays, kept, -⟩ := Interleaving.thread_stays before.unguard (@launched_here _ _ digest s token)
        rw [List.getElem?_append_left (List.getElem?_eq_some_iff.mp kept).1] at here
        exact missed thread here session member
      · rw [threads] at here
        by_cases same : j = s.threads.length
        · subst same
          rw [List.getElem?_set_self (List.getElem?_eq_some_iff.mp taken).1] at here
          cases here
          obtain ⟨c, next, answer, -, executed, rfl⟩ := Interleaving.advance_cases advanced
          rcases List.mem_append.mp member with old | new
          · exact missed mover taken session old
          · cases List.mem_singleton.mp new
            rw [(lookup_ok (exec_lookup executed)).1] at absent
            cases absent
        · rw [List.getElem?_set_ne same] at here
          exact missed thread here session member
      · rw [threads] at here
        exact missed thread here session member
  obtain ⟨asked, -⟩ := launched_thread run found
  have stands := (sane_of_run (begins.append run) started).stands thread (List.mem_of_getElem? found)
  obtain ⟨now, at_⟩ := authenticatedAt_of_success stands asked success
  obtain ⟨session, looked, -, -⟩ := stands_authenticated stands (authenticates_iff.mpr ⟨token, asked, rfl⟩) at_
  exact missed thread found session looked

/-- The session was last seen, looked up and authenticated a day before a time. -/
structure Idle (digest : String → κ) (key : κ) (time : ℤ) (s : Requests κ) : Prop where
  row : ∀ row, s.shared.sessions.find? key = some row → row.lastSeenAt + sessionIdleTime ≤ time
  looked : ∀ thread ∈ s.threads, ∀ session, ⟨.lookupSession key, .ok session⟩ ∈ thread.exchanges →
    session.lastSeenAt + sessionIdleTime ≤ time
  passed : ∀ thread ∈ s.threads, Operation.authenticates digest key thread = true →
    ∀ now, Operation.authenticatedAt thread = some now → now + sessionIdleTime ≤ time

theorem Idle.begins {time : ℤ} (idle : Idle digest key time s) (request : Request) :
    Idle digest key time ⟨s.shared, s.threads ++ [(manager digest).launch s.shared request]⟩ := by
  refine ⟨idle.row, fun thread member session looked => ?_, fun thread member authenticates now at_ => ?_⟩
  · rcases List.mem_append.mp member with old | new
    · exact idle.looked thread old session looked
    · rw [List.mem_singleton.mp new] at looked
      cases looked
  · rcases List.mem_append.mp member with old | new
    · exact idle.passed thread old authenticates now at_
    · rw [List.mem_singleton.mp new] at at_
      cases at_

theorem Idle.moves {time : ℤ} {i : ℕ} (idle : Idle digest key time s) (past : time ≤ s.shared.clock)
    (recorded : s.shared.created.find? key ≠ none) (stands : ∀ thread ∈ s.threads, Operation.Stands digest thread)
    (after : Operation.Stands digest later) (taken : s.threads[i]? = some thread)
    (advanced : (manager digest).advance s.shared thread luck = some (t.shared, later))
    (threads : t.threads = s.threads.set i later) : Idle digest key time t := by
  have here := List.mem_of_getElem? taken
  have looked : ∀ other ∈ t.threads, ∀ session, ⟨.lookupSession key, .ok session⟩ ∈ other.exchanges →
      session.lastSeenAt + sessionIdleTime ≤ time := by
    intro other member session looked
    rw [threads] at member
    rcases Interleaving.mem_set_cases member with rfl | old
    · obtain ⟨c, next, answer, -, executed, rfl⟩ := Interleaving.advance_cases advanced
      rcases List.mem_append.mp looked with before | new
      · exact idle.looked thread here session before
      · cases List.mem_singleton.mp new
        exact idle.row _ (lookup_ok (exec_lookup executed)).1
    · exact idle.looked other old session looked
  refine ⟨fun row found => ?_, looked, fun other member authenticates now at_ => ?_⟩
  · rcases advance_row (stands thread here) advanced found with before | ⟨next, rest, -⟩ | ⟨unused, -⟩
    · exact idle.row row before
    · obtain ⟨authenticates, at_⟩ := authenticatedAt_of_touch (stands thread here) rest
      exact idle.passed thread here authenticates _ at_
    · exact absurd unused recorded
  · rw [threads] at member
    rcases Interleaving.mem_set_cases member with rfl | old
    · rcases authenticatedAt_advance after authenticates at_ advanced with before | rfl
      · obtain ⟨c, next, answer, -, -, rfl⟩ := Interleaving.advance_cases advanced
        exact idle.passed thread here authenticates now before
      · -- A clock reading from here on finds every session that was looked up over.
        obtain ⟨session, found, -, alive⟩ := stands_authenticated after authenticates at_
        have seen := looked other (threads ▸ Interleaving.mem_set taken) session found
        simp only [Session.isOver, not_or, not_not, not_le] at alive
        rw [durationSince_lt (by decide) (by decide)] at alive
        omega
    · exact idle.passed other old authenticates now at_

/-- A session that has not been used for a day is over: it was created a day ago, and no
`Authenticate` of it that has passed its check read the clock since. -/
theorem idle_refused {created : ℤ} {principal : Principal κ} (first : SessionRun digest start early s)
    (started : Started start) (recorded : s.shared.created.find? (digest token) = some created)
    (old : created + sessionIdleTime ≤ s.shared.clock)
    (unused : ∀ thread ∈ s.threads, Operation.authenticates digest (digest token) thread = true →
      ∀ now, Operation.authenticatedAt thread = some now → now + sessionIdleTime ≤ s.shared.clock)
    (run : SessionRun digest (launched digest s token) events t)
    (found : t.threads[s.threads.length]? = some thread) : thread.rest ≠ .done (.authenticated principal) := by
  cases stored : s.shared.sessions.find? (digest token) with
  | none => exact gone_refused first started recorded stored run found
  | some row =>
    have begins := launched_run first token
    have sane := sane_of_run first started
    have seen : row.lastSeenAt + sessionIdleTime ≤ s.shared.clock := by
      rcases traced_of_run first started _ row stored with new | ⟨thread, member, authenticates, at_, -⟩
      · obtain ⟨same, -⟩ := sane.recorded _ row stored
        rw [recorded] at same
        cases same
        rwa [new]
      · exact unused thread member authenticates _ at_
    have before : Idle digest (digest token) s.shared.clock s := by
      refine ⟨fun other same => ?_, fun thread member session looked => ?_, unused⟩
      · rw [stored] at same
        cases same
        exact seen
      · have earlier := ((sane.knows thread member).sessions _ session looked).seen row stored
        omega
    have idle : Idle digest (digest token) s.shared.clock t := by
      apply run.reached_invariant
      · exact before.begins (.authenticate token)
      · intro es u event v early idle moved
        have whole := begins.append early
        have ages := ages_of_run begins started early
        have onRecord := ages.created _ created recorded
        obtain ⟨request, rfl, rfl⟩ | ⟨i, luck, thread, later, rfl, taken, advanced, threads⟩ |
          ⟨change, rfl, changed, threads⟩ := Interleaving.step_cases moved.2
        · exact idle.begins request
        · refine idle.moves ages.clock (by simp [onRecord]) (sane_of_run whole started).stands ?_ taken advanced threads
          refine (sane_of_run (whole.step moved) started).stands later ?_
          rw [threads]
          exact Interleaving.mem_set taken
        · refine ⟨fun row found => ?_, by rw [threads]; exact idle.looked, by rw [threads]; exact idle.passed⟩
          rw [(world_ages changed).1] at found
          exact idle.row row found
    intro success
    obtain ⟨asked, begun⟩ := launched_thread run found
    have after := sane_of_run (begins.append run) started
    have member := List.mem_of_getElem? found
    obtain ⟨now, at_⟩ := authenticatedAt_of_success (after.stands thread member) asked success
    have authenticates : Operation.authenticates digest (digest token) thread = true :=
      authenticates_iff.mpr ⟨token, asked, rfl⟩
    obtain ⟨session, -, read, -⟩ := stands_authenticated (after.stands thread member) authenticates at_
    have reading := (after.knows thread member).readings now read
    have passed := idle.passed thread member authenticates now at_
    have positive : 0 < sessionIdleTime := by decide
    omega

end Begun

end Helio.Auth
