import Helio.Calendar.Time
import Helio.Machine.Interleaving
import Helio.Machine.Numbers
import Helio.Model.Limiter

/-! # Sessions and password confirmations

A session is a row under the digest of its token; a confirmation is an expiry under the same digest,
in memory. The operations of the manager are programs: every statement of the store, every reading
of the clock and every section under the confirmation lock is one call. What the limiter, the
password verifier and the random source answer is given, except that no random token is issued
twice. The record of created sessions is never read.
-/

namespace Helio.Auth

open Calendar

def sessionLifetime : ℤ := 30 * 24 * (3600 * second)

def sessionIdleTime : ℤ := 24 * (3600 * second)

def sessionTouchInterval : ℤ := 5 * (60 * second)

def confirmationLifetime : ℤ := 5 * (60 * second)

structure User where
  username : String
  passwordHash : String
  createdAt : ℤ

structure SessionRow (κ : Type) where
  userID : String
  csrfHash : κ
  createdAt : ℤ
  lastSeenAt : ℤ
  expiresAt : ℤ

/-- A session with the columns of its user. -/
structure Session (κ : Type) extends SessionRow κ where
  username : String
  passwordHash : String

structure Principal (κ : Type) where
  userID : String
  username : String
  csrfHash : κ
  expiresAt : ℤ

structure Credentials where
  token : String
  csrf : String
  userID : String
  username : String
  expiresAt : ℤ

inductive StoreError where
  | notFound
  | failed (message : String)

def StoreError.message : StoreError → String
  | notFound => "not found"
  | failed message => message

inductive PasswordError where
  | length | encoding
  | failed (message : String)

inductive AuthError where
  | unauthenticated | invalidCredentials
  | rateLimited (retryAfter : ℤ)
  | failed (message : String)

def AuthError.message : AuthError → String
  | unauthenticated => "unauthenticated"
  | invalidCredentials => "invalid credentials"
  | rateLimited _ => "login rate limited"
  | failed message => message

inductive Call (κ : Type) where
  | now | randomToken
  | findUser (username : String)
  | createSession (key : κ) (row : SessionRow κ)
  | lookupSession (key : κ)
  | touchSession (key : κ) (seenAt : ℤ)
  | deleteSession (key : κ)
  | admitAttempt (remoteAddr username : String)
  | complete (result : AdmissionResult)
  | verifyPassword (hash password : String)
  | clearConfirmed (key : κ)
  | setConfirmed (key : κ)
  | recentlyConfirmed (key : κ)
  | consumeConfirmed (key : κ)

/-- A write to the store gives its error; an admission gives the delay of a refusal. -/
@[reducible] def Reply {κ : Type} : Call κ → Type
  | .now => ℤ
  | .randomToken => Except String String
  | .findUser _ => Except StoreError (String × User)
  | .lookupSession _ => Except StoreError (Session κ)
  | .createSession _ _ | .touchSession _ _ | .deleteSession _ => Option String
  | .admitAttempt _ _ => Option ℤ
  | .verifyPassword _ _ => Bool × Option PasswordError
  | .complete _ | .clearConfirmed _ | .setConfirmed _ => Unit
  | .recentlyConfirmed _ | .consumeConfirmed _ => Bool

abbrev Effect (κ : Type) := Program (Call κ) Reply

variable {κ : Type}

abbrev readClock : Effect κ ℤ := .call .now .done

abbrev randomToken : Effect κ (Except String String) := .call .randomToken .done

abbrev findUser (username : String) : Effect κ (Except StoreError (String × User)) := .call (.findUser username) .done

abbrev createSession (key : κ) (row : SessionRow κ) : Effect κ (Option String) :=
  .call (.createSession key row) .done

abbrev lookupSession (key : κ) : Effect κ (Except StoreError (Session κ)) := .call (.lookupSession key) .done

abbrev touchSession (key : κ) (seenAt : ℤ) : Effect κ (Option String) := .call (.touchSession key seenAt) .done

abbrev deleteSession (key : κ) : Effect κ (Option String) := .call (.deleteSession key) .done

abbrev admitAttempt (remoteAddr username : String) : Effect κ (Option ℤ) := .call (.admitAttempt remoteAddr username) .done

abbrev complete (result : AdmissionResult) : Effect κ Unit := .call (.complete result) .done

abbrev verifyPassword (hash password : String) : Effect κ (Bool × Option PasswordError) :=
  .call (.verifyPassword hash password) .done

abbrev clearConfirmed (key : κ) : Effect κ Unit := .call (.clearConfirmed key) .done

abbrev setConfirmed (key : κ) : Effect κ Unit := .call (.setConfirmed key) .done

/-- The base64 alphabet of tokens. -/
def isTokenCharacter (c : Char) : Bool := c.isAlphanum || c = '-' || c = '_'

/-- The text decodes to 32 bytes; line breaks are skipped and the last bits are not checked. -/
def decodesToToken (rawToken : String) : Bool :=
  let characters := rawToken.toList.filter fun c => c ≠ '\r' && c ≠ '\n'
  characters.all isTokenCharacter && characters.length = 43

def dummyPasswordHash : String :=
  "$argon2id$v=19$m=65536,t=3,p=2$AAAAAAAAAAAAAAAAAAAAAA$AAAAAAAAAAAAAAAAAAAAAAAAAAAAAAAAAAAAAAAAAAA"

def Session.principal (session : Session κ) : Principal κ :=
  ⟨session.userID, session.username, session.csrfHash, session.expiresAt⟩

/-- The session may not be used at this time. -/
def Session.isOver (session : Session κ) (now : ℤ) : Prop :=
  ¬now < session.expiresAt ∨ ¬now < session.createdAt + sessionLifetime ∨
    sessionIdleTime ≤ durationSince now session.lastSeenAt

instance (session : Session κ) (now : ℤ) : Decidable (session.isOver now) := inferInstanceAs (Decidable (_ ∨ _ ∨ _))

section Manager

variable (digest : String → κ)

def newSession (userID username : String) (now : ℤ) :
    Effect κ (Except AuthError (Credentials × κ × SessionRow κ)) := do
  match ← randomToken with
  | .error message => return .error (.failed ("generate authentication token: " ++ message))
  | .ok token =>
    match ← randomToken with
    | .error message => return .error (.failed ("generate authentication token: " ++ message))
    | .ok csrf =>
      let expires := now + sessionLifetime
      return .ok (⟨token, csrf, userID, username, expires⟩, digest token, ⟨userID, digest csrf, now, now, expires⟩)

def login (remoteAddr username password : String) : Effect κ (Except AuthError Credentials) := do
  match ← admitAttempt remoteAddr username with
  | some retryAfter => return .error (.rateLimited retryAfter)
  | none =>
    match ← findUser username with
    | .error .notFound =>
      let _ ← verifyPassword dummyPasswordHash password
      complete .failure
      return .error .invalidCredentials
    | .error (.failed message) =>
      complete .cancel
      return .error (.failed ("login lookup: " ++ message))
    | .ok (userID, user) =>
      match ← verifyPassword user.passwordHash password with
      | (_, some (.failed message)) =>
        complete .cancel
        return .error (.failed ("verify credentials: " ++ message))
      | (false, _) =>
        complete .failure
        return .error .invalidCredentials
      | (true, _) =>
        let now ← readClock
        match ← newSession digest userID user.username now with
        | .error error =>
          complete .cancel
          return .error error
        | .ok (credentials, key, row) =>
          match ← createSession key row with
          | some message =>
            complete .cancel
            return .error (.failed ("create login session: " ++ message))
          | none =>
            complete .success
            return .ok credentials

def authenticate (rawToken : String) : Effect κ (Except AuthError (Principal κ)) :=
  if decodesToToken rawToken then do
    match ← lookupSession (digest rawToken) with
    | .error .notFound => return .error .unauthenticated
    | .error (.failed message) => return .error (.failed ("authenticate session: " ++ message))
    | .ok session =>
      let now ← readClock
      if session.isOver now then
        let _ ← deleteSession (digest rawToken)
        return .error .unauthenticated
      else if sessionTouchInterval ≤ durationSince now session.lastSeenAt then
        match ← touchSession (digest rawToken) now with
        | some message => return .error (.failed ("touch authenticated session: " ++ message))
        | none => return .ok session.principal
      else return .ok session.principal
  else return .error .unauthenticated

def logout (rawToken : String) : Effect κ (Except AuthError Unit) :=
  if rawToken = "" then return .ok ()
  else do
    clearConfirmed (digest rawToken)
    match ← deleteSession (digest rawToken) with
    | some message => return .error (.failed ("logout: " ++ message))
    | none => return .ok ()

def confirmPassword (rawSessionToken remoteAddr password : String) : Effect κ (Except AuthError Unit) := do
  match ← authenticate digest rawSessionToken with
  | .error error => return .error error
  | .ok _ =>
    let key := digest rawSessionToken
    clearConfirmed key
    match ← lookupSession key with
    | .error error => return .error (.failed ("confirm session password: " ++ error.message))
    | .ok session =>
      match ← admitAttempt remoteAddr session.username with
      | some retryAfter => return .error (.rateLimited retryAfter)
      | none =>
        match ← verifyPassword session.passwordHash password with
        | (_, some (.failed message)) =>
          complete .cancel
          return .error (.failed ("confirm session password: " ++ message))
        | (false, _) =>
          complete .failure
          return .error .invalidCredentials
        | (true, _) =>
          complete .success
          setConfirmed key
          return .ok ()

def recentlyConfirmed (rawSessionToken : String) : Effect κ Bool :=
  .call (.recentlyConfirmed (digest rawSessionToken)) .done

def consumeRecentConfirmation (rawSessionToken : String) : Effect κ Bool :=
  .call (.consumeConfirmed (digest rawSessionToken)) .done

end Manager

/-- The manager's clock, its store and its confirmations, with the creation times of all sessions. -/
structure Manager (κ : Type) where
  clock : ℤ
  users : Table String User
  sessions : Table κ (SessionRow κ)
  confirmed : Table κ ℤ
  created : Table κ ℤ

/-- What the store, the random source, the limiter and the password verifier decide about a call. -/
structure Luck where
  fault : Option String := none
  random : Except String String := .error "unexpected EOF"
  retryAfter : Option ℤ := none
  verdict : Bool × Option PasswordError := (false, none)

namespace Manager

variable [DecidableEq κ] (m : Manager κ)

/-- `WHERE username = ? COLLATE NOCASE`. -/
def findUserByUsername (username : String) : Except StoreError (String × User) :=
  match m.users.rows.find? fun row => row.2.username.toLower = username.toLower with
  | none => .error .notFound
  | some row =>
    match parseTime row.2.createdAt with
    | .ok _ => .ok row
    | .error message => .error (.failed ("parse user created_at: " ++ message))

def lookup (key : κ) : Except StoreError (Session κ) :=
  match m.sessions.find? key with
  | none => .error .notFound
  | some row =>
    match m.users.find? row.userID with
    | none => .error .notFound
    | some user =>
      match parseTime row.createdAt, parseTime row.lastSeenAt, parseTime row.expiresAt with
      | .error message, _, _ => .error (.failed ("parse session created_at: " ++ message))
      | _, .error message, _ => .error (.failed ("parse session last_seen_at: " ++ message))
      | _, _, .error message => .error (.failed ("parse session expires_at: " ++ message))
      | .ok _, .ok _, .ok _ => .ok { row with username := user.username, passwordHash := user.passwordHash }

/-- `UPDATE sessions SET last_seen_at = ? WHERE token_hash = ? AND last_seen_at <= ?`. -/
def touch (key : κ) (seenAt : ℤ) : Manager κ :=
  match m.sessions.find? key with
  | none => m
  | some row =>
    if formatTime (seenAt - sessionTouchInterval) < formatTime row.lastSeenAt then m
    else { m with sessions := m.sessions.upsert key { row with lastSeenAt := seenAt } }

/-- A statement of the store, unless it fails. -/
def write (fault : Option String) (context : String) (after : Manager κ) : Manager κ × Option String :=
  match fault with
  | some message => (m, some (context ++ message))
  | none => (after, none)

/-- A confirmation that has not expired. -/
def isConfirmed (key : κ) : Bool := (m.confirmed.find? key).any fun expires => decide (m.clock < expires)

def exec (luck : Luck) : (c : Call κ) → Option (Manager κ × Reply c)
  | .now => some (m, m.clock)
  | .randomToken => some (m, luck.random)
  | .findUser username =>
    some (m, match luck.fault with
      | some message => .error (.failed ("find user: " ++ message))
      | none => m.findUserByUsername username)
  | .createSession key row =>
    -- The digest of a fresh random token has never been stored.
    if m.created.find? key = none then
      some (m.write luck.fault "create session: "
        { m with sessions := m.sessions.upsert key row, created := m.created.upsert key row.createdAt })
    else none
  | .lookupSession key =>
    some (m, match luck.fault with
      | some message => .error (.failed ("lookup session: " ++ message))
      | none => m.lookup key)
  | .touchSession key seenAt => some (m.write luck.fault "touch session: " (m.touch key seenAt))
  | .deleteSession key =>
    some (m.write luck.fault "delete session: " { m with sessions := m.sessions.erase key })
  | .admitAttempt _ _ => some (m, luck.retryAfter)
  | .complete _ => some (m, ())
  | .verifyPassword _ _ => some (m, luck.verdict)
  | .clearConfirmed key => some ({ m with confirmed := m.confirmed.erase key }, ())
  | .setConfirmed key =>
    some ({ m with confirmed := m.confirmed.upsert key (m.clock + confirmationLifetime) }, ())
  | .recentlyConfirmed key =>
    some (if m.isConfirmed key then (m, true) else ({ m with confirmed := m.confirmed.erase key }, false))
  | .consumeConfirmed key => some ({ m with confirmed := m.confirmed.erase key }, m.isConfirmed key)

end Manager

inductive Request where
  | login (remoteAddr username password : String)
  | authenticate (rawToken : String)
  | logout (rawToken : String)
  | confirmPassword (rawSessionToken remoteAddr password : String)
  | recentlyConfirmed (rawSessionToken : String)
  | consumeRecentConfirmation (rawSessionToken : String)

inductive Outcome (κ : Type) where
  | loggedIn (credentials : Credentials)
  | authenticated (principal : Principal κ)
  | loggedOut | passwordConfirmed
  | answered (confirmed : Bool)
  | refused (error : AuthError)

/-- The outcome of an operation that may fail. -/
def Outcome.ofExcept {α : Type} (success : α → Outcome κ) : Except AuthError α → Outcome κ
  | .ok value => success value
  | .error error => .refused error

def body (digest : String → κ) : Request → Effect κ (Outcome κ)
  | .login remoteAddr username password => do
    return .ofExcept .loggedIn (← login digest remoteAddr username password)
  | .authenticate rawToken => do return .ofExcept .authenticated (← authenticate digest rawToken)
  | .logout rawToken => do return .ofExcept (fun _ => .loggedOut) (← logout digest rawToken)
  | .confirmPassword rawSessionToken remoteAddr password => do
    return .ofExcept (fun _ => .passwordConfirmed) (← confirmPassword digest rawSessionToken remoteAddr password)
  | .recentlyConfirmed rawSessionToken => do return .answered (← recentlyConfirmed digest rawSessionToken)
  | .consumeRecentConfirmation rawSessionToken => do
    return .answered (← consumeRecentConfirmation digest rawSessionToken)

/-- Requests to one manager, under a clock that never goes back. -/
def manager [DecidableEq κ] (digest : String → κ) :
    Interleaving (Manager κ) Request Luck ℤ (Reply (κ := κ)) (Outcome κ) where
  body := body digest
  exec m _ luck c := m.exec luck c
  world m clock := if m.clock ≤ clock then some { m with clock } else none
  clock := Manager.clock

end Helio.Auth
