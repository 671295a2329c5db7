import Helio.Machine.Exchanges
import Helio.Soundness.BootstrapRace
import Helio.Soundness.PasswordHashes

/-! # Which passwords open the house

The hashes in the store are those of the passwords that the setup was given. So a login or a confirmation
succeeds only with a password of the same Argon2id key under the same salt, and is refused only with another key.
-/

namespace Helio.Password

open Auth (PasswordError Credentials Session User)
open Bootstrap (Service Outcome Change)
open Calendar (Zone)
open Interleaving

variable {κ : Type} {kdf : Kdf} {digest : String → κ}

section Hashes

variable {salt : Salt} {key : Key} {password candidate : String}

theorem kdf_toList {params : ArgonParams} {bytes : List Byte} {n m : ℕ} (same : n = m) :
    (kdf candidate bytes params n).toList = (kdf candidate bytes params m).toList := by
  rw [same]

/-- Verifying against a hash that was written compares the keys. -/
theorem verifyPassword_hashText (valid : validatePassword candidate = none) :
    verifyPassword kdf (hashText salt key) candidate = .ok (decide (keyOf kdf candidate salt = key)) := by
  rw [verifyPassword, valid, parsePasswordHash_hashText]
  change Except.ok (decide ((kdf candidate salt.toList .fixed key.toList.length).toList = key.toList)) = _
  rw [kdf_toList key.length_toList]
  simp only [Vector.toList_inj]
  rfl

theorem hashPassword_ok {entropy : Except String Salt} {hash : String}
    (hashed : hashPassword kdf password entropy = .ok hash) :
    validatePassword password = none ∧ ∃ salt, hash = hashText salt (keyOf kdf password salt) := by
  unfold hashPassword at hashed
  cases valid : validatePassword password with
  | some error =>
    rw [valid] at hashed
    cases hashed
  | none =>
    rw [valid] at hashed
    cases entropy with
    | error message => cases hashed
    | ok salt => exact ⟨rfl, salt, (Except.ok.inj hashed).symm⟩

end Hashes

abbrev Asking (κ : Type) := Thread Request (Bootstrap.Reply (κ := κ)) (Outcome κ)

abbrev House (κ : Type) := Flight (Service κ) Request (Bootstrap.Reply (κ := κ)) (Outcome κ)

abbrev Told (κ : Type) := Exchange (Bootstrap.Reply (κ := κ))

/-- The password of the only user is that of a setup which was asked for. -/
structure SetUp (kdf : Kdf) (users : Table String User) (threads : List (Asking κ)) (hash password : String)
    (salt : Salt) : Prop where
  user : ∃ userID user, users.rows = [(userID, user)] ∧ user.passwordHash = hash
  request : ∃ setup ∈ threads, ∃ username put, setup.request = .bootstrap username password put
  valid : validatePassword password = none
  hash : hash = hashText salt (keyOf kdf password salt)

/-- What an exchange says of hashes is so. -/
structure Truthful (kdf : Kdf) (users : Table String User) (threads : List (Asking κ)) (exchange : Told κ) :
    Prop where
  hashed : ∀ password hash, exchange = ⟨.hashPassword password, .ok hash⟩ →
    validatePassword password = none ∧ ∃ salt, hash = hashText salt (keyOf kdf password salt)
  found : ∀ username userID user, exchange = ⟨.auth (.findUser username), .ok (userID, user)⟩ →
    ∃ password salt, SetUp kdf users threads user.passwordHash password salt
  looked : ∀ key (session : Session κ), exchange = ⟨.auth (.lookupSession key), .ok session⟩ →
    ∃ password salt, SetUp kdf users threads session.passwordHash password salt
  verified : ∀ hash candidate answer, exchange = ⟨.auth (.verifyPassword hash candidate), answer⟩ →
    answer = verdict (verifyPassword kdf hash candidate)

section Programs

variable {request : Request} {trace : List (Told κ)} {addr username password : String}

/-- The user that is stored has the hash that the manager was given. -/
theorem bootstrap_standing {userID : String} {user : User} {key : κ} {row : Auth.SessionRow κ}
    {put : Option Bootstrap.Document} {next : Except Bootstrap.Failure Unit → Bootstrap.Effect κ (Outcome κ)}
    (reached : (body digest request).Reaches trace (.call (.bootstrap userID user key row put) next)) :
    ∃ password put, request = .bootstrap user.username password put ∧
      (⟨.hashPassword password, .ok user.passwordHash⟩ : Told κ) ∈ trace := by
  cases request with
  | other request =>
    have uses : (body (κ := κ) digest (.other request)).Uses fun c => ∃ inner, c = .auth inner := by
      refine Program.Uses.bind (Program.relabel_uses _) fun _ => trivial
    obtain ⟨inner, same⟩ := (reached.always uses).1
    cases same
  | bootstrap username password put =>
    rcases Program.reaches_call.mp reached with ⟨-, other⟩ | ⟨answer, later, rfl, goes⟩
    · cases other
    cases answer with
    | error failure => cases (Program.reaches_done.mp goes).2
    | ok hash =>
      have stores := @Program.Reaches.always _ _ _ (fun c _ => ∀ userID user key row put,
        c = .bootstrap userID user key row put → user.username = username ∧ user.passwordHash = hash) _ _ _ goes ?_
      · obtain ⟨rfl, rfl⟩ := stores.1 _ _ _ _ _ rfl
        exact ⟨password, put, rfl, List.mem_cons_self⟩
      · refine ⟨by rintro _ _ _ _ _ ⟨⟩, fun now => ⟨by rintro _ _ _ _ _ ⟨⟩, fun userID => ?_⟩⟩
        rcases userID with message | userID
        · trivial
        refine ⟨by rintro _ _ _ _ _ ⟨⟩, fun token => ?_⟩
        rcases token with message | token
        · trivial
        refine ⟨by rintro _ _ _ _ _ ⟨⟩, fun csrf => ?_⟩
        rcases csrf with message | csrf
        · trivial
        refine ⟨by rintro _ _ _ _ _ ⟨⟩; exact ⟨rfl, rfl⟩, fun stored => ?_⟩
        rcases stored with (_ | _ | _ | _) | _ <;> trivial

/-- The hash of a user or of the user of a session. -/
def Known (trace : List (Told κ)) (hash : String) : Prop :=
  (∃ username userID user, (⟨.auth (.findUser username), .ok (userID, user)⟩ : Told κ) ∈ trace ∧
      user.passwordHash = hash) ∨
    ∃ key session, (⟨.auth (.lookupSession key), .ok session⟩ : Told κ) ∈ trace ∧ session.passwordHash = hash

/-- The verifier said so of a password and a known hash. -/
def Ruled (trace : List (Told κ)) (candidate : String) (right : Bool) : Prop :=
  ∃ hash error, Known trace hash ∧
    (⟨.auth (.verifyPassword hash candidate), (right, error)⟩ : Told κ) ∈ trace

/-- The password was accepted. -/
def Accepted (outcome : Outcome κ) : Prop :=
  (∃ credentials, outcome = .other (.loggedIn credentials)) ∨ outcome = .other .passwordConfirmed

/-- The outcome of an operation rests on the verifier, or on there being no such user. -/
structure Judged (trace : List (Told κ)) (candidate : String) (outcome : Outcome κ) : Prop where
  accepted : Accepted outcome → Ruled trace candidate true
  refused : outcome = .other (.refused .invalidCredentials) →
    (∃ username, (⟨.auth (.findUser username), .error .notFound⟩ : Told κ) ∈ trace) ∨ Ruled trace candidate false

theorem judged_of_ruled {outcome : Outcome κ} {right : Bool} (ruled : Ruled trace password right)
    (accepted : Accepted outcome → right = true)
    (refused : outcome = .other (.refused .invalidCredentials) → right = false) : Judged trace password outcome where
  accepted accepts := accepted accepts ▸ ruled
  refused refuses := Or.inr (refused refuses ▸ ruled)

/-- Some other error. -/
theorem judged_of_error {error : Auth.AuthError} (other : error ≠ .invalidCredentials) :
    Judged trace password (.other (.refused error) : Outcome κ) where
  accepted := by
    rintro (⟨credentials, same⟩ | same) <;> cases same
  refused := by
    rintro ⟨⟩
    exact absurd rfl other

theorem login_judged {outcome : Outcome κ}
    (returned : (body digest (.other (.login addr username password))).Returns trace outcome) :
    Judged trace password outcome := by
  obtain ⟨admitted, later, rfl, admission⟩ := Program.returns_call.mp returned
  cases admitted with
  | some retryAfter =>
    obtain ⟨rfl, rfl⟩ := Program.returns_done.mp admission
    exact judged_of_error (by rintro ⟨⟩)
  | none =>
    clear returned
    obtain ⟨found, later, rfl, lookup⟩ := Program.returns_call.mp admission
    rcases found with (- | message) | ⟨userID, user⟩
    · clear admission
      obtain ⟨dummy, later, rfl, verified⟩ := Program.returns_call.mp lookup
      obtain ⟨completed, later, rfl, finished⟩ := Program.returns_call.mp verified
      obtain ⟨rfl, rfl⟩ := Program.returns_done.mp finished
      refine ⟨?_, fun _ => Or.inl ⟨username, by simp⟩⟩
      rintro (⟨credentials, same⟩ | same) <;> cases same
    · clear admission
      obtain ⟨completed, later, rfl, finished⟩ := Program.returns_call.mp lookup
      obtain ⟨rfl, rfl⟩ := Program.returns_done.mp finished
      exact judged_of_error (by rintro ⟨⟩)
    · clear admission
      obtain ⟨⟨right, error⟩, later, rfl, verified⟩ := Program.returns_call.mp lookup
      suffices rest : (Accepted outcome → right = true) ∧
          (outcome = .other (.refused .invalidCredentials) → right = false) from
        judged_of_ruled ⟨user.passwordHash, error, Or.inl ⟨username, userID, user, by simp, rfl⟩, by simp⟩ rest.1 rest.2
      rcases error with - | (- | - | message)
      case some.failed =>
        obtain ⟨completed, later, rfl, finished⟩ := Program.returns_call.mp verified
        obtain ⟨rfl, rfl⟩ := Program.returns_done.mp finished
        refine ⟨?_, by rintro ⟨⟩⟩
        rintro (⟨credentials, same⟩ | same) <;> cases same
      all_goals
        cases right with
        | false =>
          obtain ⟨completed, later, rfl, finished⟩ := Program.returns_call.mp verified
          obtain ⟨rfl, rfl⟩ := Program.returns_done.mp finished
          refine ⟨?_, fun _ => rfl⟩
          rintro (⟨credentials, same⟩ | same) <;> cases same
        | true =>
          refine ⟨fun _ => rfl, ?_⟩
          rintro rfl
          obtain ⟨now, later, rfl, timed⟩ := Program.returns_call.mp verified
          obtain ⟨token, later, rfl, drawn⟩ := Program.returns_call.mp timed
          rcases token with message | token
          · obtain ⟨completed, later, rfl, finished⟩ := Program.returns_call.mp drawn
            cases (Program.returns_done.mp finished).2
          obtain ⟨csrf, later, rfl, both⟩ := Program.returns_call.mp drawn
          rcases csrf with message | csrf
          · obtain ⟨completed, later, rfl, finished⟩ := Program.returns_call.mp both
            cases (Program.returns_done.mp finished).2
          obtain ⟨stored, later, rfl, created⟩ := Program.returns_call.mp both
          rcases stored with - | message
          all_goals
            obtain ⟨completed, later, rfl, finished⟩ := Program.returns_call.mp created
            cases (Program.returns_done.mp finished).2

/-- An authentication fails for other reasons than a wrong password. -/
theorem authenticate_ends (token : String) :
    (Auth.authenticate digest token).Ends fun result => result ≠ .error .invalidCredentials := by
  rw [Auth.authenticate]
  split
  case isFalse => rintro ⟨⟩
  intro found
  rcases found with (- | message) | session
  · rintro ⟨⟩
  · rintro ⟨⟩
  intro now
  change Program.Ends _ (ite (session.isOver now) _ (ite _ _ _))
  split
  · intro deleted
    rintro ⟨⟩
  · split
    · intro touched
      cases touched <;> rintro ⟨⟩
    · rintro ⟨⟩

/-- What the verification of a confirmation leads to. -/
theorem confirmation_rests {token : String} {result : Except Auth.AuthError Unit}
    (returned : (Bootstrap.ofAuth (Auth.confirmPassword digest token addr password)).Returns trace result) :
    Judged trace password (.other (.ofExcept (fun _ => .passwordConfirmed) result)) := by
  rw [Bootstrap.ofAuth, Auth.confirmPassword, Program.relabel_bind] at returned
  obtain ⟨before, principal, after, authenticated, goes, rfl⟩ := Program.returns_bind returned
  clear returned
  rcases principal with error | principal
  · obtain ⟨rfl, rfl⟩ := Program.returns_done.mp goes
    have other := authenticated.ends (authenticate_ends token).relabel
    exact judged_of_error fun same => other (same ▸ rfl)
  obtain ⟨cleared, later, rfl, lookup⟩ := Program.returns_call.mp goes
  obtain ⟨found, later, rfl, admission⟩ := Program.returns_call.mp lookup
  clear goes lookup
  rcases found with error | session
  · obtain ⟨rfl, rfl⟩ := Program.returns_done.mp admission
    exact judged_of_error (by rintro ⟨⟩)
  obtain ⟨admitted, later, rfl, verification⟩ := Program.returns_call.mp admission
  clear admission
  rcases admitted with - | retryAfter
  case some =>
    obtain ⟨rfl, rfl⟩ := Program.returns_done.mp verification
    exact judged_of_error (by rintro ⟨⟩)
  obtain ⟨⟨right, error⟩, later, rfl, verified⟩ := Program.returns_call.mp verification
  clear verification
  suffices rest : (Accepted (.other (.ofExcept (fun _ => .passwordConfirmed) result) : Outcome κ) → right = true) ∧
      ((.other (.ofExcept (fun _ => .passwordConfirmed) result) : Outcome κ) =
        .other (.refused .invalidCredentials) → right = false) from
    judged_of_ruled ⟨session.passwordHash, error, Or.inr ⟨digest token, session, by simp, rfl⟩, by simp⟩ rest.1 rest.2
  rcases error with - | (- | - | message)
  case some.failed =>
    obtain ⟨completed, later, rfl, finished⟩ := Program.returns_call.mp verified
    obtain ⟨rfl, rfl⟩ := Program.returns_done.mp finished
    refine ⟨?_, by rintro ⟨⟩⟩
    rintro (⟨credentials, same⟩ | same) <;> cases same
  all_goals
    cases right with
    | false =>
      obtain ⟨completed, later, rfl, finished⟩ := Program.returns_call.mp verified
      obtain ⟨rfl, rfl⟩ := Program.returns_done.mp finished
      refine ⟨?_, fun _ => rfl⟩
      rintro (⟨credentials, same⟩ | same) <;> cases same
    | true =>
      obtain ⟨completed, later, rfl, confirmed⟩ := Program.returns_call.mp verified
      obtain ⟨set, later, rfl, finished⟩ := Program.returns_call.mp confirmed
      obtain ⟨rfl, rfl⟩ := Program.returns_done.mp finished
      exact ⟨fun _ => rfl, by rintro ⟨⟩⟩

theorem confirmation_judged {token : String} {outcome : Outcome κ}
    (returned : (body digest (.other (.confirmPassword token addr password))).Returns trace outcome) :
    Judged trace password outcome := by
  obtain ⟨before, inner, after, first, last, rfl⟩ := Program.returns_bind returned
  obtain ⟨rfl, rfl⟩ := Program.returns_done.mp last
  rw [List.append_nil]
  change (Program.relabel _ _ (_ >>= _)).Returns before inner at first
  rw [Program.relabel_bind] at first
  obtain ⟨asked, result, done, confirmed, ended, rfl⟩ := Program.returns_bind first
  obtain ⟨rfl, rfl⟩ := Program.returns_done.mp ended
  rw [List.append_nil]
  exact confirmation_rests confirmed

end Programs

section Runs

variable {users after : Table String User} {threads more : List (Asking κ)}

/-- The hashes of all users were set up. -/
def SetUpUsers (kdf : Kdf) (users : Table String User) (threads : List (Asking κ)) : Prop :=
  ∀ row ∈ users.rows, ∃ password salt, SetUp kdf users threads row.2.passwordHash password salt

/-- The first user and the requests are still there. -/
structure Stays (users after : Table String User) (threads more : List (Asking κ)) : Prop where
  user : users.rows = [] ∨ after = users
  requests : ∀ thread ∈ threads, ∃ later ∈ more, later.request = thread.request

theorem SetUp.mono {hash password : String} {salt : Salt} (setUp : SetUp kdf users threads hash password salt)
    (stays : Stays users after threads more) : SetUp kdf after more hash password salt := by
  obtain ⟨⟨userID, user, only, hashed⟩, ⟨setup, member, username, put, request⟩, valid, same⟩ := setUp
  obtain ⟨later, stands, kept⟩ := stays.requests setup member
  refine ⟨⟨userID, user, ?_, hashed⟩, ⟨later, stands, username, put, kept.trans request⟩, valid, same⟩
  rcases stays.user with empty | rfl
  · rw [empty] at only
    cases only
  · exact only

theorem Truthful.mono {exchange : Told κ} (truthful : Truthful kdf users threads exchange)
    (stays : Stays users after threads more) : Truthful kdf after more exchange where
  hashed := truthful.hashed
  found username userID user same := by
    obtain ⟨password, salt, setUp⟩ := truthful.found username userID user same
    exact ⟨password, salt, setUp.mono stays⟩
  looked key session same := by
    obtain ⟨password, salt, setUp⟩ := truthful.looked key session same
    exact ⟨password, salt, setUp.mono stays⟩
  verified := truthful.verified

variable [DecidableEq κ] {zones : String → Except String Zone} {s t : House κ} {luck : Luck}

omit [DecidableEq κ] in
theorem find_setUp {m : Auth.Manager κ} {username userID : String} {user : User}
    (setUp : SetUpUsers kdf m.users threads) (found : m.findUserByUsername username = .ok (userID, user)) :
    ∃ password salt, SetUp kdf m.users threads user.passwordHash password salt := by
  rw [Auth.Manager.findUserByUsername] at found
  split at found
  · cases found
  next row here =>
  split at found
  · obtain rfl := Except.ok.inj found
    exact setUp _ (List.mem_of_find?_eq_some here)
  · cases found

theorem lookup_setUp {m : Auth.Manager κ} {key : κ} {session : Session κ} (setUp : SetUpUsers kdf m.users threads)
    (looked : m.lookup key = .ok session) :
    ∃ password salt, SetUp kdf m.users threads session.passwordHash password salt := by
  rw [Auth.Manager.lookup] at looked
  split at looked
  · cases looked
  split at looked
  · cases looked
  next user here =>
  split at looked
  case h_4 =>
    obtain rfl := Except.ok.inj looked
    exact setUp _ (Table.find?_eq_some_iff.mp here)
  all_goals cases looked

theorem exec_truthful {c : Bootstrap.Call κ} {shared after : Service κ} {answer : Bootstrap.Reply c}
    (setUp : SetUpUsers kdf shared.auth.users threads)
    (executed : exec zones kdf shared luck c = some (after, answer)) :
    Truthful kdf shared.auth.users threads ⟨c, answer⟩ where
  hashed password hash same := by
    cases same
    exact hashPassword_ok (Prod.mk.inj (Option.some.inj executed)).2
  found username userID user same := by
    cases same
    have asked : shared.exec zones luck.service (.auth (.findUser username)) = some (after, .ok (userID, user)) := executed
    rw [Service.exec] at asked
    obtain ⟨⟨m, reply⟩, done, same⟩ := Option.map_eq_some_iff.mp asked
    cases same
    have told := (Prod.mk.inj (Option.some.inj done)).2
    split at told
    · cases told
    · exact find_setUp setUp told
  looked key session same := by
    cases same
    have asked : shared.exec zones luck.service (.auth (.lookupSession key)) = some (after, .ok session) := executed
    rw [Service.exec] at asked
    obtain ⟨⟨m, reply⟩, done, same⟩ := Option.map_eq_some_iff.mp asked
    cases same
    have told := (Prod.mk.inj (Option.some.inj done)).2
    split at told
    · cases told
    · exact lookup_setUp setUp told
  verified hash candidate answer same := by
    cases same
    exact (Prod.mk.inj (Option.some.inj executed)).2.symm

/-- Only a bootstrap makes a user. -/
theorem exec_users {c : Bootstrap.Call κ} {shared after : Service κ} {answer : Bootstrap.Reply c}
    (executed : exec zones kdf shared luck c = some (after, answer)) :
    after.auth.users = shared.auth.users ∨ ∃ userID user key row put, c = .bootstrap userID user key row put ∧
      shared.auth.users.rows = [] ∧ after.auth.users.rows = [(userID, user)] := by
  cases c with
  | hashPassword password =>
    cases (Prod.mk.inj (Option.some.inj executed)).1
    exact Or.inl rfl
  | bootstrap userID user key row put =>
    obtain ⟨kept, answered⟩ := Prod.mk.inj (Option.some.inj executed)
    rcases result : (transact (Bootstrap.bootstrapTx zones luck.service.faults userID user key row put) shared).1 with
      failure | done
    · rw [← kept, Tx.transact_error result]
      exact Or.inl rfl
    · rw [← kept]
      obtain ⟨empty, users, -⟩ := Bootstrap.bootstrapTx_ok (Tx.transact_ok result)
      have unused : shared.auth.users.find? userID = none := by
        rw [Table.find?, empty]
        rfl
      refine Or.inr ⟨userID, user, key, row, put, rfl, empty, ?_⟩
      rw [users, Table.upsert_rows unused, empty]
  | auth c =>
    have plain : (∃ hash candidate, c = .verifyPassword hash candidate) ∨
        exec zones kdf shared luck (.auth c) = shared.exec zones luck.service (.auth c) := by
      cases c with
      | verifyPassword hash candidate => exact Or.inl ⟨hash, candidate, rfl⟩
      | _ => exact Or.inr rfl
    rcases plain with ⟨hash, candidate, rfl⟩ | plain
    · cases (Prod.mk.inj (Option.some.inj executed)).1
      exact Or.inl rfl
    · rw [plain] at executed
      obtain ⟨⟨m, reply⟩, done, same⟩ := Option.map_eq_some_iff.mp executed
      cases same
      refine Or.inl ?_
      cases Auth.exec_sessions done with
      | kept _ same | created _ _ _ _ same | touched _ _ _ _ _ same | deleted _ same =>
        change m.users = _
        rw [same]

/-- All that is stored and told of hashes comes from setups. -/
structure Honest (kdf : Kdf) (t : House κ) : Prop where
  users : SetUpUsers kdf t.shared.auth.users t.threads
  told : ∀ thread ∈ t.threads, ∀ exchange ∈ thread.exchanges, Truthful kdf t.shared.auth.users t.threads exchange

theorem step_stays {event : Happening Request Luck Change} (stepped : (keeper zones kdf digest).step s event = some t) :
    Stays s.shared.auth.users t.shared.auth.users s.threads t.threads where
  user := by
    obtain ⟨request, rfl, rfl⟩ | ⟨i, luck, thread, later, rfl, found, advanced, threads⟩ |
      ⟨change, rfl, changed, threads⟩ := step_cases stepped
    · exact Or.inr rfl
    · obtain ⟨c, next, answer, -, executed, -⟩ := advance_cases advanced
      rcases exec_users executed with same | ⟨userID, user, key, row, put, -, empty, -⟩
      · exact Or.inr same
      · exact Or.inl empty
    · obtain ⟨-, same⟩ := Option.ite_none_right_eq_some.mp changed
      exact Or.inr (Option.some.inj same ▸ rfl)
  requests thread member := by
    obtain ⟨i, found⟩ := List.mem_iff_getElem?.mp member
    obtain ⟨later, here, same, -⟩ := thread_stays (Run.start.step stepped) found
    exact ⟨later, List.mem_of_getElem? here, same⟩

theorem Honest.step {event : Happening Request Luck Change} (honest : Honest kdf s)
    (reached : ∀ thread ∈ s.threads, (keeper zones kdf digest).Reached thread)
    (stepped : (keeper zones kdf digest).step s event = some t) : Honest kdf t := by
  have stays := step_stays stepped
  have kept : ∀ thread ∈ s.threads, ∀ exchange ∈ thread.exchanges,
      Truthful kdf t.shared.auth.users t.threads exchange :=
    fun thread member exchange among => (honest.told thread member exchange among).mono stays
  have users : t.shared.auth.users = s.shared.auth.users → SetUpUsers kdf t.shared.auth.users t.threads := by
    intro same row member
    rw [same] at member
    obtain ⟨password, salt, setUp⟩ := honest.users row member
    exact ⟨password, salt, setUp.mono stays⟩
  obtain ⟨request, rfl, rfl⟩ | ⟨i, luck, thread, later, rfl, found, advanced, threads⟩ |
    ⟨change, rfl, changed, threads⟩ := step_cases stepped
  · refine ⟨users rfl, fun thread member => ?_⟩
    rcases List.mem_append.mp member with old | new
    · exact kept thread old
    · rw [List.mem_singleton.mp new]
      intro exchange among
      cases among
  · obtain ⟨c, next, answer, standing, executed, rfl⟩ := advance_cases advanced
    have taken := List.mem_of_getElem? found
    refine ⟨?_, fun other member exchange among => ?_⟩
    · rcases exec_users executed with same | ⟨userID, user, key, row, put, rfl, -, inserted⟩
      · exact users same
      · have before := reached thread taken
        rw [Reached, standing] at before
        obtain ⟨password, document, request, told⟩ := bootstrap_standing before
        obtain ⟨valid, salt, hash⟩ := (honest.told thread taken _ told).hashed password _ rfl
        obtain ⟨setup, stands, same⟩ := stays.requests thread taken
        intro row member
        rw [inserted] at member
        rw [List.mem_singleton.mp member]
        exact ⟨password, salt, ⟨userID, user, inserted, rfl⟩, ⟨setup, stands, _, _, same.trans request⟩, valid, hash⟩
    · rw [threads] at member
      rcases mem_set_cases member with rfl | old
      · rcases List.mem_append.mp among with past | now
        · exact kept thread taken exchange past
        · rw [List.mem_singleton.mp now]
          exact (exec_truthful honest.users executed).mono stays
      · exact kept other old exchange among
  · refine ⟨users ?_, fun thread member => kept thread (threads ▸ member)⟩
    obtain ⟨-, same⟩ := Option.ite_none_right_eq_some.mp changed
    exact Option.some.inj same ▸ rfl

theorem run_honest {events : List (Happening Request Luck Change)}
    (run : Run (Enabled (keeper zones kdf digest).step) s events t) (fresh : s.threads = [])
    (empty : s.shared.auth.users.rows = []) : Honest kdf t := by
  apply run.reached_invariant
  · refine ⟨fun row member => ?_, fun thread member => ?_⟩
    · rw [empty] at member
      cases member
    · rw [fresh] at member
      cases member
  · exact fun es u event v before honest moved => honest.step (threads_reach before fresh) moved

/-- The password has the key of the only user's. -/
def Matches (kdf : Kdf) (t : House κ) (candidate : String) : Prop :=
  validatePassword candidate = none ∧ ∃ hash password salt, SetUp kdf t.shared.auth.users t.threads hash password salt ∧
    keyOf kdf candidate salt = keyOf kdf password salt

omit [DecidableEq κ] in
/-- A verdict on a known hash tells whether the password matches. -/
theorem matches_of_ruled {thread : Asking κ} {candidate : String} {right : Bool} (honest : Honest kdf t)
    (member : thread ∈ t.threads) (ruled : Ruled thread.exchanges candidate right) :
    right = true ↔ Matches kdf t candidate := by
  obtain ⟨hash, error, known, verified⟩ := ruled
  have setUp : ∃ password salt, SetUp kdf t.shared.auth.users t.threads hash password salt := by
    rcases known with ⟨username, userID, user, told, rfl⟩ | ⟨key, session, told, rfl⟩
    · exact (honest.told thread member _ told).found username userID user rfl
    · exact (honest.told thread member _ told).looked key session rfl
  obtain ⟨password, salt, setUp⟩ := setUp
  have answer := (honest.told thread member _ verified).verified hash candidate _ rfl
  cases valid : validatePassword candidate with
  | some failure =>
    rw [verifyPassword, valid] at answer
    cases answer
    simp [Matches, valid]
  | none =>
    rw [setUp.hash, verifyPassword_hashText valid] at answer
    cases answer
    rw [decide_eq_true_eq]
    refine ⟨fun same => ⟨valid, hash, password, salt, setUp, same⟩, ?_⟩
    rintro ⟨-, stored, original, old, first, same⟩
    obtain ⟨userID, user, only, rfl⟩ := setUp.user
    obtain ⟨firstID, firstUser, onlyFirst, rfl⟩ := first.user
    cases only.symm.trans onlyFirst
    obtain ⟨rfl, keys⟩ := hashText_inj (setUp.hash.symm.trans first.hash)
    rw [same, keys]

/-- The password that a login or a confirmation was given. -/
def Request.offered : Request → Option String
  | .other (.login _ _ password) | .other (.confirmPassword _ _ password) => some password
  | _ => none

/-- A login or a confirmation succeeds only with a password of the same Argon2id key as the one that the setup was
given, and is refused only for another key or because there is no such user. -/
theorem passwords_judged {events : List (Happening Request Luck Change)} {thread : Asking κ} {candidate : String}
    {outcome : Outcome κ} (run : Run (Enabled (keeper zones kdf digest).step) s events t) (fresh : s.threads = [])
    (empty : s.shared.auth.users.rows = []) (member : thread ∈ t.threads)
    (offered : thread.request.offered = some candidate) (finished : thread.rest = .done outcome) :
    (Accepted outcome → Matches kdf t candidate) ∧
    (outcome = .other (.refused .invalidCredentials) →
      (∃ username, (⟨.auth (.findUser username), .error .notFound⟩ : Told κ) ∈ thread.exchanges) ∨
      ¬Matches kdf t candidate) := by
  have honest := run_honest run fresh empty
  have returned : (body digest thread.request).Returns thread.exchanges outcome := by
    have reached := threads_reach run fresh thread member
    rwa [Reached, finished] at reached
  have judged : Judged thread.exchanges candidate outcome := by
    rcases asked : thread.request with ⟨username, password, put⟩ | (⟨addr, username, password⟩ | _ | _ |
      ⟨token, addr, password⟩ | _ | _)
    all_goals rw [asked] at offered returned
    case other.login =>
      cases offered
      exact login_judged returned
    case other.confirmPassword =>
      cases offered
      exact confirmation_judged returned
    all_goals cases offered
  constructor
  · intro accepted
    exact (matches_of_ruled honest member (judged.accepted accepted)).mp rfl
  · intro refused
    rcases judged.refused refused with missing | ruled
    · exact Or.inl missing
    · exact Or.inr fun same => Bool.false_ne_true ((matches_of_ruled honest member ruled).mpr same)

end Runs

section Household

private def set : String := "correct horse battery"

private def mistyped : String := "correct horse batterz"

private def salt : Salt := Vector.ofFn fun i => BitVec.ofNat 8 i

/-- The Argon2id keys of the two passwords under the salt. -/
private def argon2 : Kdf := fun password bytes params _ =>
  let key :=
    if bytes ≠ salt.toList ∨ params ≠ .fixed then []
    else if password = set then
      [96, 100, 208, 128, 179, 247, 247, 46, 44, 189, 165, 30, 147, 188, 47, 30, 102, 117, 63, 102, 159, 141, 225, 196,
        154, 75, 229, 177, 253, 132, 145, 189]
    else if password = mistyped then
      [156, 198, 92, 24, 92, 12, 138, 127, 102, 151, 64, 105, 122, 16, 190, 243, 27, 42, 214, 228, 133, 74, 8, 121,
        126, 145, 78, 181, 175, 123, 122, 194]
    else []
  Vector.ofFn fun i => BitVec.ofNat 8 (key.getD i 0)

private def sessionToken : String := "AAAAAAAAAAAAAAAAAAAAAAAAAAAAAAAAAAAAAAAAAAA"

private def csrfToken : String := "EEEEEEEEEEEEEEEEEEEEEEEEEEEEEEEEEEEEEEEEEEE"

/-- The SHA-256 digests of the tokens of a login, in hexadecimal. -/
private def sha256 (text : String) : String :=
  if text = sessionToken then "0f007385b6f9d4b7eeb2748605afe1a984a0a3bfa3f014d09e2a784ce9e5cd1a"
  else if text = csrfToken then "59ae66da6ed3bbc4459e26cbdb0cfff96cfb74742b386dae8bdd429dfe7b1f9c"
  else "4fc98cef01dc6df5903258c084662f5e8f7fb22763986c0d46aa130035736351"

private def empty : House String := ⟨⟨⟨0, .empty, .empty, .empty, .empty⟩, none⟩, []⟩

private def draws (token : String) : Luck := { service := { auth := { random := .ok token } }, entropy := .ok salt }

private def other : String := "IIIIIIIIIIIIIIIIIIIIIIIIIIIIIIIIIIIIIIIIIII"

/-- A setup, a login with its password and one with a wrong one. -/
private def evening : List (Happening Request Luck Change) :=
  [.begins (.bootstrap "ana" set none)] ++ List.replicate 6 (.moves 0 (draws other)) ++
    [.begins (.other (.login "192.168.0.2" "ana" set))] ++ List.replicate 5 (.moves 1 (draws sessionToken)) ++
    [.moves 1 (draws csrfToken), .moves 1 (draws csrfToken), .moves 1 (draws csrfToken),
      .begins (.other (.login "192.168.0.2" "ana" mistyped))] ++ List.replicate 4 (.moves 2 (draws other))

/-- Whether a login has opened the house. -/
private def opened (thread : Asking String) : Option Bool :=
  match thread.rest with
  | .done (.other (.loggedIn _)) => some true
  | .done (.other (.refused .invalidCredentials)) => some false
  | _ => none

private theorem opened_ends {thread : Asking String} {right : Bool} (opens : opened thread = some right) :
    ∃ outcome, thread.rest = .done outcome ∧ if right then Accepted outcome else
      outcome = .other (.refused .invalidCredentials) := by
  rw [opened] at opens
  split at opens
  · next credentials ended =>
    cases opens
    exact ⟨_, ended, Or.inl ⟨credentials, rfl⟩⟩
  · next ended =>
    cases opens
    exact ⟨_, ended, rfl⟩
  · cases opens

/-- A login has found no user. -/
private def missed (thread : Asking String) : Bool := thread.exchanges.any fun exchange =>
  match exchange with
  | ⟨.auth (.findUser _), .error .notFound⟩ => true
  | _ => false

/-- The password of the setup opens the house, the other one does not. -/
theorem evening_judged : ∃ t, Run (Enabled (keeper (fun _ => .error "unknown time zone") argon2 sha256).step) empty
    evening t ∧ Matches argon2 t set ∧ ¬Matches argon2 t mistyped := by
  have possible : (evening.foldlM (keeper (fun _ => .error "unknown time zone") argon2 sha256).step empty).map (fun t =>
      (t.threads[1]?.map fun thread => (thread.request.offered, opened thread),
        t.threads[2]?.map fun thread => (thread.request.offered, opened thread, missed thread))) =
      some (some (some set, some true), some (some mistyped, some false, false)) := by
    decide +kernel
  obtain ⟨t, reached, seen⟩ := Option.map_eq_some_iff.mp possible
  obtain ⟨first, second⟩ := Prod.mk.inj seen
  obtain ⟨login, found, asked⟩ := Option.map_eq_some_iff.mp first
  obtain ⟨retry, foundRetry, askedRetry⟩ := Option.map_eq_some_iff.mp second
  refine ⟨t, Run.of_foldlM reached, ?_, ?_⟩
  · obtain ⟨offered, opens⟩ := Prod.mk.inj asked
    obtain ⟨outcome, ended, accepted⟩ := opened_ends opens
    exact (passwords_judged (Run.of_foldlM reached) rfl rfl (List.mem_of_getElem? found) offered ended).1 accepted
  · obtain ⟨offered, opens⟩ := Prod.mk.inj askedRetry
    obtain ⟨opens, present⟩ := Prod.mk.inj opens
    obtain ⟨outcome, ended, refused⟩ := opened_ends opens
    rcases (passwords_judged (Run.of_foldlM reached) rfl rfl (List.mem_of_getElem? foundRetry) offered ended).2 refused
      with ⟨username, told⟩ | differs
    · exact absurd present (by rw [missed, List.any_eq_false]; exact fun none => none _ told rfl)
    · exact differs

end Household

end Helio.Password
