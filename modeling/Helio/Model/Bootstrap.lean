import Helio.Machine.Transaction
import Helio.Model.Sessions
import Helio.Model.Settings

/-! # Creating the first user

A bootstrap inserts a user if there is none, a session of that user and, possibly, the settings, in
one transaction. It is requested of the manager, which hashes the password and draws the tokens, or
of the store itself with any rows. Among these requests run all others of the manager. A digest is a
blob and never null; the settings that are encoded have been validated, so encoding them succeeds.
-/

namespace Helio.Bootstrap

open Calendar Config Auth

structure SettingsRow where
  document : Envelope
  updatedAt : ℤ

/-- The manager and its store, with the row of the settings. -/
structure Service (κ : Type) where
  auth : Manager κ
  settings : Option SettingsRow

/-- A refused bootstrap. -/
inductive Failure where
  | closed
  | password (error : PasswordError)
  | failed (message : String)

inductive Statement where
  | begin | createUser | inspectUser | createSession | putSettings | commit
deriving DecidableEq

abbrev Faults := Statement → Option String

/-- Settings to write, and whether they may name a public logger. -/
abbrev Document := Settings × Bool

namespace Service

variable {κ : Type} [DecidableEq κ] (s : Service κ)

/-- `INSERT INTO users … WHERE NOT EXISTS (SELECT 1 FROM users LIMIT 1)`. -/
def withFirstUser (userID : String) (user : User) : Service κ :=
  if s.auth.users.rows = [] then { s with auth := { s.auth with users := s.auth.users.upsert userID user } } else s

/-- The rows that this statement inserts. -/
def rowsAffected : ℕ := if s.auth.users.rows = [] then 1 else 0

def withSession (key : κ) (row : SessionRow κ) : Service κ :=
  { s with auth := { s.auth with
      sessions := s.auth.sessions.upsert key row
      created := s.auth.created.upsert key row.createdAt } }

def withSettings (normalized : Settings) : Service κ :=
  { s with settings := some ⟨⟨settingsVersion, normalized⟩, s.auth.clock⟩ }

/-- A session that is created must belong to a user. -/
def breaksForeignKey : Auth.Call κ → Bool
  | .createSession _ row => (s.auth.users.find? row.userID).isNone
  | _ => false

end Service

section Store

variable {κ : Type} [DecidableEq κ]

abbrev Body (κ : Type) := Tx (Service κ) Failure

variable (zones : String → Except String Zone) (faults : Faults)

def exec (statement : Statement) (context : String) (allowed : Prop) [Decidable allowed]
    (effect : Service κ → Service κ) : Body κ Unit :=
  Tx.exec (fun cause => .failed (context ++ cause)) (faults statement) allowed effect

def query (statement : Statement) (context : String) : Body κ (Service κ) :=
  Tx.query (fun cause => .failed (context ++ cause)) (faults statement)

def insertSession (key : κ) (row : SessionRow κ) : Body κ Unit := do
  let s ← get
  exec faults .createSession "create session: "
    (s.auth.sessions.find? key = none ∧ (s.auth.users.find? row.userID).isSome) fun s => s.withSession key row

def putSettings (document : Document) : Body κ Unit := do
  let normalized ← Tx.attempt id
    ((validateSettings zones document.1 document.2).mapError fun cause => .failed ("validate settings: " ++ cause))
  exec faults .putSettings "put settings: " True fun s => s.withSettings normalized

/-- `bootstrap` of the store. -/
def bootstrapTx (userID : String) (user : User) (key : κ) (row : SessionRow κ) (put : Option Document) : Body κ Unit := do
  let before ← query faults .begin "begin bootstrap: "
  exec faults .createUser "create bootstrap user: " True fun s => s.withFirstUser userID user
  let _ ← query faults .inspectUser "inspect bootstrap user: "
  Tx.require (before.rowsAffected = 1) .closed
  insertSession faults key row
  put.elim (pure ()) (putSettings zones faults)
  let _ ← query faults .commit "commit bootstrap: "
  return ()

end Store

inductive Call (κ : Type) where
  | auth (c : Auth.Call κ)
  | hashPassword (password : String)
  | bootstrap (userID : String) (user : User) (key : κ) (row : SessionRow κ) (put : Option Document)

@[reducible] def Reply {κ : Type} : Call κ → Type
  | .auth c => Auth.Reply c
  | .hashPassword _ => Except PasswordError String
  | .bootstrap _ _ _ _ _ => Except Failure Unit

abbrev Effect (κ : Type) := Program (Call κ) Reply

section Manager

variable {κ : Type}

/-- A part of the manager that needs none of the new calls. -/
def ofAuth {α : Type} (p : Auth.Effect κ α) : Effect κ α := p.relabel .auth fun _ reply => reply

abbrev hashPassword (password : String) : Effect κ (Except PasswordError String) := .call (.hashPassword password) .done

abbrev storeBootstrap (userID : String) (user : User) (key : κ) (row : SessionRow κ) (put : Option Document) :
    Effect κ (Except Failure Unit) :=
  .call (.bootstrap userID user key row put) .done

variable (digest : String → κ)

/-- `bootstrap` of the manager. -/
def bootstrap (username password : String) (put : Option Document) : Effect κ (Except Failure Credentials) := do
  match ← hashPassword password with
  | .error error => return .error (.password error)
  | .ok hash =>
    let now ← ofAuth readClock
    match ← ofAuth randomToken with
    | .error message => return .error (.failed ("generate authentication token: " ++ message))
    | .ok userID =>
      match ← ofAuth (newSession digest userID username now) with
      | .error error => return .error (.failed error.message)
      | .ok (credentials, key, row) =>
        match ← storeBootstrap userID ⟨username, hash, now⟩ key row put with
        | .error (.failed message) => return .error (.failed ("bootstrap: " ++ message))
        | .error failure => return .error failure
        | .ok () => return .ok credentials

inductive Request (κ : Type) where
  | bootstrap (username password : String) (put : Option Document)
  | storeBootstrap (userID : String) (user : User) (key : κ) (row : SessionRow κ) (put : Option Document)
  | other (request : Auth.Request)

/-- The store hands out no credentials. -/
inductive Outcome (κ : Type) where
  | created (credentials : Option Credentials)
  | refused (failure : Failure)
  | other (outcome : Auth.Outcome κ)

def Outcome.ofExcept {α : Type} (credentials : α → Option Credentials) : Except Failure α → Outcome κ
  | .ok value => .created (credentials value)
  | .error failure => .refused failure

def body : Request κ → Effect κ (Outcome κ)
  | .bootstrap username password put => do return .ofExcept some (← bootstrap digest username password put)
  | .storeBootstrap userID user key row put => do
    return .ofExcept (fun _ => none) (← storeBootstrap userID user key row put)
  | .other request => do return .other (← ofAuth (Auth.body digest request))

end Manager

/-- What the environment decides about a call. -/
structure Luck where
  faults : Faults := fun _ => none
  hash : Except PasswordError String := .error .length
  auth : Auth.Luck := {}

/-- Time passes, and other parts write the settings. -/
structure Change where
  clock : ℤ
  settings : Option SettingsRow

section Service

variable {κ : Type} [DecidableEq κ] (zones : String → Except String Zone)

def Service.exec (s : Service κ) (luck : Luck) : (c : Call κ) → Option (Service κ × Reply c)
  | .auth c =>
    let fault := if s.breaksForeignKey c then some Tx.constraintFailed else luck.auth.fault
    (s.auth.exec { luck.auth with fault } c).map fun result => ({ s with auth := result.1 }, result.2)
  | .hashPassword _ => some (s, luck.hash)
  | .bootstrap userID user key row put =>
    some (transact (bootstrapTx zones luck.faults userID user key row put) s).swap

/-- Racing requests to one manager and its store. -/
def service (digest : String → κ) :
    Interleaving (Service κ) (Request κ) Luck Change (Reply (κ := κ)) (Outcome κ) where
  body := body digest
  exec s _ luck c := s.exec zones luck c
  world s change :=
    if s.auth.clock ≤ change.clock then
      some { auth := { s.auth with clock := change.clock }, settings := change.settings }
    else none
  clock s := s.auth.clock

end Service

end Helio.Bootstrap
