import Helio.Model.Sessions

/-! # The gateway of the private endpoints

A request of a private endpoint passes the session check, the check that the setup is done and, where it can
change something, the check of its origin and of its CSRF token, before its handler begins. The check of the
token compares with the session as it was looked up. Reading the session of the page replaces its token. As for
sessions, no random token is issued twice; the record of issued CSRF digests is never read. `url.Parse` gives
the parts of the origin header.
-/

namespace Helio.Gateway

open Auth

/-- What `url.Parse` makes of an origin header. -/
structure Origin where
  scheme : String
  user : Bool
  host : String
  path : String
  rawQuery : String
  fragment : String
deriving DecidableEq

inductive Method where
  | get | head | options | post | put
deriving DecidableEq

inductive Endpoint where
  | login (username password : String)
  | session
  | confirmPassword (password : String)
  | logout
  /-- A private endpoint under GET, POST or PUT. -/
  | query (path : String)
  | create (path : String)
  | replace (path : String)
deriving DecidableEq

def Endpoint.method : Endpoint → Method
  | session | query _ => .get
  | login _ _ | confirmPassword _ | logout | create _ => .post
  | replace _ => .put

/-- A request: the session cookie and the origin are there or not, a header that is absent is empty. -/
structure HttpRequest where
  endpoint : Endpoint
  cookie : Option String
  csrfToken : String
  origin : Option Origin
  secure : Bool
  host : String
  remoteAddr : String
deriving DecidableEq

/-- `strings.EqualFold` on ASCII texts. -/
def equalFold (left right : String) : Bool := left.toLower = right.toLower

def sameOrigin (request : HttpRequest) : Bool :=
  match request.origin with
  | none => false
  | some parsed =>
    let scheme := if request.secure then "https" else "http"
    !parsed.user && parsed.host ≠ "" && (parsed.path = "" || parsed.path = "/") && parsed.rawQuery = "" &&
      parsed.fragment = "" && equalFold parsed.scheme scheme && equalFold parsed.host request.host

inductive Call (κ : Type) where
  | auth (c : Auth.Call κ)
  | bootstrapOpen
  | rotateSessionCSRF (key csrfHash : κ)
  /-- The handler of the endpoint begins. -/
  | handle (endpoint : Endpoint)

@[reducible] def Reply {κ : Type} : Call κ → Type
  | .auth c => Auth.Reply c
  | .bootstrapOpen => Except String Bool
  | .rotateSessionCSRF _ _ => Option StoreError
  | .handle _ => Unit

abbrev Effect (κ : Type) := Program (Call κ) Reply

inductive Response (κ : Type) where
  | error (status : ℕ) (code message : String)
  | credentials (credentials : Credentials)
  | session (principal : Principal κ) (csrfToken : String)
  | noContent
  | handled

variable {κ α : Type}

/-- An operation of the manager. -/
def ofManager (operation : Auth.Effect κ α) : Effect κ α := operation.relabel .auth fun _ answer => answer

def unauthorized : Response κ := .error 401 "unauthorized" "authentication required"

section Handlers

variable [DecidableEq κ] (digest : String → κ) (request : HttpRequest)

def requireSession (next : String → Principal κ → Effect κ (Response κ)) : Effect κ (Response κ) :=
  match request.cookie with
  | none => return unauthorized
  | some token => do
    match ← ofManager (authenticate digest token) with
    | .error _ => return unauthorized
    | .ok principal => next token principal

def bootstrapGate (next : Effect κ (Response κ)) : Effect κ (Response κ) :=
  .call .bootstrapOpen fun
    | .error _ => return .error 500 "internal_error" "bootstrap state unavailable"
    | .ok true => return .error 503 "bootstrap_required" "initial setup is required"
    | .ok false => next

def requireCSRF (principal : Principal κ) (next : Effect κ (Response κ)) : Effect κ (Response κ) :=
  if request.endpoint.method = .get ∨ request.endpoint.method = .head ∨ request.endpoint.method = .options then next
  else if request.csrfToken = "" ∨ sameOrigin request = false ∨ digest request.csrfToken ≠ principal.csrfHash then
    return .error 403 "forbidden" "request origin or CSRF token is invalid"
  else next

def requireSameOrigin (next : Effect κ (Response κ)) : Effect κ (Response κ) :=
  if sameOrigin request then next else return .error 403 "forbidden" "request origin is invalid"

def rotateCSRF (rawSessionToken : String) : Effect κ (Except AuthError String) :=
  if decodesToToken rawSessionToken then do
    match ← ofManager randomToken with
    | .error message => return .error (.failed ("generate authentication token: " ++ message))
    | .ok csrf =>
      .call (.rotateSessionCSRF (digest rawSessionToken) (digest csrf)) fun
        | some .notFound => return .error .unauthenticated
        | some (.failed message) => return .error (.failed ("rotate csrf: " ++ message))
        | none => return .ok csrf
  else return .error .unauthenticated

def serveLogin (username password : String) : Effect κ (Response κ) := do
  match ← ofManager (login digest request.remoteAddr username password) with
  | .error (.rateLimited _) => return .error 429 "rate_limited" "too many login attempts"
  | .error .invalidCredentials => return .error 401 "invalid_credentials" "username or password is invalid"
  | .error _ => return .error 500 "internal_error" "login failed"
  | .ok credentials => return .credentials credentials

def serveSession (token : String) (principal : Principal κ) : Effect κ (Response κ) := do
  match ← rotateCSRF digest token with
  | .error _ => return .error 500 "internal_error" "session could not be refreshed"
  | .ok csrf => return .session principal csrf

def serveConfirmPassword (token password : String) : Effect κ (Response κ) := do
  match ← ofManager (confirmPassword digest token request.remoteAddr password) with
  | .error (.rateLimited _) => return .error 429 "rate_limited" "too many password confirmation attempts"
  | .error .invalidCredentials => return .error 401 "invalid_credentials" "password is invalid"
  | .error _ => return .error 500 "internal_error" "password confirmation failed"
  | .ok _ => return .noContent

def serveLogout (token : String) : Effect κ (Response κ) := do
  match ← ofManager (logout digest token) with
  | .error _ => return .error 500 "internal_error" "logout failed"
  | .ok _ => return .noContent

/-- What the handler of an endpoint does with its session; the other handlers are not looked into. -/
def handler (token : String) (principal : Principal κ) : Effect κ (Response κ) :=
  match request.endpoint with
  | .session => serveSession digest token principal
  | .confirmPassword password => serveConfirmPassword digest request token password
  | .logout => serveLogout digest token
  | .login _ _ | .query _ | .create _ | .replace _ => return .handled

/-- Which checks an endpoint is behind. -/
def serve : Effect κ (Response κ) :=
  let begin_ token principal := .call (.handle request.endpoint) fun _ => handler digest request token principal
  match request.endpoint with
  | .login username password => requireSameOrigin request (serveLogin digest request username password)
  | .session | .query _ =>
    requireSession digest request fun token principal => bootstrapGate (begin_ token principal)
  | .confirmPassword _ | .logout | .create _ | .replace _ =>
    requireSession digest request fun token principal =>
      bootstrapGate (requireCSRF digest request principal (begin_ token principal))

end Handlers

/-- The CSRF digest that a call stores with a new session. -/
def csrf? : Auth.Call κ → Option κ
  | .createSession _ row => some row.csrfHash
  | _ => none

/-- The manager, and the digests of all CSRF tokens that were issued. -/
structure Gate (κ : Type) where
  manager : Manager κ
  issued : List κ

def Gate.exec [DecidableEq κ] (g : Gate κ) (luck : Luck) : (c : Call κ) → Option (Gate κ × Reply c)
  | .auth c =>
    -- The digest of a fresh random token has never been stored.
    match csrf? c with
    | none => (g.manager.exec luck c).map fun effect => ({ g with manager := effect.1 }, effect.2)
    | some csrfHash =>
      if csrfHash ∈ g.issued then none
      else (g.manager.exec luck c).map fun effect => (⟨effect.1, csrfHash :: g.issued⟩, effect.2)
  | .bootstrapOpen =>
    some (g, match luck.fault with
      | some message => .error ("check bootstrap state: " ++ message)
      | none => .ok g.manager.users.rows.isEmpty)
  | .rotateSessionCSRF key csrfHash =>
    if csrfHash ∈ g.issued then none
    else match luck.fault, g.manager.sessions.find? key with
      | some message, _ => some (g, some (.failed ("rotate session csrf: " ++ message)))
      | none, none => some (g, some .notFound)
      | none, some row =>
        some (⟨{ g.manager with sessions := g.manager.sessions.upsert key { row with csrfHash } }, csrfHash :: g.issued⟩,
          none)
  | .handle _ => some (g, ())

/-- Requests to one gateway, under a clock that never goes back. -/
def gateway [DecidableEq κ] (digest : String → κ) :
    Interleaving (Gate κ) HttpRequest Luck ℤ (@Reply κ) (Response κ) where
  body := serve digest
  exec g _ luck c := g.exec luck c
  world g clock := if g.manager.clock ≤ clock then some { g with manager := { g.manager with clock } } else none
  clock g := g.manager.clock

end Helio.Gateway
