import Helio.Model.Application
import Helio.Model.Sessions

/-! # Settings requests

`PUT` of the settings as the handler runs it: it reads the stored settings, consumes a confirmation of
its session when the logger would change, and only then applies the settings under the lock. A request
carries its decoded document (or why it has none), the session cookie and the user it was
authenticated as.
-/

namespace Helio.Api

open Calendar Config

structure PutRequest where
  document : Except String Settings
  cookie : Option String
  principal : Option String

inductive Response where
  | error (status : ℕ) (code message : String)
  | saved (settings : Settings)
deriving DecidableEq

inductive Call (κ : Type) where
  | getSettings
  | consumeRecentConfirmation (key : κ)
  | applySettings (settings : Settings) (actorUserID : String)

@[reducible] def Reply {κ : Type} : Call κ → Type
  | .getSettings => Except StoreError Settings
  | .consumeRecentConfirmation _ => Bool
  | .applySettings _ _ => Except String Unit

abbrev Effect (κ : Type) := Program (Call κ) Reply

variable {κ : Type}

abbrev getSettings : Effect κ (Except StoreError Settings) := .call .getSettings .done

abbrev consumeRecentConfirmation (key : κ) : Effect κ Bool := .call (.consumeRecentConfirmation key) .done

abbrev applySettings (settings : Settings) (actorUserID : String) : Effect κ (Except String Unit) :=
  .call (.applySettings settings actorUserID) .done

def loggerConnectionIdentityChanged (current next : Settings) : Bool :=
  current.loggerHost ≠ next.loggerHost || current.loggerSerial ≠ next.loggerSerial ||
    current.loggerPort ≠ next.loggerPort || current.modbusSlave ≠ next.modbusSlave

section Handler

variable (env : Application.Environment) (digest : String → κ)

/-- What the handler does once the logger may change. -/
def saveSettings (request : PutRequest) (settings : Settings) : Effect κ Response :=
  match request.principal with
  | none => return .error 500 "internal_error" "settings update is unavailable"
  | some userID => do
    match ← applySettings settings userID with
    | .error _ => return .error 500 "internal_error" "settings could not be saved"
    | .ok () => return .saved settings

def putSettings (request : PutRequest) : Effect κ Response :=
  match request.document with
  | .error message => return .error 422 "invalid_settings" message
  | .ok document =>
    match validateSettings env.zones document env.allowPublicLogger with
    | .error message => return .error 422 "invalid_settings" message
    | .ok settings => do
      match ← getSettings with
      | .error _ => return .error 500 "internal_error" "settings could not be loaded"
      | .ok current =>
        if loggerConnectionIdentityChanged current settings then
          match request.cookie with
          | none => return .error 403 "reauthentication_required" "recent password confirmation is required"
          | some cookie =>
            if ← consumeRecentConfirmation (digest cookie) then saveSettings request settings
            else return .error 403 "reauthentication_required" "recent password confirmation is required"
        else saveSettings request settings

end Handler

/-- The application and the manager of its sessions. -/
structure Server (κ : Type) where
  app : Application.App
  manager : Auth.Manager κ

structure Luck where
  /-- Why the stored settings cannot be read. -/
  fault : Option String := none
  application : Application.Luck := {}

/-- What else happens: any call that the sessions make of their manager, and the clock. -/
inductive World (κ : Type) where
  | auth (luck : Auth.Luck) (call : Auth.Call κ)
  | clock (now : ℤ)

namespace Server

variable [DecidableEq κ] (env : Application.Environment) (server : Server κ)

def exec (luck : Luck) : (c : Call κ) → Option (Server κ × Reply c)
  | .getSettings =>
    some (server, match luck.fault with
      | some message => .error (.failed ("get settings: " ++ message))
      | none => Config.getSettings env.zones server.app.db.settings env.allowPublicLogger)
  | .consumeRecentConfirmation key =>
    (server.manager.exec {} (.consumeConfirmed key)).map fun effect => ({ server with manager := effect.1 }, effect.2)
  | .applySettings settings actorUserID =>
    (server.app.applySettings env luck.application settings actorUserID).map fun effect =>
      ({ server with app := effect.2 }, effect.1)

def change : World κ → Option (Server κ)
  | .auth luck call => (server.manager.exec luck call).map fun effect => { server with manager := effect.1 }
  | .clock now => if server.manager.clock ≤ now then some { server with manager := { server.manager with clock := now } }
    else none

end Server

/-- Settings requests to one server. -/
def server [DecidableEq κ] (env : Application.Environment) (digest : String → κ) :
    Interleaving (Server κ) PutRequest Luck (World κ) (Reply (κ := κ)) Response where
  body := putSettings env digest
  exec s _ luck c := s.exec env luck c
  world s happening := s.change happening
  clock s := s.manager.clock

end Helio.Api
