import Helio.Machine.Base64
import Helio.Machine.Table
import Mathlib.Data.Int.Notation

/-! # The secrets of the integrations

A secret is stored as its JSON text, sealed under a key that the operator configures or that is kept in a file
beside the database. Sealing and the JSON texts are given. A process is started, stores secrets, and may end at
any point; the file may be left cut short when its writing fails.
-/

namespace Helio.Secrets

def keySize : ℕ := 32

def nonceSize : ℕ := 12

abbrev Nonce := Vector Byte nonceSize

/-- A text is sealed under a key, a nonce and an additional text, and opens under these: `sealText` is `Seal` of
AES-GCM, `openText` is `Open`. -/
structure Cipher where
  sealText : (key nonce plain : List Byte) → (additional : String) → List Byte
  openText : (key nonce ciphertext : List Byte) → (additional : String) → Option (List Byte)
  opens : ∀ key nonce plain additional,
    openText key nonce (sealText key nonce plain additional) additional = some plain

/-- The JSON text of a value, which reads back. -/
structure Json (V : Type) where
  marshal : V → Except String (List Byte)
  unmarshal : List Byte → Option V
  reads : ∀ value text, marshal value = .ok text → unmarshal text = some value

/-- `integration_secrets`, without its stamps. -/
abbrev SecretTable := Table String (List Char)

structure SecretStore where
  key : List Byte
  size : key.length = keySize

def newSecretStore (key : List Byte) : Except String SecretStore :=
  if size : key.length = keySize then .ok ⟨key, size⟩
  else .error "HELIO_SECRETS_KEY must be a base64-encoded 32-byte key"

/-- What happens to the key file: an error of its reading, the key that the random source gives, and an error
of its writing with the number of characters that are written, if the file is made at all. -/
structure FileLuck where
  read : Option String := none
  entropy : Except String (Vector Byte keySize) := .error "unexpected EOF"
  write : Option (String × Option ℕ) := none

def loadOrCreateSecretsKey (luck : FileLuck) (file : Option (List Char)) :
    Except String (List Byte) × Option (List Char) :=
  match luck.read, file with
  | some message, _ => (.error ("read secrets key: " ++ message), file)
  | none, some raw =>
    match Base64.std.decode raw with
    | none => (.error "stored secrets key is invalid", file)
    | some key => if key.length ≠ keySize then (.error "stored secrets key is invalid", file) else (.ok key, file)
  | none, none =>
    match luck.entropy with
    | .error message => (.error ("generate secrets key: " ++ message), none)
    | .ok key =>
      let text := Base64.std.encode key.toList
      match luck.write with
      | some (message, written) => (.error ("store secrets key: " ++ message), written.map text.take)
      | none => (.ok key.toList, some text)

/-- What happens to a statement, and the nonce that the random source gives. -/
structure Luck where
  fault : Option String := none
  entropy : Except String Nonce := .error "unexpected EOF"

section Store

variable {V : Type} (cipher : Cipher) (json : Json V) (store : SecretStore) (rows : SecretTable)

def SecretStore.put (luck : Luck) (name : String) (value : V) : Except String Unit × SecretTable :=
  match json.marshal value with
  | .error message => (.error ("encode secret: " ++ message), rows)
  | .ok plain =>
    match luck.entropy with
    | .error message => (.error ("generate secret nonce: " ++ message), rows)
    | .ok nonce =>
      let ciphertext := cipher.sealText store.key nonce.toList plain name
      let payload := Base64.std.encode (nonce.toList ++ ciphertext)
      match luck.fault with
      | some message => (.error ("save secret: " ++ message), rows)
      | none => (.ok (), rows.upsert name payload)

def SecretStore.get (fault : Option String) (name : String) : Except String (Option V) :=
  match fault, rows.find? name with
  | some message, _ => .error ("load secret: " ++ message)
  | none, none => .ok none
  | none, some payload =>
    match Base64.std.decode payload with
    | none => .error "stored secret is corrupt"
    | some raw =>
      if raw.length < nonceSize then .error "stored secret is corrupt"
      else
        match cipher.openText store.key (raw.take nonceSize) (raw.drop nonceSize) name with
        | none => .error "stored secret cannot be decrypted"
        | some plain =>
          match json.unmarshal plain with
          | none => .error "stored secret is corrupt"
          | some value => .ok (some value)

end Store

/-- The key file and the table, and the process if one is running. The record of the values that were stored last
is never read. -/
structure Installation (V : Type) where
  keyFile : Option (List Char)
  rows : SecretTable
  process : Option SecretStore
  stored : Table String V

def Installation.fresh {V : Type} : Installation V := ⟨none, .empty, none, .empty⟩

inductive Event (V : Type) where
  | start (luck : FileLuck)
  | stop
  | put (luck : Luck) (name : String) (value : V)

section Installation

variable {V : Type} (cipher : Cipher) (json : Json V) (configured : List Byte) (s : Installation V)

/-- A process takes the configured key, if there is one, and the one of the file else. -/
def Installation.start (luck : FileLuck) : Installation V :=
  let (key, keyFile) :=
    if configured = [] then loadOrCreateSecretsKey luck s.keyFile else (.ok configured, s.keyFile)
  { s with keyFile, process := (key.bind newSecretStore).toOption }

def Installation.put (luck : Luck) (name : String) (value : V) : Installation V :=
  match s.process with
  | none => s
  | some store =>
    match store.put cipher json s.rows luck name value with
    | (.error _, rows) => { s with rows }
    | (.ok (), rows) => { s with rows, stored := s.stored.upsert name value }

def Installation.step : Event V → Installation V
  | .start luck => s.start configured luck
  | .stop => { s with process := none }
  | .put luck name value => s.put cipher json luck name value

end Installation

end Helio.Secrets
