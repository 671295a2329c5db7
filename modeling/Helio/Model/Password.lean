import Helio.Machine.Base64
import Helio.Model.Bootstrap

/-! # Password hashes

A password is stored as its Argon2id key, in a text with the parameters and the salt. A password is a text, so
it is valid UTF-8. The manager that hashes and verifies its passwords so is the one of the other modules but for
these two calls. The key derivation is given.
-/

namespace Helio.Password

open Auth (PasswordError)
open Bootstrap (Service Outcome Change)
open Calendar (Zone)

def argonMemory : ℕ := 64 * 1024
def argonIterations : ℕ := 3
def argonParallelism : ℕ := 2
def argonSaltBytes : ℕ := 16
def argonKeyBytes : ℕ := 32

structure ArgonParams where
  memory : ℕ
  iterations : ℕ
  parallelism : ℕ
deriving DecidableEq

def ArgonParams.fixed : ArgonParams := ⟨argonMemory, argonIterations, argonParallelism⟩

/-- `argon2.IDKey`: a key of so many bytes from a password and a salt. -/
abbrev Kdf := String → List Byte → ArgonParams → (keyBytes : ℕ) → Vector Byte keyBytes

abbrev Salt := Vector Byte argonSaltBytes

abbrev Key := Vector Byte argonKeyBytes

def validatePassword (password : String) : Option PasswordError :=
  if password.toList.length < 12 ∨ 128 < password.utf8ByteSize then some .length else none

/-- `m=%d,t=%d,p=%d`. -/
def ArgonParams.text (params : ArgonParams) : List Char :=
  "m=".toList ++ Nat.toDigits 10 params.memory ++ ",t=".toList ++ Nat.toDigits 10 params.iterations ++ ",p=".toList ++
    Nat.toDigits 10 params.parallelism

def hashText (salt : Salt) (key : Key) : String :=
  String.ofList ("$argon2id$v=19$".toList ++ ArgonParams.fixed.text ++ '$' :: Base64.std.encode salt.toList ++
    '$' :: Base64.std.encode key.toList)

/-- A number of so many bits behind a label. -/
def scanUint (label : String) (bits : ℕ) (text : List Char) : Option ℕ :=
  if label.toList.isPrefixOf text then
    (Config.parseUint (String.ofList (text.drop label.toList.length)) bits).toOption
  else none

/-- What `Sscanf` reads, if `Sprintf` makes the same text of it. -/
def scanParams (text : List Char) : Option ArgonParams :=
  match text.splitOn ',' with
  | [memory, iterations, parallelism] => do
    let params : ArgonParams :=
      ⟨← scanUint "m=" 32 memory, ← scanUint "t=" 32 iterations, ← scanUint "p=" 8 parallelism⟩
    guard (text = params.text)
    return params
  | _ => none

def byteLength (text : List Char) : ℕ := (String.ofList text).utf8ByteSize

/-- A field of base64 that has to be so many bytes. -/
def decodeField (text : List Char) (size : ℕ) (message : String) : Except PasswordError (List Byte) :=
  match Base64.std.decode text with
  | none => .error (.failed message)
  | some bytes => if bytes.length ≠ size then .error (.failed message) else .ok bytes

def parsePasswordHash (encoded : String) : Except PasswordError (ArgonParams × List Byte × List Byte) :=
  if 256 < encoded.utf8ByteSize ∨ encoded.toList.count '$' ≠ 5 then .error (.failed "invalid password hash format")
  else
    match encoded.toList.splitOn '$' with
    | [start, algorithm, version, parameters, salt, key] =>
      if start ≠ [] ∨ algorithm ≠ "argon2id".toList ∨ version ≠ "v=19".toList then
        .error (.failed "invalid password hash format")
      else
        match scanParams parameters with
        | none => .error (.failed "invalid password hash parameters")
        | some params =>
          if params ≠ .fixed then .error (.failed "password hash parameters out of bounds")
          else if byteLength salt < 22 ∨ 86 < byteLength salt ∨ byteLength key < 22 ∨ 86 < byteLength key then
            .error (.failed "password hash fields out of bounds")
          else do
            let salt ← decodeField salt argonSaltBytes "invalid password hash salt"
            let key ← decodeField key argonKeyBytes "invalid password hash key"
            return (params, salt, key)
    | _ => .error (.failed "invalid password hash format")

section Hashing

variable (kdf : Kdf)

/-- The key of a password under a salt. -/
def keyOf (password : String) (salt : Salt) : Key := kdf password salt.toList .fixed argonKeyBytes

def hashPassword (password : String) (entropy : Except String Salt) : Except PasswordError String :=
  match validatePassword password with
  | some error => .error error
  | none =>
    match entropy with
    | .error message => .error (.failed ("generate password salt: " ++ message))
    | .ok salt => .ok (hashText salt (keyOf kdf password salt))

def verifyPassword (encoded password : String) : Except PasswordError Bool :=
  match validatePassword password with
  | some error => .error error
  | none => do
    let (params, salt, expected) ← parsePasswordHash encoded
    return (kdf password salt params expected.length).toList = expected

end Hashing

/-- A verdict and an error, as the verifier returns them. -/
def verdict : Except PasswordError Bool → Bool × Option PasswordError
  | .ok matches_ => (matches_, none)
  | .error error => (false, some error)

/-- A request to the manager. -/
inductive Request where
  | bootstrap (username password : String) (put : Option Bootstrap.Document)
  | other (request : Auth.Request)

def body {κ : Type} (digest : String → κ) : Request → Bootstrap.Effect κ (Outcome κ)
  | .bootstrap username password put => Bootstrap.body digest (.bootstrap username password put)
  | .other request => Bootstrap.body digest (.other request)

/-- What the environment decides about a call, and the salt that the random source gives to a hash. -/
structure Luck where
  service : Bootstrap.Luck := {}
  entropy : Except String Salt := .error "unexpected EOF"

section Service

variable {κ : Type} [DecidableEq κ] (zones : String → Except String Zone) (kdf : Kdf)

def exec (s : Service κ) (luck : Luck) : (c : Bootstrap.Call κ) → Option (Service κ × Bootstrap.Reply c)
  | .hashPassword password => some (s, hashPassword kdf password luck.entropy)
  | .auth (.verifyPassword hash password) => some (s, verdict (verifyPassword kdf hash password))
  | c => s.exec zones luck.service c

/-- Racing requests to a manager that hashes and verifies its passwords. -/
def keeper (digest : String → κ) :
    Interleaving (Service κ) Request Luck Change (Bootstrap.Reply (κ := κ)) (Outcome κ) where
  body := body digest
  exec s _ luck c := exec zones kdf s luck c
  world := (Bootstrap.service zones digest).world
  clock s := s.auth.clock

end Service

end Helio.Password
