import Helio.Machine.Table
import Mathlib.Data.List.Sublists
import Mathlib.Logic.Function.Basic

/-! # The login limiter

Buckets are objects of a heap, known by the number of their allocation, so a bucket outlives its
deletion as long as an admission refers to it. A key is what the limiter computes from the remote
address and the user name. Times are nanoseconds. The element pointers of a bucket are flags: the
expiry list holds each bucket once, and a removal takes a bucket out of the list of its failure
count only.
-/

namespace Helio.Auth

def loginFailureLimit : ℕ := 5

def loginWindow : ℤ := 15 * 60 * 1000000000

/-- `time.Second`. -/
def timeSecond : ℤ := 1000000000

structure Bucket (κ : Type) where
  key : κ
  failures : ℕ := 0
  pending : ℕ := 0
  expiresAt : ℤ
  expiryElement : Bool := false
  evictionElement : Bool := false

/-- The failure count after one more failure. -/
def countFailure (failures : ℕ) : ℕ := if failures < loginFailureLimit then failures + 1 else failures

def Bucket.fail {κ : Type} (bucket : Bucket κ) : Bucket κ :=
  { bucket with failures := countFailure bucket.failures }

structure Limiter (κ : Type) where
  capacity : ℕ
  heap : ℕ → Bucket κ
  next : ℕ
  buckets : Table κ ℕ
  expiry : List ℕ
  evictable : ℕ → List ℕ

variable {κ : Type} [DecidableEq κ]

namespace Limiter

variable (l : Limiter κ)

/-- Write to the bucket at an address. -/
def write (g : ℕ) (f : Bucket κ → Bucket κ) : Limiter κ :=
  { l with heap := Function.update l.heap g (f (l.heap g)) }

def addEvictable (g : ℕ) : Limiter κ :=
  if (l.heap g).evictionElement then l
  else
    let failures := (l.heap g).failures
    { l.write g ({ · with evictionElement := true }) with
      evictable := Function.update l.evictable failures (l.evictable failures ++ [g]) }

def removeEvictable (g : ℕ) : Limiter κ :=
  if (l.heap g).evictionElement then
    let failures := (l.heap g).failures
    { l.write g ({ · with evictionElement := false }) with
      evictable := Function.update l.evictable failures ((l.evictable failures).erase g) }
  else l

def deleteBucket (g : ℕ) : Limiter κ :=
  if l.buckets.find? (l.heap g).key = some g then
    let l := { l with buckets := l.buckets.erase (l.heap g).key }
    let l :=
      if (l.heap g).expiryElement then
        { l.write g ({ · with expiryElement := false }) with expiry := l.expiry.erase g }
      else l
    l.removeEvictable g
  else l

def pruneFrom (now : ℤ) : ℕ → Limiter κ → Limiter κ
  | 0, l => l
  | fuel + 1, l =>
    match l.expiry with
    | [] => l
    | g :: _ => if now < (l.heap g).expiresAt then l else pruneFrom now fuel (l.deleteBucket g)

/-- Delete expired buckets from the front of the expiry list, which gets shorter with each. -/
def pruneExpired (now : ℤ) : Limiter κ := pruneFrom now l.expiry.length l

/-- The oldest bucket without pending work among those with the fewest failures. -/
def victim : Option ℕ :=
  (List.range (loginFailureLimit + 1)).findSome? fun failures => (l.evictable failures).head?

/-- Room for one more bucket, or nothing when every bucket of a full table has work pending. -/
def makeRoom : Option (Limiter κ) :=
  if l.buckets.rows.length < l.capacity then some l else l.victim.map l.deleteBucket

/-- Store a new bucket. -/
def create (bucket : Bucket κ) : Limiter κ :=
  { l with
    heap := Function.update l.heap l.next { bucket with expiryElement := true }
    next := l.next + 1
    buckets := l.buckets.upsert bucket.key l.next
    expiry := l.expiry ++ [l.next] }

def retryDuration (expiresAt now : ℤ) : ℤ :=
  if expiresAt - now < timeSecond then timeSecond else expiresAt - now

/-- Reserve an attempt: the limiter, the admitted bucket if any, and the delay before a retry. -/
def admitLogin (key : κ) (now : ℤ) : Limiter κ × Option ℕ × ℤ :=
  let l := l.pruneExpired now
  match l.buckets.find? key with
  | some g =>
    if loginFailureLimit ≤ (l.heap g).failures + (l.heap g).pending then
      (l, none, retryDuration (l.heap g).expiresAt now)
    else
      ((l.removeEvictable g).write g fun bucket => { bucket with pending := bucket.pending + 1 }, some g, 0)
  | none =>
    match l.makeRoom with
    | none => (l, none, timeSecond)
    | some l => (l.create { key, pending := 1, expiresAt := now + loginWindow }, some l.next, 0)

def recordLateFailure (key : κ) (now : ℤ) : Limiter κ :=
  match l.buckets.find? key with
  | some g =>
    let l := (l.removeEvictable g).write g Bucket.fail
    if (l.heap g).pending = 0 then l.addEvictable g else l
  | none =>
    match l.makeRoom with
    | none => l
    | some l => (l.create { key, failures := 1, expiresAt := now + loginWindow }).addEvictable l.next

end Limiter

inductive AdmissionResult where
  | failure | success | cancel
deriving DecidableEq

namespace Limiter

variable (l : Limiter κ)

/-- The settled counts of an admission's own bucket. -/
def settle (g : ℕ) (result : AdmissionResult) : Limiter κ :=
  let l := l.write g fun bucket => { bucket with pending := bucket.pending - 1 }
  let l := if result = .failure then l.write g Bucket.fail else l
  if (l.heap g).pending = 0 then
    if (l.heap g).failures = 0 then l.deleteBucket g else l.addEvictable g
  else l

/-- Complete an admission of the key that was reserved in the bucket `g`. -/
def complete (key : κ) (g : ℕ) (result : AdmissionResult) (now : ℤ) : Limiter κ :=
  let l := l.pruneExpired now
  let current := l.buckets.find? key
  if result = .success then
    match current with
    | some current => l.deleteBucket current
    | none => l
  else if current = some g then l.settle g result
  else if result = .failure then l.recordLateFailure key now
  else l

/-- A new limiter; what its heap holds before the first allocation is never read. -/
def newLimiter (capacity : ℕ) (heap : ℕ → Bucket κ) : Limiter κ where
  capacity
  heap
  next := 0
  buckets := Table.empty
  expiry := []
  evictable _ := []

end Limiter

/-- A reserved attempt; the result is set by its first completion. -/
structure Admission (κ : Type) where
  key : κ
  bucket : ℕ
  result : Option AdmissionResult := none

/-- The limiter with every admission it has handed out and its last clock reading. -/
structure Login (κ : Type) where
  limiter : Limiter κ
  admissions : List (Admission κ)
  clock : ℤ

inductive LoginEvent (κ : Type) where
  | attempt (key : κ) (now : ℤ)
  | complete (admission : ℕ) (result : AdmissionResult) (now : ℤ)

def LoginEvent.now {κ : Type} : LoginEvent κ → ℤ
  | attempt _ now => now
  | complete _ _ now => now

namespace Login

def start (capacity : ℕ) (heap : ℕ → Bucket κ) (clock : ℤ) : Login κ where
  limiter := Limiter.newLimiter capacity heap
  admissions := []
  clock

def next (s : Login κ) : LoginEvent κ → Login κ
  | .attempt key now =>
    match s.limiter.admitLogin key now with
    | (limiter, none, _) => { s with limiter, clock := now }
    | (limiter, some bucket, _) =>
      { limiter, admissions := s.admissions ++ [{ key, bucket }], clock := now }
  | .complete i result now =>
    match s.admissions[i]? with
    | some a =>
      -- `once.Do` runs the first completion only.
      if a.result = none then
        { limiter := s.limiter.complete a.key a.bucket result now
          admissions := s.admissions.set i { a with result := some result }
          clock := now }
      else s
    | none => s

/-- The clock never goes back. -/
def readable (s : Login κ) (e : LoginEvent κ) : Prop := s.clock ≤ e.now

end Login

end Helio.Auth
