import Mathlib.Algebra.GroupWithZero.Nat
import Mathlib.Algebra.Order.Ring.Rat
import Mathlib.Data.Int.Notation
import Mathlib.Data.List.Dedup
import Mathlib.Data.Rat.Defs
import Mathlib.Tactic.Common

/-! # The state of the Alexa relay

A call changes the state in memory and appends the writing of its text to a queue of promises: each
is chained on the one before by `then`, so it is carried out when that is fulfilled and rejected with
the same reason when that is rejected. Between two steps of the queue other calls may be made. The
file holds the text of a state, which is modelled by the state: two texts are equal when the states
are. Whether the writing and the renaming for a call fail is its `Fate`.
-/

namespace Helio.Relay

/-- A snapshot as it is stored: in milliseconds, with numbers that are finite. -/
structure Snapshot where
  observedAt : ℤ
  acPowerW : ℚ
  energyTodayWh : ℚ
  status : String
  stale : Bool
deriving DecidableEq

structure Data where
  snapshot : Option Snapshot
  devices : List String
deriving DecidableEq

def emptyState : Data := ⟨none, []⟩

/-- `value.length`. -/
def utf16Length (value : String) : ℕ := (value.toList.map fun c => if c.toNat < 0x10000 then 1 else 2).sum

def deviceIdPrefix : List Char := "amzn1.ask.device.".toList

def validDeviceId (value : String) : Bool := deviceIdPrefix.isPrefixOf value.toList && utf16Length value ≤ 512

/-- What reading and parsing the file gives; `devices` is missing when it is not an array. -/
inductive FileContent where
  | missing
  | failed (message : String)
  | parsed (version : ℤ) (snapshot : Option Snapshot) (devices : Option (List String))

/-- `[...new Set(values)]`, in the order of the first occurrences. -/
def uniqueValues (values : List String) : List String := values.reverse.dedup.reverse

def load : FileContent → Except String Data
  | .missing => .ok emptyState
  | .failed message => .error ("load state: " ++ message)
  | .parsed version snapshot devices =>
    match devices with
    | none => .error "load state: unsupported state format"
    | some devices =>
      if version ≠ 1 then .error "load state: unsupported state format"
      else .ok ⟨snapshot, (uniqueValues (devices.filter validDeviceId)).take 20⟩

namespace Data

variable (data : Data)

/-- The state to save, if the snapshot is neither older than the stored one nor the same. -/
def updateSnapshot (snapshot : Snapshot) : Option Data :=
  match data.snapshot with
  | some current =>
    if snapshot.observedAt < current.observedAt then none
    else if current = snapshot then none
    else some { data with snapshot := some snapshot }
  | none => some { data with snapshot := some snapshot }

def addDevice (deviceId : String) : Except String (Option Data) :=
  if !validDeviceId deviceId || deviceId ∈ data.devices then .ok none
  else if 20 ≤ data.devices.length then .error "device limit reached"
  else .ok (some { data with devices := data.devices ++ [deviceId] })

def removeDevice (deviceId : String) : Option Data :=
  let devices := data.devices.filter fun item => item ≠ deviceId
  if devices.length = data.devices.length then none else some { data with devices }

end Data

inductive Operation where
  | updateSnapshot (snapshot : Snapshot)
  | addDevice (deviceId : String)
  | removeDevice (deviceId : String)

/-- A call throws, returns false, or has a state to save. -/
def Operation.apply (data : Data) : Operation → Except String (Option Data)
  | .updateSnapshot snapshot => .ok (data.updateSnapshot snapshot)
  | .addDevice deviceId => data.addDevice deviceId
  | .removeDevice deviceId => .ok (data.removeDevice deviceId)

structure Fate where
  write : Option String := none
  rename : Option String := none

/-- A call that saves: the state in memory before it and after it. -/
structure Save where
  before : Data
  after : Data
  fate : Fate

/-- The store of a running relay: the state in memory, the two files, and the promises. A call that has
saved returns true; one whose promise is rejected throws. -/
structure StateStore where
  memory : Data
  file : Option Data
  temporary : Option Data
  /-- Why the last promise that was carried out was rejected. -/
  rejected : Option String
  /-- The promises that are pending, oldest first. -/
  queue : List Save
  /-- The temporary file of the oldest has been written. -/
  written : Bool
  /-- The promises that are settled, latest last. -/
  settled : List (Save × Except String Unit)

namespace StateStore

/-- A store that has been loaded. -/
def opened (memory : Data) (file : Option Data) : StateStore := ⟨memory, file, none, none, [], false, []⟩

variable (s : StateStore)

/-- The part of a call before it awaits its promise. -/
def call (operation : Operation) (fate : Fate) : StateStore :=
  match operation.apply s.memory with
  | .ok (some after) => { s with memory := after, queue := s.queue ++ [⟨s.memory, after, fate⟩] }
  | _ => s

def settle (save : Save) (rest : List Save) (result : Except String Unit) : StateStore :=
  { s with queue := rest, written := false, settled := s.settled ++ [(save, result)] }

/-- The next step of the queue of promises. -/
def turn : Option StateStore :=
  match s.queue with
  | [] => none
  | save :: rest =>
    match s.rejected with
    | some reason => some (s.settle save rest (.error reason))
    | none =>
      if s.written then
        match save.fate.rename with
        | some reason => some { s.settle save rest (.error reason) with rejected := some reason }
        | none => some { s.settle save rest (.ok ()) with file := s.temporary, temporary := none }
      else
        match save.fate.write with
        | some reason => some { s.settle save rest (.error reason) with temporary := none, rejected := some reason }
        | none => some { s with temporary := some save.after, written := true }

end StateStore

inductive Event where
  | call (operation : Operation) (fate : Fate)
  | turn

def StateStore.step (s : StateStore) : Event → Option StateStore
  | .call operation fate => some (s.call operation fate)
  | .turn => s.turn

end Helio.Relay
