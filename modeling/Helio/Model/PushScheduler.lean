import Helio.Model.RelayState

/-! # The push scheduler of the Alexa relay

The closure keeps two flags. A call of it starts the loop unless one is running; the loop pushes, awaits
the push and goes round while another one has been asked for. What runs without an `await` is one step, so
other calls and changes of the state come while a push is awaited, between the end of a loop and its
`finally`, and before a call that `setImmediate` has put off. A push that throws at once is one that
settles before anything else happens.
-/

namespace Helio.Relay

/-- What a push is given. -/
structure Push where
  snapshot : Option Snapshot
  devices : List String
deriving DecidableEq

def Data.push (data : Data) : Push := ⟨data.snapshot, data.devices⟩

/-- What becomes of a push: how many devices were attempted and reached, or the message of its error. -/
abbrev PushResult := Except String (ℕ × ℕ)

/-- The calls of the logger that throw, with the message of an `info` call's error. An `error` call also counts
as throwing when its text cannot be made, because what was thrown has no message. -/
structure LoggerFaults where
  info : Option String := none
  error : Bool := false

inductive LogLine where
  | info (text : String)
  | error (text : String)
deriving DecidableEq

/-- The `catch` of the loop: what is logged, unless it throws itself. -/
def logFailure (faults : LoggerFaults) (message : String) : Option (List LogLine) :=
  if faults.error then none else some [.error s!"Alexa widget update failed: {message}"]

/-- The body of the loop after its push: what is logged, unless it throws. -/
def logResult (faults : LoggerFaults) : PushResult → Option (List LogLine)
  | .error message => logFailure faults message
  | .ok (attempted, delivered) =>
    if 0 < attempted then
      match faults.info with
      | none => some [.info s!"Alexa widget update: {delivered}/{attempted} delivered"]
      | some message => logFailure faults message
    else some []

/-- An asynchronous loop: it awaits its push, or has ended and its `finally` is due. -/
inductive PushLoop where
  | pushing
  | ended
deriving DecidableEq

/-- The state of the relay and the variables of the scheduler. The last two fields record the past and are
never read. -/
structure PushScheduler where
  data : Data
  running : Bool := false
  pending : Bool := false
  loops : List PushLoop := []
  /-- Calls that `setImmediate` has put off. -/
  immediates : ℕ := 0
  /-- The pushes that have been started. -/
  pushes : List Push := []
  log : List LogLine := []
deriving DecidableEq

namespace PushScheduler

variable (s : PushScheduler)

/-- `while (pending)`: the next push, or the end of the loop. -/
def whilePending : PushScheduler × PushLoop :=
  if s.pending then ({ s with pending := false, pushes := s.pushes ++ [s.data.push] }, .pushing) else (s, .ended)

def schedule : PushScheduler :=
  let asked := { s with pending := true }
  if asked.running then asked
  else
    let (after, loop) := { asked with running := true }.whilePending
    { after with loops := after.loops ++ [loop] }

/-- The push of a loop settles. An error in reporting it ends the loop, and nothing awaits that error. -/
def settle (i : ℕ) (result : PushResult) (faults : LoggerFaults) : PushScheduler :=
  match logResult faults result with
  | none => { s with loops := s.loops.set i .ended }
  | some lines =>
    let (after, loop) := { s with log := s.log ++ lines }.whilePending
    { after with loops := after.loops.set i loop }

/-- `finally`. -/
def finish (i : ℕ) : PushScheduler :=
  { s with
    running := false
    loops := s.loops.eraseIdx i
    immediates := if s.pending then s.immediates + 1 else s.immediates }

end PushScheduler

inductive PushEvent where
  | change (operation : Operation)
  | schedule
  | settle (loop : ℕ) (result : PushResult) (faults : LoggerFaults)
  | finish (loop : ℕ)
  | immediate

/-- An operation changes the state in memory at once, also where it is saved later or in vain. -/
def PushScheduler.step (s : PushScheduler) : PushEvent → Option PushScheduler
  | .change operation =>
    match operation.apply s.data with
    | .ok (some data) => some { s with data }
    | _ => some s
  | .schedule => some s.schedule
  | .settle i result faults => if s.loops[i]? = some .pushing then some (s.settle i result faults) else none
  | .finish i => if s.loops[i]? = some .ended then some (s.finish i) else none
  | .immediate =>
    match s.immediates with
    | 0 => none
    | immediates + 1 => some { s with immediates }.schedule

end Helio.Relay
