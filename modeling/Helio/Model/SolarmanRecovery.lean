import Helio.Model.Collector

/-! # The recovery goroutine

`startSolarmanRecovery` listens to the collector through a slot that keeps the latest event only, and
calls `scheduleSolarmanRecovery` when a snapshot follows an outage. The collector and the goroutine take
steps in any order; publishing replaces an event that was not received yet. For every success that ends
a stale state the number of calls made until then is kept.
-/

namespace Helio.Collector

/-- The loop body: whether the inverter counts as offline afterwards, and whether a recovery is
scheduled. -/
def handleRecovery (offline : Bool) (event : Event) : Bool × Bool :=
  if event.state.stale then (true, false)
  else if event.kind = .snapshot ∧ offline then (false, true)
  else (offline, false)

structure Recovery where
  machine : Machine
  slot : Option Event := none
  offline : Bool := true
  /-- The calls of `scheduleSolarmanRecovery` so far. -/
  scheduled : ℕ := 0
  /-- For every success after a stale state, the calls made before it. -/
  recoveries : List ℕ := []

inductive RecoveryAction where
  | collector (action : Action)
  | receive

namespace Recovery

variable (s : Recovery)

/-- The success that is about to be recorded ends a stale state. -/
def endsOutage (action : Action) : Bool :=
  match action with
  | .recordSuccess => s.machine.state.stale
  | _ => false

def step : RecoveryAction → Option Recovery
  | .collector action =>
    (s.machine.act action).map fun effect =>
      { s with
        machine := effect.1
        slot := effect.2.or s.slot
        recoveries := if s.endsOutage action then s.recoveries ++ [s.scheduled] else s.recoveries }
  | .receive =>
    s.slot.map fun event =>
      { s with
        slot := none
        offline := (handleRecovery s.offline event).1
        scheduled := if (handleRecovery s.offline event).2 then s.scheduled + 1 else s.scheduled }

/-- `Run` has recorded a success that it has not published yet. -/
def isAnnouncing : Bool :=
  match s.machine.run with
  | .publishingSuccess _ => true
  | _ => false

/-- When every event was published and received, each recovery was followed by a call. -/
def Answered : Prop :=
  s.slot = none → s.isAnnouncing = false → ∀ earlier ∈ s.recoveries, earlier < s.scheduled

instance : Decidable s.Answered := inferInstanceAs (Decidable (_ → _ → _))

end Recovery

end Helio.Collector
