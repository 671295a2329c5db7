import Helio.Machine.Run
import Helio.Soundness.CollectorSteps
import Helio.ToMathlib.TrailingRun
import Mathlib.Tactic.Linarith

/-! # The delays between retries

A delay is doubled only when it is at most half of the maximum, so the product fits; a larger one goes to the
maximum. Either way the next delay is the smaller of the double and the maximum. The jitter changes the delay
that is returned, never the sequence.
-/

namespace Helio.Collector

open Calendar

/-- A call on a backoff. The jitter may be another function at every call. -/
inductive BackoffCall where
  | next (jitter : Option (ℤ → ℤ))
  | reset

def BackoffCall.isNext : BackoffCall → Bool
  | next _ => true
  | reset => false

/-- The failures since the last reset. -/
def failures (calls : List BackoffCall) : ℕ := (calls.rtakeWhile BackoffCall.isNext).length

namespace Backoff

def call (b : Backoff) : BackoffCall → Backoff
  | .next jitter => { b with jitter }.take.2
  | .reset => b.reset

/-- What `Next` returns with a jitter. -/
def delayWith (b : Backoff) (jitter : Option (ℤ → ℤ)) : ℤ := { b with jitter }.take.1

/-- A new backoff after some calls. -/
def after (minimum maximum : ℤ) (jitter : Option (ℤ → ℤ)) (calls : List BackoffCall) : Backoff :=
  calls.foldl call (new minimum maximum jitter)

variable {b : Backoff} {minimum maximum : ℤ} {n : ℕ}

/-- A delay that the code doubles is at most half of a 64-bit maximum. -/
theorem double_fits (nonneg : 0 ≤ b.next) (bounded : b.maximum ≤ maxInt64) (below : b.next < b.maximum)
    (half : b.next ≤ b.maximum.tdiv 2) : wrap64 (b.next * 2) = b.next * 2 := by
  rw [Int.tdiv_eq_ediv_of_nonneg (nonneg.trans below.le)] at half
  apply wrap64_of_range <;> omega

theorem take_next (nonneg : 0 ≤ b.next) (capped : b.next ≤ b.maximum) (bounded : b.maximum ≤ maxInt64) :
    b.take.2.next = min (b.next * 2) b.maximum := by
  simp only [take]
  split
  next below =>
    split
    next large =>
      rw [Int.tdiv_eq_ediv_of_nonneg (nonneg.trans capped)] at large
      omega
    next small =>
      have half := not_lt.mp small
      rw [double_fits nonneg bounded below half]
      rw [Int.tdiv_eq_ediv_of_nonneg (nonneg.trans capped)] at half
      omega
  next reached => omega

/-- The end of `Next`, whatever the jitter says. -/
private theorem limited (nonneg : 0 ≤ maximum) (delay : ℤ) :
    0 ≤ (if maximum < delay then maximum else if delay < 0 then 0 else delay) ∧
      (if maximum < delay then maximum else if delay < 0 then 0 else delay) ≤ maximum := by
  split
  · exact ⟨nonneg, le_rfl⟩
  next low =>
    split
    · exact ⟨le_rfl, nonneg⟩
    next high => exact ⟨not_lt.mp high, not_lt.mp low⟩

theorem delayWith_bounds (nonneg : 0 ≤ b.maximum) (jitter : Option (ℤ → ℤ)) :
    0 ≤ b.delayWith jitter ∧ b.delayWith jitter ≤ b.maximum := limited nonneg _

theorem delayWith_none (nonneg : 0 ≤ b.next) (capped : b.next ≤ b.maximum) : b.delayWith none = b.next := by
  simp only [delayWith, take]
  rw [if_neg (not_lt.mpr capped), if_neg (not_lt.mpr nonneg)]

/-- A backoff that has doubled its delay after each of so many failures. -/
structure Doubled (b : Backoff) (minimum maximum : ℤ) (n : ℕ) : Prop where
  bottom : b.minimum = minimum
  top : b.maximum = maximum
  delay : b.next = min (minimum * 2 ^ n) maximum

namespace Doubled

theorem jittered (doubled : b.Doubled minimum maximum n) (jitter : Option (ℤ → ℤ)) :
    ({ b with jitter } : Backoff).Doubled minimum maximum n := ⟨doubled.bottom, doubled.top, doubled.delay⟩

theorem range (positive : 0 < minimum) (ordered : minimum ≤ maximum) (doubled : b.Doubled minimum maximum n) :
    0 ≤ b.next ∧ b.next ≤ b.maximum := by
  rw [doubled.delay, doubled.top]
  have grown : 0 < minimum * 2 ^ n := Int.mul_pos positive (Int.pow_pos (by decide))
  omega

theorem reset (ordered : minimum ≤ maximum) (doubled : b.Doubled minimum maximum n) :
    b.reset.Doubled minimum maximum 0 where
  bottom := doubled.bottom
  top := doubled.top
  delay := by rw [Backoff.reset, doubled.bottom, pow_zero, mul_one, min_eq_left ordered]

theorem take (positive : 0 < minimum) (ordered : minimum ≤ maximum) (bounded : maximum ≤ maxInt64)
    (doubled : b.Doubled minimum maximum n) : b.take.2.Doubled minimum maximum (n + 1) where
  bottom := doubled.bottom
  top := doubled.top
  delay := by
    obtain ⟨nonneg, capped⟩ := doubled.range positive ordered
    rw [take_next nonneg capped (doubled.top.trans_le bounded), doubled.delay, doubled.top, pow_succ, ← mul_assoc]
    have cap : 0 < maximum := positive.trans_le ordered
    omega

end Doubled

theorem failures_concat (calls : List BackoffCall) (call : BackoffCall) :
    failures (calls ++ [call]) = if call.isNext then failures calls + 1 else 0 := by
  cases call with
  | next jitter =>
    rw [failures, List.rtakeWhile_concat_pos _ _ _ rfl, List.length_append]
    rfl
  | reset =>
    rw [failures, List.rtakeWhile_concat_neg _ _ _ Bool.false_ne_true]
    rfl

/-- A call doubles the delay or starts again. -/
theorem Doubled.call (positive : 0 < minimum) (ordered : minimum ≤ maximum) (bounded : maximum ≤ maxInt64)
    {calls : List BackoffCall} (doubled : b.Doubled minimum maximum (failures calls)) (call : BackoffCall) :
    (b.call call).Doubled minimum maximum (failures (calls ++ [call])) := by
  rw [failures_concat]
  cases call with
  | next jitter => exact (doubled.jittered jitter).take positive ordered bounded
  | reset => exact doubled.reset ordered

theorem after_doubled (positive : 0 < minimum) (ordered : minimum ≤ maximum) (bounded : maximum ≤ maxInt64)
    (jitter : Option (ℤ → ℤ)) (calls : List BackoffCall) :
    (after minimum maximum jitter calls).Doubled minimum maximum (failures calls) := by
  induction calls using List.reverseRecOn with
  | nil =>
    refine ⟨rfl, rfl, ?_⟩
    rw [failures, List.rtakeWhile_nil, List.length_nil, pow_zero, mul_one, min_eq_left ordered]
    rfl
  | append_singleton calls call ih =>
    rw [after, List.foldl_append]
    exact ih.call positive ordered bounded call

/-- After any calls of `Next` and `Reset` the delay is the minimum, doubled with each call of `Next` since the
last `Reset` and capped by the maximum, whatever the jitters have said. It is what the next call returns without
a jitter; with any jitter that call returns a delay up to the maximum. The product that the code computes fits. -/
theorem retry_delays (minimum maximum : ℤ) (positive : 0 < minimum) (ordered : minimum ≤ maximum)
    (bounded : maximum ≤ maxInt64) (jitter : Option (ℤ → ℤ)) (calls : List BackoffCall) :
    let b := after minimum maximum jitter calls
    b.next = min (minimum * 2 ^ failures calls) maximum ∧
      b.delayWith none = min (minimum * 2 ^ failures calls) maximum ∧
      (∀ jitter, 0 ≤ b.delayWith jitter ∧ b.delayWith jitter ≤ maximum) ∧
      (b.next < b.maximum → b.next ≤ b.maximum.tdiv 2 → wrap64 (b.next * 2) = b.next * 2) := by
  intro b
  have doubled : b.Doubled minimum maximum (failures calls) := after_doubled positive ordered bounded jitter calls
  obtain ⟨nonneg, capped⟩ := doubled.range positive ordered
  refine ⟨doubled.delay, ?_, ?_, double_fits nonneg (doubled.top.trans_le bounded)⟩
  · rw [delayWith_none nonneg capped, doubled.delay]
  · intro jitter
    rw [← doubled.top]
    exact delayWith_bounds (nonneg.trans capped) jitter

/-- Two failures after a reset, with a jitter that leaves the range, between a second and a minute. -/
theorem retry_delays_fourth : ∃ b, b = after second (60 * second) none
      [.next none, .next none, .next none, .reset, .next (some fun delay => -delay), .next (some (· * 100))] ∧
    b.delayWith none = 4 * second ∧ b.delayWith (some fun delay => -delay) = 0 := by
  have delays := retry_delays second (60 * second) (by decide) (by decide) (by decide) none
    [.next none, .next none, .next none, .reset, .next (some fun delay => -delay), .next (some (· * 100))]
  exact ⟨_, rfl, delays.2.1.trans (by decide), by decide⟩

end Backoff

section Collector

variable {config : Config} {clock : ℤ} {m next : Machine} {action : Action} {actions : List Action}
  {event : Option Event}

theorem Moves.backoff (moved : Moves m action next event) :
    next.backoff = m.backoff ∨ next.backoff = m.backoff.take.2 ∨ next.backoff = m.backoff.reset := by
  cases moved with
  | publishError =>
    right; left
    simp only [Machine.pause]
  | signal =>
    right; right
    simp only [Machine.pause]
  | _ => exact Or.inl rfl

/-- The backoff of a collector has doubled its delay after the failures since its last success. -/
theorem backoff_doubled (valid : config.Valid)
    (run : Run (Enabled fun m action => (m.act action).map Prod.fst) (Machine.new config clock) actions m) :
    ∃ n, m.backoff.Doubled config.retryMin config.retryMax n := by
  apply run.invariant
  · exact ⟨0, Backoff.after_doubled valid.positive.2.2.2 valid.ordered valid.bounded.2.2.2 config.jitter []⟩
  · rintro m action next ⟨n, doubled⟩ stepped
    obtain ⟨⟨_, event⟩, acted, rfl⟩ := Option.map_eq_some_iff.mp stepped
    rcases (moves_of_act acted).backoff with same | failed | reset
    · rw [same]
      exact ⟨n, doubled⟩
    · rw [failed]
      exact ⟨n + 1, doubled.take valid.positive.2.2.2 valid.ordered valid.bounded.2.2.2⟩
    · rw [reset]
      exact ⟨0, doubled.reset valid.ordered⟩

/-- After a failed read the collector polls again within the maximum delay. -/
theorem retries_within (valid : config.Valid)
    (run : Run (Enabled fun m action => (m.act action).map Prod.fst) (Machine.new config clock) actions m)
    (moved : Moves m .publishError next event) :
    next.run = .returning ∨ next.run = .polling ∨
      ∃ wake ≤ next.clock + config.retryMax, next.run = .sleeping wake := by
  obtain ⟨n, doubled⟩ := backoff_doubled valid run
  have cap : 0 ≤ m.backoff.maximum := by
    rw [doubled.top]
    exact (valid.positive.2.2.2.trans_le valid.ordered).le
  have bound := (Backoff.delayWith_bounds cap m.backoff.jitter).2
  rw [doubled.top] at bound
  cases moved with
  | publishFinal => exact Or.inl rfl
  | publishError =>
    right
    simp only [Machine.pause]
    split
    · exact Or.inr ⟨_, Int.add_le_add_left bound _, rfl⟩
    · exact Or.inl rfl

end Collector

end Helio.Collector
