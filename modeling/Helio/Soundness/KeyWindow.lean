import Helio.Soundness.LoginLimiter
import Helio.ToMathlib.FilterIndex

/-! # The limiter as one key sees it

A key has a window with counts, and admissions of which some are reserved in that window. What the
operations of a key do to this view, and what an attempt answers, involves no other key; pruning on
behalf of other keys removes the window when it is over, which every operation of the key does first.
As long as the table has room the limiter follows this for each of its keys.
-/

namespace Helio.Auth

structure KeyBucket where
  failures : ℕ
  pending : ℕ
  expiresAt : ℤ
deriving DecidableEq

/-- A key's window, and for every admission its result and whether it is reserved in the window. -/
structure KeyView where
  bucket : Option KeyBucket := none
  admissions : List (Option AdmissionResult × Bool) := []
deriving DecidableEq

/-- An operation of one key; an admission is known by its number among those of the key. -/
inductive KeyOp where
  | attempt (now : ℤ)
  | complete (admission : ℕ) (result : AdmissionResult) (now : ℤ)
deriving DecidableEq

def KeyOp.now : KeyOp → ℤ
  | attempt now => now
  | complete _ _ now => now

namespace KeyView

variable (v : KeyView)

/-- No admission is reserved in a window that is gone. -/
def detach : KeyView where
  bucket := none
  admissions := v.admissions.map fun a => (a.1, false)

def expire (now : ℤ) : KeyView :=
  match v.bucket with
  | some bucket => if bucket.expiresAt ≤ now then v.detach else v
  | none => v

def reserve (bucket : KeyBucket) : KeyView where
  bucket := some bucket
  admissions := v.admissions ++ [(none, true)]

/-- The answer to an attempt: the view after it, whether it is admitted and the delay before a retry. -/
def attempt (now : ℤ) : KeyView × Bool × ℤ :=
  match (v.expire now).bucket with
  | some bucket =>
    if loginFailureLimit ≤ bucket.failures + bucket.pending then
      (v.expire now, false, Limiter.retryDuration bucket.expiresAt now)
    else ((v.expire now).reserve { bucket with pending := bucket.pending + 1 }, true, 0)
  | none => ((v.expire now).reserve ⟨0, 1, now + loginWindow⟩, true, 0)

/-- An own admission gives its place back and may count; nothing is left of a window without counts. -/
def settle (result : AdmissionResult) : KeyView :=
  match v.bucket with
  | some bucket =>
    let failures := if result = .failure then countFailure bucket.failures else bucket.failures
    if bucket.pending - 1 = 0 ∧ failures = 0 then v.detach
    else { v with bucket := some { bucket with failures, pending := bucket.pending - 1 } }
  | none => v

/-- A failure whose window is gone counts in the present one. -/
def late (now : ℤ) : KeyView :=
  match v.bucket with
  | some bucket => { v with bucket := some { bucket with failures := countFailure bucket.failures } }
  | none => { v with bucket := some ⟨1, 0, now + loginWindow⟩ }

def complete (i : ℕ) (result : AdmissionResult) (now : ℤ) : KeyView :=
  match (v.expire now).admissions[i]? with
  | some (none, own) =>
    let after := { v.expire now with admissions := (v.expire now).admissions.set i (some result, own) }
    if result = .success then after.detach
    else if own then after.settle result
    else if result = .failure then after.late now
    else after
  | _ => v

def next : KeyOp → KeyView
  | .attempt now => (v.attempt now).1
  | .complete i result now => v.complete i result now

def answer : KeyOp → Option (Bool × ℤ)
  | .attempt now => some (v.attempt now).2
  | .complete _ _ _ => none

/-- The answers to the attempts among the operations of a key. -/
def answers : KeyView → List KeyOp → List (Bool × ℤ)
  | _, [] => []
  | v, op :: ops => (v.answer op).toList ++ answers (v.next op) ops

/-- Two views cannot be told apart from a time on. -/
def Agrees (v w : KeyView) (t : ℤ) : Prop := v.expire t = w.expire t

variable {v} {w : KeyView} {t now : ℤ}

theorem expire_expire (later : t ≤ now) : (v.expire t).expire now = v.expire now := by
  rcases window : v.bucket with _ | bucket
  · simp [expire, window]
  · by_cases expired : bucket.expiresAt ≤ t
    · have still : bucket.expiresAt ≤ now := by omega
      simp [expire, window, expired, still, detach]
    · simp [expire, window, expired]

theorem Agrees.later (agrees : v.Agrees w t) (later : t ≤ now) : v.Agrees w now := by
  rw [Agrees, ← expire_expire later, agrees, expire_expire later]

theorem agrees_expire (v : KeyView) (t : ℤ) : (v.expire t).Agrees v t := expire_expire (Int.le_refl t)

theorem results_expire (v : KeyView) (t : ℤ) : (v.expire t).admissions.map Prod.fst = v.admissions.map Prod.fst := by
  rcases window : v.bucket with _ | bucket
  · simp [expire, window]
  · by_cases expired : bucket.expiresAt ≤ t
    · simp [expire, window, expired, detach, Function.comp_def]
    · simp [expire, window, expired]

/-- A repeated completion does nothing. -/
theorem complete_again {i : ℕ} {a : Option AdmissionResult × Bool} {result : AdmissionResult}
    (issued : v.admissions[i]? = some a) (done : a.1 ≠ none) : v.complete i result now = v := by
  have same : ((v.expire now).admissions.map Prod.fst)[i]? = some a.1 := by
    rw [results_expire, List.getElem?_map, issued]
    rfl
  rw [List.getElem?_map] at same
  obtain ⟨b, here, result⟩ := Option.map_eq_some_iff.mp same
  unfold complete
  rw [here]
  split
  · next own taken =>
    cases taken
    exact absurd result.symm done
  · rfl

/-- Views that agree answer alike, and agree after every operation. -/
theorem Agrees.next {op : KeyOp} (agrees : v.Agrees w t) (later : t ≤ op.now) :
    v.answer op = w.answer op ∧ (v.next op = w.next op ∨ (v.next op = v ∧ w.next op = w)) := by
  have same : v.expire op.now = w.expire op.now := agrees.later later
  cases op with
  | attempt now =>
    have same : v.attempt now = w.attempt now := by
      unfold attempt
      rw [show v.expire now = w.expire now from same]
    exact ⟨by rw [answer, answer, same], Or.inl (by rw [KeyView.next, KeyView.next, same])⟩
  | complete i result now =>
    refine ⟨rfl, ?_⟩
    simp only [KeyView.next, complete, show v.expire now = w.expire now from same]
    split
    · exact Or.inl rfl
    · exact Or.inr ⟨rfl, rfl⟩

end KeyView

end Helio.Auth
