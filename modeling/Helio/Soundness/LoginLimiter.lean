import Helio.Machine.Run
import Helio.Soundness.LimiterLinks

/-! # The login limiter over whole runs

Admissions outlive their buckets, so what a bucket counts is compared with the admissions that were
reserved in that very bucket. The links, the window and the tally survive every operation, whichever
admission it completes and however late. The bound on concurrent and failed attempts follows, and a
bucket with the full failure count stays blocked until one of three removals.
-/

namespace Helio.Auth

variable {κ : Type} [DecidableEq κ]

theorem countFailure_le {failures : ℕ} (bound : failures ≤ loginFailureLimit) :
    countFailure failures ≤ loginFailureLimit := by
  rw [countFailure]
  split
  · omega
  · exact bound

theorem countFailure_pos (failures : ℕ) : 0 < countFailure failures := by
  rw [countFailure]
  split
  · omega
  · next full => exact lt_of_lt_of_le (by decide) (not_lt.mp full)

namespace Limiter

variable {l l' : Limiter κ} {clock now : ℤ} {g : ℕ}

/-- The limiter after an operation that read the clock. -/
structure Standing (l : Limiter κ) (clock : ℤ) : Prop where
  linked : Linked l
  bounded : l.buckets.rows.length ≤ l.capacity
  sorted : l.Sorted
  window : ∀ g, l.Live g → clock < (l.heap g).expiresAt ∧ (l.heap g).expiresAt ≤ clock + loginWindow

theorem Removed.standing {gone : ℕ → Prop} (removed : Removed gone l l') (standing : Standing l clock) :
    Standing l' clock where
  linked := removed.linked
  bounded := by
    rw [removed.capacity]
    exact removed.length.trans standing.bounded
  sorted := removed.sorted standing.sorted
  window g live := by
    rw [removed.expiresAt]
    exact standing.window g ((removed.live g).mp live).1

theorem Standing.prune (standing : Standing l clock) (later : clock ≤ now) :
    Standing (l.pruneExpired now) now := by
  have removed := removed_pruneExpired standing.linked standing.sorted now
  refine ⟨removed.linked, ?_, removed.sorted standing.sorted, fun g live => ?_⟩
  · rw [removed.capacity]
    exact removed.length.trans standing.bounded
  · obtain ⟨before, fresh⟩ := (removed.live g).mp live
    obtain ⟨_, within⟩ := standing.window g before
    rw [removed.expiresAt]
    omega

theorem Standing.recount {failures pending : ℕ} (standing : Standing l clock) (live : l.Live g)
    (bound : failures ≤ loginFailureLimit) (occupied : 0 < failures + pending) :
    Standing (l.recounted g failures pending) clock where
  linked := linked_recounted standing.linked live bound occupied
  bounded := standing.bounded
  sorted := by
    refine standing.sorted.imp fun ordered => ?_
    rw [recounted_expiresAt, recounted_expiresAt]
    exact ordered
  window other alive := by
    rw [recounted_expiresAt]
    exact standing.window other ((recounted_live other).mp alive)

theorem Standing.unlink (standing : Standing l clock) (live : l.Live g) {bucket : Bucket κ}
    (key : bucket.key = (l.heap g).key) : Standing (l.unlinked g bucket) clock := by
  have alive := unlinked_live key live
  have same : ∀ other, other ≠ g → (l.unlinked g bucket).heap other = l.heap other := fun other differ =>
    Function.update_of_ne differ _ _
  refine ⟨linked_unlinked key standing.linked live, ?_, ?_, fun other later => ?_⟩
  · exact (Table.erase_length_lt live).le.trans standing.bounded
  · refine List.Pairwise.imp_of_mem ?_ (standing.sorted.sublist List.erase_sublist)
    intro a b left right ordered
    rw [same a (standing.linked.expiry_nodup.mem_erase_iff.mp left).1,
      same b (standing.linked.expiry_nodup.mem_erase_iff.mp right).1]
    exact ordered
  · obtain ⟨before, differ⟩ := (alive other).mp later
    rw [same other differ]
    exact standing.window other before

/-- A bucket created in the current window expires last. -/
theorem Standing.create (standing : Standing l clock) (bucket : Bucket κ)
    (absent : l.buckets.find? bucket.key = none) (busy : 0 < bucket.pending)
    (bound : bucket.failures ≤ loginFailureLimit) (unflagged : bucket.evictionElement = false)
    (free : l.buckets.rows.length < l.capacity) (expiry : bucket.expiresAt = clock + loginWindow) :
    Standing (l.create bucket) clock := by
  obtain ⟨linked, alive⟩ := linked_create bucket standing.linked absent busy bound unflagged
  have older : ∀ g ∈ l.expiry, (l.create bucket).heap g = l.heap g := by
    intro g member
    have live := (standing.linked.mem_expiry g).mp member
    exact Function.update_of_ne (standing.linked.allocated g live).ne _ _
  have newest : ((l.create bucket).heap l.next).expiresAt = clock + loginWindow := by
    simp [Limiter.create, expiry]
  refine ⟨linked, ?_, ?_, fun g live => ?_⟩
  · exact (Table.upsert_length absent l.next).trans_le free
  · refine List.pairwise_append.mpr ⟨?_, List.pairwise_singleton _ _, fun a left b right => ?_⟩
    · refine List.Pairwise.imp_of_mem ?_ standing.sorted
      intro a b left right ordered
      rw [older a left, older b right]
      exact ordered
    · rw [List.mem_singleton.mp right, newest, older a left]
      exact (standing.window a ((standing.linked.mem_expiry a).mp left)).2
  · rcases (alive g).mp live with old | rfl
    · rw [older g ((standing.linked.mem_expiry g).mpr old)]
      exact standing.window g old
    · rw [newest, loginWindow]
      omega

/-- What an attempt does to the pruned limiter. -/
inductive Admitted (l : Limiter κ) (key : κ) (now : ℤ) : Limiter κ × Option ℕ × ℤ → Prop
  | blocked {g : ℕ} (found : l.buckets.find? key = some g)
      (full : loginFailureLimit ≤ (l.heap g).failures + (l.heap g).pending) :
      Admitted l key now (l, none, retryDuration (l.heap g).expiresAt now)
  | reserved {g : ℕ} (found : l.buckets.find? key = some g)
      (below : (l.heap g).failures + (l.heap g).pending < loginFailureLimit) :
      Admitted l key now (l.recounted g (l.heap g).failures ((l.heap g).pending + 1), some g, 0)
  | refused (absent : l.buckets.find? key = none) (room : l.makeRoom = none) :
      Admitted l key now (l, none, timeSecond)
  | created {l' : Limiter κ} (absent : l.buckets.find? key = none) (room : l.makeRoom = some l') :
      Admitted l key now (l'.create { key, pending := 1, expiresAt := now + loginWindow }, some l'.next, 0)

theorem admitted (linked : Linked (l.pruneExpired now)) (key : κ) :
    Admitted (l.pruneExpired now) key now (l.admitLogin key now) := by
  simp only [admitLogin]
  split
  · next g found =>
    split
    · next full => exact .blocked found full
    · next below =>
      rw [reserve_eq linked (linked.live_of_find? found)]
      exact .reserved found (not_le.mp below)
  · next absent =>
    split
    · next room => exact .refused absent room
    · next l' room => exact .created absent room

/-- What a first completion does to the pruned limiter. -/
inductive Completed (l : Limiter κ) (key : κ) (g : ℕ) (now : ℤ) : AdmissionResult → Limiter κ → Prop
  | cleared {other : ℕ} (found : l.buckets.find? key = some other) :
      Completed l key g now .success (l.deleteBucket other)
  | ignored {result : AdmissionResult} (gone : l.buckets.find? key ≠ some g) : Completed l key g now result l
  | settled {result : AdmissionResult} (found : l.buckets.find? key = some g) (counts : result ≠ .success) :
      Completed l key g now result (l.settle g result)
  | late {other : ℕ} (found : l.buckets.find? key = some other) (differ : other ≠ g) :
      Completed l key g now .failure
        (l.recounted other (countFailure (l.heap other).failures) (l.heap other).pending)
  | created {l' : Limiter κ} (absent : l.buckets.find? key = none) (room : l.makeRoom = some l') :
      Completed l key g now .failure
        ((l'.create { key, pending := 1, expiresAt := now + loginWindow }).recounted l'.next 1 0)

theorem completed (standing : Standing (l.pruneExpired now) now) (key : κ) (g : ℕ) (result : AdmissionResult) :
    Completed (l.pruneExpired now) key g now result (l.complete key g result now) := by
  have linked := standing.linked
  simp only [complete]
  split
  · next success =>
    subst success
    split
    · next other found => exact .cleared found
    · next absent => exact .ignored (by simp [absent])
  · next counts =>
    split
    · next found => exact .settled found counts
    · next gone =>
      split
      · next failure =>
        subst failure
        cases found : (l.pruneExpired now).buckets.find? key with
        | some other =>
          rw [recordLateFailure_live linked found]
          exact .late found fun same => gone (same ▸ found)
        | none =>
          simp only [recordLateFailure, found]
          split
          · next room => exact .ignored gone
          · next l' room =>
            obtain ⟨removed, _⟩ := removed_makeRoom linked standing.bounded room
            rw [late_create_eq]
            · exact .created found room
            · intro count member
              have live := ((removed.linked.mem_evictable count _).mp member).1
              exact (removed.linked.allocated _ live).ne rfl
      · next cancel => exact .ignored gone

end Limiter

/-- Uncompleted admissions of a bucket. -/
def uncompleted (admissions : List (Admission κ)) (g : ℕ) : ℕ :=
  admissions.countP fun a => a.bucket = g ∧ a.result = none

/-- A bucket's own admissions that completed with a failure. -/
def failedOwn (admissions : List (Admission κ)) (g : ℕ) : ℕ :=
  admissions.countP fun a => a.bucket = g ∧ a.result = some .failure

section Counts

variable {admissions : List (Admission κ)} {a : Admission κ} {i g : ℕ} (result : AdmissionResult)

omit [DecidableEq κ] in
theorem uncompleted_reserve (key : κ) (bucket : ℕ) :
    uncompleted (admissions ++ [⟨key, bucket, none⟩]) g =
      uncompleted admissions g + if bucket = g then 1 else 0 := by
  simp [uncompleted, List.countP_append, List.countP_singleton]

omit [DecidableEq κ] in
theorem failedOwn_reserve (key : κ) (bucket : ℕ) :
    failedOwn (admissions ++ [⟨key, bucket, none⟩]) g = failedOwn admissions g := by
  simp [failedOwn, List.countP_append]

omit [DecidableEq κ] in
theorem uncompleted_complete (issued : admissions[i]? = some a) (first : a.result = none) (g : ℕ) :
    uncompleted (admissions.set i { a with result := some result }) g + (if a.bucket = g then 1 else 0) =
      uncompleted admissions g := by
  obtain ⟨within, rfl⟩ := List.getElem?_eq_some_iff.mp issued
  have counted := List.countP_set (p := fun a => decide (a.bucket = g ∧ a.result = none))
    (a := { admissions[i] with result := some result }) within
  simp only [reduceCtorEq, and_false, first, and_true, decide_eq_true_eq, decide_false, Bool.false_eq_true,
    if_false] at counted
  rw [uncompleted, uncompleted, counted]
  by_cases own : admissions[i].bucket = g
  · have positive : 0 < admissions.countP fun a => a.bucket = g ∧ a.result = none :=
      List.countP_pos_iff.mpr ⟨_, List.getElem_mem within, by simp [own, first]⟩
    simp only [if_pos own]
    omega
  · simp [own]

omit [DecidableEq κ] in
theorem failedOwn_complete (issued : admissions[i]? = some a) (first : a.result = none) (g : ℕ) :
    failedOwn (admissions.set i { a with result := some result }) g =
      failedOwn admissions g + if a.bucket = g ∧ result = .failure then 1 else 0 := by
  obtain ⟨within, rfl⟩ := List.getElem?_eq_some_iff.mp issued
  simp [failedOwn, List.countP_set within, first]

end Counts

/-- The counts of the buckets agree with the admissions handed out. -/
structure Tally (l : Limiter κ) (admissions : List (Admission κ)) : Prop where
  issued : ∀ a ∈ admissions, a.bucket < l.next ∧ (l.heap a.bucket).key = a.key
  pending : ∀ g, l.Live g → (l.heap g).pending = uncompleted admissions g
  failed : ∀ g, l.Live g → (l.heap g).failures < loginFailureLimit → failedOwn admissions g ≤ (l.heap g).failures
  bound : ∀ g, failedOwn admissions g + uncompleted admissions g ≤ loginFailureLimit

namespace Tally

open Limiter

variable {l l' : Limiter κ} {admissions : List (Admission κ)} {a : Admission κ} {i g : ℕ}
  {result : AdmissionResult}

theorem removed {gone : ℕ → Prop} (tally : Tally l admissions) (removed : Removed gone l l') :
    Tally l' admissions where
  issued a member := by
    rw [removed.next, removed.key]
    exact tally.issued a member
  pending g live := by
    rw [removed.pending]
    exact tally.pending g ((removed.live g).mp live).1
  failed g live := by
    rw [removed.failures]
    exact tally.failed g ((removed.live g).mp live).1
  bound := tally.bound

/-- One bucket and its admissions may change together, as long as they agree afterwards. -/
theorem change {after : List (Admission κ)} (tally : Tally l admissions)
    (issued : ∀ a ∈ after, a.bucket < l'.next ∧ (l'.heap a.bucket).key = a.key)
    (others : ∀ other, other ≠ g → l'.Live other → l.Live other ∧ l'.heap other = l.heap other)
    (spared : ∀ other, other ≠ g →
      uncompleted after other = uncompleted admissions other ∧ failedOwn after other = failedOwn admissions other)
    (own : l'.Live g → (l'.heap g).pending = uncompleted after g ∧
      ((l'.heap g).failures < loginFailureLimit → failedOwn after g ≤ (l'.heap g).failures))
    (bound : failedOwn after g + uncompleted after g ≤ loginFailureLimit) : Tally l' after := by
  refine ⟨issued, fun other live => ?_, fun other live => ?_, fun other => ?_⟩
  · rcases eq_or_ne other g with rfl | differ
    · exact (own live).1
    · obtain ⟨before, same⟩ := others other differ live
      rw [same, (spared other differ).1]
      exact tally.pending other before
  · rcases eq_or_ne other g with rfl | differ
    · exact (own live).2
    · obtain ⟨before, same⟩ := others other differ live
      rw [same, (spared other differ).2]
      exact tally.failed other before
  · rcases eq_or_ne other g with rfl | differ
    · exact bound
    · rw [(spared other differ).1, (spared other differ).2]
      exact tally.bound other

/-- New counts for a live bucket. -/
theorem recount {after : List (Admission κ)} {failures pending : ℕ} (tally : Tally l admissions)
    (issued : ∀ a ∈ after, a.bucket < l.next ∧ (l.heap a.bucket).key = a.key)
    (spared : ∀ other, other ≠ g →
      uncompleted after other = uncompleted admissions other ∧ failedOwn after other = failedOwn admissions other)
    (own : pending = uncompleted after g) (failed : failures < loginFailureLimit → failedOwn after g ≤ failures)
    (bound : failedOwn after g + uncompleted after g ≤ loginFailureLimit) :
    Tally (l.recounted g failures pending) after := by
  refine tally.change (g := g) ?_ ?_ spared ?_ bound
  · intro a member
    rw [recounted_key]
    exact issued a member
  · exact fun other differ live => ⟨(recounted_live other).mp live, recounted_heap_ne differ⟩
  · intro _
    rw [recounted_heap_self]
    exact ⟨own, failed⟩

/-- No admission belongs to a bucket that is yet to be created. -/
theorem fresh (tally : Tally l admissions) :
    uncompleted admissions l.next = 0 ∧ failedOwn admissions l.next = 0 := by
  have foreign : ∀ a ∈ admissions, a.bucket ≠ l.next := fun a member => (tally.issued a member).1.ne
  constructor
  · exact List.countP_eq_zero.mpr fun a member => by simp [foreign a member]
  · exact List.countP_eq_zero.mpr fun a member => by simp [foreign a member]

theorem issued_reserve (tally : Tally l admissions) (allocated : g < l.next) :
    ∀ a ∈ admissions ++ [⟨(l.heap g).key, g, none⟩], a.bucket < l.next ∧ (l.heap a.bucket).key = a.key := by
  intro a member
  rcases List.mem_append.mp member with old | new
  · exact tally.issued a old
  · rw [List.mem_singleton.mp new]
    exact ⟨allocated, rfl⟩

/-- An attempt is reserved below the limit. -/
theorem reserve (tally : Tally l admissions) (linked : Linked l) (live : l.Live g)
    (below : (l.heap g).failures + (l.heap g).pending < loginFailureLimit) :
    Tally (l.recounted g (l.heap g).failures ((l.heap g).pending + 1))
      (admissions ++ [⟨(l.heap g).key, g, none⟩]) := by
  have own := tally.pending g live
  have failures := tally.failed g live (by omega)
  refine tally.recount (tally.issued_reserve (linked.allocated g live)) ?_ ?_ ?_ ?_
  · intro other differ
    rw [uncompleted_reserve, failedOwn_reserve, if_neg differ.symm]
    exact ⟨rfl, rfl⟩
  · rw [uncompleted_reserve, if_pos rfl, own]
  · rw [failedOwn_reserve]
    exact fun _ => failures
  · rw [uncompleted_reserve, failedOwn_reserve, if_pos rfl]
    omega

/-- An attempt is reserved in a new bucket. -/
theorem create (bucket : Bucket κ) (tally : Tally l admissions) (linked : Linked l)
    (absent : l.buckets.find? bucket.key = none) (one : bucket.pending = 1) (clean : bucket.failures = 0)
    (unflagged : bucket.evictionElement = false) :
    Tally (l.create bucket) (admissions ++ [⟨bucket.key, l.next, none⟩]) := by
  have alive := (linked_create bucket linked absent (by omega) (by omega) unflagged).2
  have heap_ne : ∀ other, other ≠ l.next → (l.create bucket).heap other = l.heap other := fun other differ =>
    Function.update_of_ne differ _ _
  have heap_self : (l.create bucket).heap l.next = { bucket with expiryElement := true } :=
    Function.update_self _ _ _
  obtain ⟨open_zero, failed_zero⟩ := tally.fresh
  refine tally.change (g := l.next) ?_ ?_ ?_ ?_ ?_
  · intro a member
    rcases List.mem_append.mp member with old | new
    · obtain ⟨allocated, key⟩ := tally.issued a old
      rw [heap_ne _ allocated.ne]
      exact ⟨allocated.trans (Nat.lt_succ_self _), key⟩
    · rw [List.mem_singleton.mp new, heap_self]
      exact ⟨Nat.lt_succ_self _, rfl⟩
  · exact fun other differ live => ⟨((alive other).mp live).resolve_right differ, heap_ne other differ⟩
  · intro other differ
    rw [uncompleted_reserve, failedOwn_reserve, if_neg differ.symm]
    exact ⟨rfl, rfl⟩
  · intro _
    rw [heap_self, uncompleted_reserve, failedOwn_reserve, if_pos rfl, open_zero, failed_zero]
    exact ⟨one, fun _ => Nat.zero_le _⟩
  · rw [uncompleted_reserve, failedOwn_reserve, if_pos rfl, open_zero, failed_zero]
    decide

/-- A late failure in a live bucket counts for no admission of its own. -/
theorem late (tally : Tally l admissions) (live : l.Live g) :
    Tally (l.recounted g (countFailure (l.heap g).failures) (l.heap g).pending) admissions := by
  have failed := tally.failed g live
  refine tally.recount tally.issued (fun _ _ => ⟨rfl, rfl⟩) (tally.pending g live) ?_ (tally.bound g)
  rw [countFailure]
  split
  · next below =>
    intro _
    exact (failed below).trans (Nat.le_succ _)
  · exact failed

/-- A late failure in a new bucket. -/
theorem late_create {key : κ} {expiresAt : ℤ} (tally : Tally l admissions) (linked : Linked l)
    (absent : l.buckets.find? key = none) :
    Tally ((l.create { key, pending := 1, expiresAt }).recounted l.next 1 0) admissions := by
  have created := tally.create { key, pending := 1, expiresAt } linked absent rfl rfl rfl
  obtain ⟨open_zero, failed_zero⟩ := tally.fresh
  refine created.recount ?_ ?_ open_zero.symm ?_ ?_
  · exact fun a member => created.issued a (List.mem_append_left _ member)
  · intro other differ
    rw [uncompleted_reserve, failedOwn_reserve, if_neg differ.symm]
    exact ⟨rfl, rfl⟩
  · omega
  · omega

section Complete

variable (tally : Tally l admissions) (issued : admissions[i]? = some a) (first : a.result = none)
include tally issued first

omit first in
theorem issued_complete : ∀ other ∈ admissions.set i { a with result := some result },
    other.bucket < l.next ∧ (l.heap other.bucket).key = other.key := by
  intro other member
  rcases List.mem_or_eq_of_mem_set member with old | rfl
  · exact tally.issued other old
  · exact tally.issued a (List.mem_of_getElem? issued)

omit tally [DecidableEq κ] in
theorem spared_complete {other : ℕ} (differ : other ≠ a.bucket) :
    uncompleted (admissions.set i { a with result := some result }) other = uncompleted admissions other ∧
      failedOwn (admissions.set i { a with result := some result }) other = failedOwn admissions other := by
  have still := uncompleted_complete result issued first other
  have count := failedOwn_complete result issued first other
  rw [if_neg differ.symm] at still
  rw [if_neg fun both => differ both.1.symm] at count
  exact ⟨still, count⟩

theorem bound_complete : failedOwn (admissions.set i { a with result := some result }) a.bucket +
    uncompleted (admissions.set i { a with result := some result }) a.bucket ≤ loginFailureLimit := by
  have still := uncompleted_complete result issued first a.bucket
  have count := failedOwn_complete result issued first a.bucket
  have before := tally.bound a.bucket
  rw [if_pos rfl] at still
  split at count
  · omega
  · omega

/-- Completing an admission whose bucket is gone changes no live count. -/
theorem complete_dead (dead : ¬l.Live a.bucket) :
    Tally l (admissions.set i { a with result := some result }) :=
  tally.change (tally.issued_complete issued) (fun _ _ live => ⟨live, rfl⟩)
    (fun _ differ => spared_complete issued first differ) (fun live => absurd live dead)
    (tally.bound_complete issued first)

/-- Completing an admission in its own bucket gives the reserved attempt back or counts it. -/
theorem settle (linked : Linked l) (live : l.Live a.bucket) :
    Tally (l.settle a.bucket result) (admissions.set i { a with result := some result }) := by
  have still := uncompleted_complete result issued first a.bucket
  have count := failedOwn_complete result issued first a.bucket
  have pending := tally.pending a.bucket live
  have failed := tally.failed a.bucket live
  simp only [if_true, true_and] at still count
  obtain ⟨failures, counted⟩ : ∃ failures, failures =
      if result = .failure then countFailure (l.heap a.bucket).failures else (l.heap a.bucket).failures := ⟨_, rfl⟩
  rw [settle_eq linked live (by omega) result counted]
  split
  · refine tally.change (g := a.bucket) ?_ ?_ (fun _ differ => spared_complete issued first differ) ?_
      (tally.bound_complete issued first)
    · intro other member
      obtain ⟨allocated, key⟩ := tally.issued_complete issued other member
      refine ⟨allocated, ?_⟩
      rcases eq_or_ne other.bucket a.bucket with same | differ
      · rw [same] at key ⊢
        rw [← key]
        simp [unlinked]
      · rw [← key]
        simp [unlinked, differ]
    · exact fun other differ alive =>
        ⟨((unlinked_live (by rfl) live other).mp alive).1, Function.update_of_ne differ _ _⟩
    · exact fun alive => absurd rfl ((unlinked_live (by rfl) live _).mp alive).2
  · refine tally.recount (tally.issued_complete issued) (fun _ differ => spared_complete issued first differ)
      ?_ ?_ (tally.bound_complete issued first)
    · omega
    · rw [count, counted, countFailure]
      split
      · split
        · omega
        · omega
      · exact failed

end Complete

end Tally

open Limiter

/-- The structures agree with each other and with the admissions handed out. -/
structure Login.Sound (s : Login κ) : Prop where
  standing : Standing s.limiter s.clock
  tally : Tally s.limiter s.admissions

section Operations

variable {l l' : Limiter κ} {admissions : List (Admission κ)} {now : ℤ} {key : κ}

/-- Making room keeps everything but its victim, whose key is not the one it makes room for. -/
private theorem room_kept (standing : Standing l now) (tally : Tally l admissions)
    (absent : l.buckets.find? key = none) (room : l.makeRoom = some l') :
    Standing l' now ∧ Tally l' admissions ∧ l'.buckets.find? key = none ∧
      l'.buckets.rows.length < l'.capacity := by
  obtain ⟨removed, free, _⟩ := removed_makeRoom standing.linked standing.bounded room
  exact ⟨removed.standing standing, tally.removed removed, removed.absent absent, free⟩

private theorem sound_attempt (standing : Standing l now) (tally : Tally l admissions)
    {limiter : Limiter κ} {bucket : Option ℕ} {delay : ℤ} (admitted : Admitted l key now (limiter, bucket, delay)) :
    Standing limiter now ∧ Tally limiter (admissions ++ (bucket.map fun g => ⟨key, g, none⟩).toList) := by
  cases admitted with
  | blocked => simpa using And.intro standing tally
  | refused => simpa using And.intro standing tally
  | @reserved g found below =>
    have live := standing.linked.live_of_find? found
    have bound := standing.linked.failures_le g live
    have reserved := tally.reserve standing.linked live below
    rw [standing.linked.keyed key g found] at reserved
    exact ⟨standing.recount live bound (by omega), reserved⟩
  | created absent room =>
    obtain ⟨standing, tally, absent, free⟩ := room_kept standing tally absent room
    exact ⟨standing.create _ absent Nat.one_pos (Nat.zero_le _) rfl free rfl,
      tally.create _ standing.linked absent rfl rfl rfl⟩

private theorem sound_complete (standing : Standing l now) (tally : Tally l admissions) {a : Admission κ} {i : ℕ}
    (issued : admissions[i]? = some a) (first : a.result = none) {result : AdmissionResult}
    (completed : Completed l a.key a.bucket now result l') :
    Standing l' now ∧ Tally l' (admissions.set i { a with result := some result }) := by
  have key := (tally.issued a (List.mem_of_getElem? issued)).2
  have linked := standing.linked
  have dead : l.buckets.find? a.key ≠ some a.bucket →
      Tally l (admissions.set i { a with result := some result }) := fun gone =>
    tally.complete_dead issued first fun live => gone (key ▸ live)
  cases completed with
  | ignored gone => exact ⟨standing, dead gone⟩
  | @cleared other found =>
    have live := linked.live_of_find? found
    obtain ⟨removed, _⟩ := removed_deleteBucket linked live
    refine ⟨removed.standing standing, ?_⟩
    by_cases own : other = a.bucket
    · subst own
      have gone : ¬(l.deleteBucket a.bucket).Live a.bucket := fun alive => ((removed.live _).mp alive).2 rfl
      exact (tally.removed removed).complete_dead issued first gone
    · refine (dead ?_).removed removed
      rw [found]
      simpa using own
  | settled found counts =>
    have live := linked.live_of_find? found
    have pending := tally.pending a.bucket live
    have still := uncompleted_complete result issued first a.bucket
    rw [if_pos rfl] at still
    refine ⟨?_, tally.settle issued first linked live⟩
    have bound := linked.failures_le a.bucket live
    obtain ⟨failures, counted⟩ : ∃ failures, failures =
        if result = .failure then countFailure (l.heap a.bucket).failures else (l.heap a.bucket).failures :=
      ⟨_, rfl⟩
    have within : failures ≤ loginFailureLimit := by
      rw [counted]
      split
      · exact countFailure_le bound
      · exact bound
    rw [settle_eq linked live (by omega) result counted]
    split
    · exact standing.unlink live rfl
    · exact standing.recount live within (by omega)
  | @late other found differ =>
    have live := linked.live_of_find? found
    refine ⟨standing.recount live (countFailure_le (linked.failures_le other live)) ?_, (dead ?_).late live⟩
    · exact Nat.add_pos_left (countFailure_pos _) _
    · rw [found]
      simpa using differ
  | created absent room =>
    obtain ⟨kept, tally, absent, free⟩ := room_kept standing (dead (by simp [absent])) absent room
    let bucket : Bucket κ := { key := a.key, pending := 1, expiresAt := now + loginWindow }
    have created := kept.create bucket absent Nat.one_pos (Nat.zero_le _) rfl free rfl
    have alive := (linked_create bucket kept.linked absent Nat.one_pos (Nat.zero_le _) rfl).2
    exact ⟨created.recount ((alive _).mpr (Or.inr rfl)) (by decide) Nat.one_pos,
      tally.late_create kept.linked absent⟩

end Operations

namespace Login

variable {s t : Login κ} {e : LoginEvent κ} {es : List (LoginEvent κ)}

theorem sound_start (capacity : ℕ) (heap : ℕ → Bucket κ) (clock : ℤ) : (start capacity heap clock).Sound := by
  have dead : ∀ g, ¬(newLimiter capacity heap).Live g := nofun
  refine ⟨⟨⟨nofun, fun g live => absurd live (dead g), List.nodup_nil, ?_, fun g live => absurd live (dead g),
    fun _ => List.nodup_nil, ?_, fun g live => absurd live (dead g), fun g live => absurd live (dead g),
    fun g live => absurd live (dead g)⟩, Nat.zero_le _, List.Pairwise.nil, fun g live => absurd live (dead g)⟩,
    nofun, fun g live => absurd live (dead g), fun g live => absurd live (dead g), fun _ => Nat.zero_le _⟩
  · exact fun g => ⟨nofun, fun live => absurd live (dead g)⟩
  · exact fun _ g => ⟨nofun, fun live => absurd live.1 (dead g)⟩

theorem Sound.next (sound : s.Sound) (later : s.readable e) : (s.next e).Sound := by
  have standing := sound.standing.prune later
  have tally := sound.tally.removed (removed_pruneExpired sound.standing.linked sound.standing.sorted e.now)
  cases e with
  | attempt key now =>
    have admitted : Admitted (s.limiter.pruneExpired now) key now (s.limiter.admitLogin key now) :=
      admitted standing.linked key
    simp only [Login.next]
    rcases outcome : s.limiter.admitLogin key now with ⟨limiter, bucket, delay⟩
    rw [outcome] at admitted
    obtain ⟨kept, counted⟩ := sound_attempt standing tally admitted
    cases bucket with
    | none => exact ⟨kept, by simpa using counted⟩
    | some g => exact ⟨kept, by simpa using counted⟩
  | complete i result now =>
    simp only [Login.next]
    split
    · next a issued =>
      split
      · next first =>
        obtain ⟨kept, counted⟩ := sound_complete standing tally issued first (completed standing a.key a.bucket result)
        exact ⟨kept, counted⟩
      · exact sound
    · exact sound

/-- Every state of a run from a new limiter is sound. -/
theorem sound_of_run {capacity : ℕ} {heap : ℕ → Bucket κ} {clock : ℤ}
    (run : Run (Guarded readable (Steps next)) (start capacity heap clock) es s) : s.Sound := by
  refine run.invariant (sound_start capacity heap clock) ?_
  rintro s e _ sound ⟨later, rfl⟩
  exact sound.next later

/-- A bucket is in the map. -/
def Stored (s : Login κ) (g : ℕ) : Prop := ∃ key, s.limiter.buckets.find? key = some g

theorem Sound.stored_iff (sound : s.Sound) (g : ℕ) : s.Stored g ↔ s.limiter.Live g := by
  constructor
  · rintro ⟨key, found⟩
    exact sound.standing.linked.live_of_find? found
  · exact fun live => ⟨_, live⟩

/-- The representation invariant of the limiter. -/
structure Represented (s : Login κ) : Prop where
  bounded : s.limiter.buckets.rows.length ≤ s.limiter.capacity
  stored_iff : ∀ g, s.Stored g ↔ s.limiter.expiry.count g = 1
  expiry_nodup : s.limiter.expiry.Nodup
  expiry_sorted : s.limiter.expiry.Pairwise fun g h =>
    (s.limiter.heap g).expiresAt ≤ (s.limiter.heap h).expiresAt
  evictable : ∀ g, s.Stored g → ∀ failures, (s.limiter.evictable failures).count g =
    if (s.limiter.heap g).pending = 0 ∧ (s.limiter.heap g).failures = failures then 1 else 0
  evictable_stored : ∀ failures, ∀ g ∈ s.limiter.evictable failures, s.Stored g
  failures_le : ∀ g, s.Stored g → (s.limiter.heap g).failures ≤ 5
  occupied : ∀ g, s.Stored g → 0 < (s.limiter.heap g).failures + (s.limiter.heap g).pending
  pending : ∀ g, s.Stored g → (s.limiter.heap g).pending = uncompleted s.admissions g
  unexpired : ∀ g, s.Stored g → s.clock < (s.limiter.heap g).expiresAt

theorem Sound.represented (sound : s.Sound) : s.Represented := by
  obtain ⟨⟨linked, bounded, sorted, window⟩, tally⟩ := sound
  have stored := Sound.stored_iff ⟨⟨linked, bounded, sorted, window⟩, tally⟩
  refine ⟨bounded, fun g => ?_, linked.expiry_nodup, sorted, fun g held failures => ?_, fun failures g member => ?_,
    fun g held => linked.failures_le g ((stored g).mp held), fun g held => linked.occupied g ((stored g).mp held),
    fun g held => tally.pending g ((stored g).mp held), fun g held => (window g ((stored g).mp held)).1⟩
  · simp [stored, linked.expiry_nodup.count, linked.mem_expiry]
  · have live := (stored g).mp held
    simp [(linked.evictable_nodup failures).count, linked.mem_evictable, live]
  · exact (stored g).mpr ((linked.mem_evictable failures g).mp member).1

/-- After every operation of every run the limiter is represented as its operations expect. -/
theorem limiter_represented {capacity : ℕ} {heap : ℕ → Bucket κ} {clock : ℤ}
    (run : Run (Guarded readable (Steps next)) (start capacity heap clock) es s) : s.Represented :=
  (sound_of_run run).represented

instance (s : Login κ) (e : LoginEvent κ) : Decidable (s.readable e) := inferInstanceAs (Decidable (_ ≤ _))

/-- A limiter for five keys, numbered from zero, at time zero. -/
def fiveKeys : Login ℕ := start 5 (fun _ => { key := 0, expiresAt := 0 }) 0

/-- Two attempts, the first completed twice and the second after its bucket has expired. -/
def lateFailure : List (LoginEvent ℕ) :=
  [.attempt 7 0, .attempt 7 1, .complete 0 .failure 2, .complete 0 .success 3, .complete 1 .failure loginWindow]

theorem lateFailure_represented : (lateFailure.foldl next fiveKeys).Represented :=
  limiter_represented (Run.of_meets (by decide))

end Login

namespace Limiter

variable {l l' : Limiter κ} {key : κ} {g : ℕ} {now expiresAt : ℤ}

/-- The bucket of a key has the full failure count. -/
structure Blocked (l : Limiter κ) (key : κ) (g : ℕ) (expiresAt : ℤ) : Prop where
  found : l.buckets.find? key = some g
  full : (l.heap g).failures = 5
  expiresAt_eq : (l.heap g).expiresAt = expiresAt

/-- An operation for a key finds no bucket of it in a full table, whose victim is the bucket. -/
def Evicts (l : Limiter κ) (key : κ) (g : ℕ) : Prop :=
  l.buckets.find? key = none ∧ l.capacity ≤ l.buckets.rows.length ∧ l.victim = some g

namespace Blocked

variable (blocked : l.Blocked key g expiresAt) (linked : Linked l)
include blocked linked

theorem removed {gone : ℕ → Prop} (removed : Removed gone l l') (kept : ¬gone g) :
    l'.Blocked key g expiresAt := by
  have live := (removed.live g).mpr ⟨linked.live_of_find? blocked.found, kept⟩
  refine ⟨?_, ?_, ?_⟩
  · rwa [Live, removed.key, linked.keyed key g blocked.found] at live
  · rw [removed.failures]
    exact blocked.full
  · rw [removed.expiresAt]
    exact blocked.expiresAt_eq

theorem unlink {other : ℕ} {bucket : Bucket κ} (live : l.Live other) (same : bucket.key = (l.heap other).key)
    (differ : g ≠ other) : (l.unlinked other bucket).Blocked key g expiresAt := by
  have own : (l.unlinked other bucket).heap g = l.heap g := Function.update_of_ne differ _ _
  have alive := (unlinked_live same live g).mpr ⟨linked.live_of_find? blocked.found, differ⟩
  rw [Live, own, linked.keyed key g blocked.found] at alive
  refine ⟨alive, ?_, ?_⟩
  · rw [own]
    exact blocked.full
  · rw [own]
    exact blocked.expiresAt_eq

omit linked in
theorem recount {other failures pending : ℕ} (own : other = g → failures = 5) :
    (l.recounted other failures pending).Blocked key g expiresAt := by
  refine ⟨blocked.found, ?_, ?_⟩
  · rcases eq_or_ne g other with rfl | differ
    · rw [recounted_heap_self]
      exact own rfl
    · rw [recounted_heap_ne differ]
      exact blocked.full
  · rw [recounted_expiresAt]
    exact blocked.expiresAt_eq

theorem create {bucket : Bucket κ} (absent : l.buckets.find? bucket.key = none) :
    (l.create bucket).Blocked key g expiresAt := by
  have allocated := linked.allocated g (linked.live_of_find? blocked.found)
  have same : (l.create bucket).heap g = l.heap g := Function.update_of_ne allocated.ne _ _
  refine ⟨?_, by rw [same]; exact blocked.full, by rw [same]; exact blocked.expiresAt_eq⟩
  have differ : key ≠ bucket.key := by
    rintro rfl
    rw [blocked.found] at absent
    cases absent
  change (l.buckets.upsert bucket.key l.next).find? key = some g
  rw [Table.find?_upsert, if_neg differ]
  exact blocked.found

/-- Room is made at the price of another bucket. -/
theorem room {other : κ} (bounded : l.buckets.rows.length ≤ l.capacity) (absent : l.buckets.find? other = none)
    (room : l.makeRoom = some l') (spared : ¬l.Evicts other g) :
    Linked l' ∧ l'.Blocked key g expiresAt ∧ l'.buckets.find? other = none := by
  obtain ⟨removed, _⟩ := removed_makeRoom linked bounded room
  refine ⟨removed.linked, blocked.removed linked removed fun gone => spared ⟨absent, gone⟩, ?_⟩
  exact removed.absent absent

theorem attempt {other : κ} {result : Limiter κ × Option ℕ × ℤ} (admitted : Admitted l other now result)
    (bounded : l.buckets.rows.length ≤ l.capacity) (spared : ¬l.Evicts other g) :
    result.1.Blocked key g expiresAt := by
  cases admitted with
  | blocked => exact blocked
  | refused => exact blocked
  | reserved => exact blocked.recount fun own => own ▸ blocked.full
  | created absent room =>
    obtain ⟨linked, blocked, absent⟩ := blocked.room linked bounded absent room spared
    exact blocked.create linked absent

theorem complete {other : κ} {bucket : ℕ} {result : AdmissionResult} (standing : Standing l now)
    (completed : Completed l other bucket now result l')
    (reserved : l.Live bucket → 0 < (l.heap bucket).pending)
    (spared : ¬(result = .failure ∧ l.Evicts other g)) (foreign : ¬(result = .success ∧ other = key)) :
    l'.Blocked key g expiresAt := by
  have counts : countFailure 5 = 5 := by decide
  cases completed with
  | ignored => exact blocked
  | @cleared cleared found =>
    refine blocked.removed linked (removed_deleteBucket linked (linked.live_of_find? found)).1 ?_
    rintro rfl
    exact foreign ⟨rfl, (linked.keyed other g found).symm.trans (linked.keyed key g blocked.found)⟩
  | settled found =>
    have live := linked.live_of_find? found
    obtain ⟨failures, counted⟩ : ∃ failures, failures =
        if result = .failure then countFailure (l.heap bucket).failures else (l.heap bucket).failures := ⟨_, rfl⟩
    rw [settle_eq linked live (reserved live) result counted]
    have own : bucket = g → failures = 5 := by
      rintro rfl
      rw [counted, blocked.full, counts, ite_self]
    split
    · next idle =>
      refine blocked.unlink linked live rfl ?_
      rintro rfl
      have full := own rfl
      omega
    · exact blocked.recount own
  | late => exact blocked.recount fun own => by rw [own, blocked.full, counts]
  | created absent room =>
    obtain ⟨linked, blocked, absent⟩ := blocked.room linked standing.bounded absent room fun evicts => spared ⟨rfl, evicts⟩
    refine (blocked.create linked absent).recount fun own => ?_
    have allocated := linked.allocated g (linked.live_of_find? blocked.found)
    omega

omit blocked linked in
/-- A blocked key gets no admission before its bucket expires. -/
theorem refuses (pruned : (l.pruneExpired now).Blocked key g expiresAt) :
    (l.admitLogin key now).2 = (none, max timeSecond (expiresAt - now)) := by
  have full : loginFailureLimit ≤ ((l.pruneExpired now).heap g).failures + ((l.pruneExpired now).heap g).pending := by
    rw [pruned.full]
    exact Nat.le_add_right _ _
  simp only [admitLogin, pruned.found, if_pos full, retryDuration, pruned.expiresAt_eq]
  split
  · next soon => rw [show max timeSecond (expiresAt - now) = timeSecond by omega]
  · next wait => rw [show max timeSecond (expiresAt - now) = expiresAt - now by omega]

end Blocked

end Limiter

namespace Login

variable {s t : Login κ} {e : LoginEvent κ} {es later : List (LoginEvent κ)} {key : κ} {g : ℕ} {expiresAt : ℤ}

/-- The steps that remove the bucket of a key: its expiry, a success for the key, or an eviction
by an attempt or a late failure under another key. -/
def Removes (s : Login κ) (key : κ) (g : ℕ) : LoginEvent κ → Prop
  | .attempt other now =>
    (s.limiter.heap g).expiresAt ≤ now ∨ (s.limiter.pruneExpired now).Evicts other g
  | .complete i result now => ∃ a, s.admissions[i]? = some a ∧ a.result = none ∧
      ((s.limiter.heap g).expiresAt ≤ now ∨ (result = .success ∧ a.key = key) ∨
        (result = .failure ∧ (s.limiter.pruneExpired now).Evicts a.key g))

theorem Sound.blocked_next (sound : s.Sound) (blocked : s.limiter.Blocked key g expiresAt)
    (readable : s.readable e) (spared : ¬s.Removes key g e) : (s.next e).limiter.Blocked key g expiresAt := by
  have linked := sound.standing.linked
  have standing := sound.standing.prune readable
  have pruned := removed_pruneExpired linked sound.standing.sorted e.now
  cases e with
  | attempt other now =>
    obtain ⟨fresh, spared⟩ := not_or.mp spared
    have admitted : Admitted (s.limiter.pruneExpired now) other now (s.limiter.admitLogin other now) :=
      admitted standing.linked other
    have kept := (blocked.removed linked pruned fresh).attempt standing.linked admitted standing.bounded spared
    simp only [Login.next]
    split
    · next outcome =>
      rw [outcome] at kept
      exact kept
    · next outcome =>
      rw [outcome] at kept
      exact kept
  | complete i result now =>
    simp only [Login.next]
    split
    · next a issued =>
      split
      · next first =>
        have others : ¬((s.limiter.heap g).expiresAt ≤ now ∨ (result = .success ∧ a.key = key) ∨
            (result = .failure ∧ (s.limiter.pruneExpired now).Evicts a.key g)) := fun removes =>
          spared ⟨a, issued, first, removes⟩
        obtain ⟨fresh, foreign, spared⟩ := by simpa only [not_or] using others
        have counts := (sound.tally.removed pruned).pending a.bucket
        have still := uncompleted_complete result issued first a.bucket
        rw [if_pos rfl] at still
        exact (blocked.removed linked pruned fresh).complete standing.linked standing
          (completed standing a.key a.bucket result) (fun live => by have := counts live; omega) spared foreign
      · exact blocked
    · exact blocked

/-- A bucket never holds more than five of its own failed and uncompleted attempts, and a key with
five failures is refused until its bucket expires, a success clears it or it is evicted. -/
theorem attempts_bounded {capacity : ℕ} {heap : ℕ → Bucket κ} {clock : ℤ}
    (run : Run (Guarded readable (Steps next)) (start capacity heap clock) es s) :
    (∀ g, failedOwn s.admissions g + uncompleted s.admissions g ≤ 5) ∧
      ∀ key g expiresAt, s.limiter.Blocked key g expiresAt → ∀ later t,
        Run (Guarded (fun s e => s.readable e ∧ ¬s.Removes key g e) (Steps next)) s later t →
          t.limiter.Blocked key g expiresAt ∧ ∀ now, t.clock ≤ now → now < expiresAt →
            (t.limiter.admitLogin key now).2 = (none, max timeSecond (expiresAt - now)) := by
  refine ⟨(sound_of_run run).tally.bound, fun key g expiresAt blocked later t spared => ?_⟩
  obtain ⟨sound, blocked⟩ : t.Sound ∧ t.limiter.Blocked key g expiresAt := by
    induction spared with
    | start => exact ⟨sound_of_run run, blocked⟩
    | step _ moved ih =>
      obtain ⟨sound, blocked⟩ := ih
      obtain ⟨⟨readable, kept⟩, rfl⟩ := moved
      exact ⟨sound.next readable, sound.blocked_next blocked readable kept⟩
  refine ⟨blocked, fun now readable fresh => ?_⟩
  apply Blocked.refuses (g := g)
  refine blocked.removed sound.standing.linked
    (removed_pruneExpired sound.standing.linked sound.standing.sorted now) ?_
  rw [blocked.expiresAt_eq]
  omega

/-- Five attempts that all fail. -/
def fiveFailures : List (LoginEvent ℕ) :=
  (List.range 5).map (fun n => .attempt 7 (n : ℤ)) ++ (List.range 5).map fun n => .complete n .failure (n + 5 : ℤ)

/-- The sixth attempt is refused until the window of the first is over. -/
theorem fiveFailures_refused :
    ((fiveFailures.foldl next fiveKeys).limiter.admitLogin 7 10).2 = (none, loginWindow - 10) := by
  have run : Run (Guarded readable (Steps next)) fiveKeys fiveFailures (fiveFailures.foldl next fiveKeys) :=
    Run.of_meets (by decide)
  exact ((attempts_bounded run).2 7 0 loginWindow ⟨by decide, by decide, by decide⟩ [] _ .start).2 10
    (by decide) (by decide)

end Login

end Helio.Auth
