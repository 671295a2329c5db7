import Helio.Soundness.KeyWindow

/-! # Isolation of the keys of the limiter

The lists of the limiter are shared by all keys, and the operations of one key prune and evict the
buckets of others. An operation leaves the buckets of other keys as they are but for the expired ones
and a victim, so a limiter with room follows each key's own view. A victim has no work pending and the
fewest failures among such buckets.
-/

namespace Helio.Auth

variable {κ : Type} [DecidableEq κ]

namespace Limiter

variable {l l' : Limiter κ} {key other : κ} {g now : ℕ} {admissions : List (Admission κ)}

/-- A key's view of the limiter and the admissions it has handed out. -/
def viewOf (l : Limiter κ) (admissions : List (Admission κ)) (key : κ) : KeyView where
  bucket := (l.buckets.find? key).map fun g => ⟨(l.heap g).failures, (l.heap g).pending, (l.heap g).expiresAt⟩
  admissions := (admissions.filter fun a => a.key = key).map fun a =>
    (a.result, decide (l.buckets.find? key = some a.bucket))

/-- The bucket of a key, if any, is left as it is. -/
structure Spares (l l' : Limiter κ) (key : κ) : Prop where
  find : l'.buckets.find? key = l.buckets.find? key
  data : ∀ g, l.buckets.find? key = some g → l'.data g = l.data g

theorem Spares.refl (l : Limiter κ) (key : κ) : Spares l l key := ⟨rfl, fun _ _ => rfl⟩

theorem Spares.trans {l'' : Limiter κ} (first : Spares l l' key) (second : Spares l' l'' key) : Spares l l'' key where
  find := second.find.trans first.find
  data g found := (second.data g (first.find.trans found)).trans (first.data g found)

theorem Spares.view (spares : Spares l l' key) : l'.viewOf admissions key = l.viewOf admissions key := by
  unfold viewOf
  rw [spares.find]
  congr 1
  rcases found : l.buckets.find? key with _ | g
  · rfl
  · have same := spares.data g found
    simp only [Limiter.data, Prod.mk.injEq] at same
    simp only [Option.map_some, same]

theorem viewOf_none (absent : l.buckets.find? key = none) :
    l.viewOf admissions key = ⟨none, (admissions.filter fun a => a.key = key).map fun a => (a.result, false)⟩ := by
  simp [viewOf, absent]

theorem viewOf_gone (absent : l'.buckets.find? key = none) :
    l'.viewOf admissions key = (l.viewOf admissions key).detach := by
  rw [viewOf_none absent]
  simp [KeyView.detach, viewOf]

section Removals

variable {gone : ℕ → Prop} (removed : Removed gone l l') (linked : Linked l)

include removed linked

theorem Removed.find?_kept (found : l.buckets.find? key = some g) (kept : ¬gone g) : l'.buckets.find? key = some g := by
  have live := (removed.live g).mpr ⟨linked.live_of_find? found, kept⟩
  rwa [Live, removed.key, linked.keyed key g found] at live

omit linked in
theorem Removed.find?_gone (found : l.buckets.find? key = some g) (out : gone g) : l'.buckets.find? key = none := by
  rcases still : l'.buckets.find? key with _ | other
  · rfl
  · obtain ⟨before, kept⟩ := (removed.live other).mp (removed.linked.live_of_find? still)
    have same := removed.linked.keyed key other still
    rw [removed.key] at same
    rw [Live, same, found] at before
    cases before
    exact absurd out kept

theorem Removed.spares (kept : ∀ g, l.buckets.find? key = some g → ¬gone g) : Spares l l' key where
  find := by
    rcases found : l.buckets.find? key with _ | g
    · exact removed.absent found
    · exact removed.find?_kept linked found (kept g found)
  data g _ := removed.data g

end Removals

/-- Pruning ends the window of a key when it is over. -/
theorem viewOf_pruneExpired (linked : Linked l) (sorted : l.Sorted) (now : ℤ) :
    (l.pruneExpired now).viewOf admissions key = (l.viewOf admissions key).expire now := by
  have removed := removed_pruneExpired linked sorted now
  rcases found : l.buckets.find? key with _ | g
  · rw [viewOf_none (removed.absent found), viewOf_none found]
    rfl
  · by_cases expired : (l.heap g).expiresAt ≤ now
    · rw [viewOf_gone (l := l) (removed.find?_gone found expired)]
      simp [KeyView.expire, viewOf, found, expired]
    · have spares : Spares l (l.pruneExpired now) key := by
        refine removed.spares linked fun h here => ?_
        rw [found] at here
        cases here
        exact expired
      rw [spares.view]
      simp [KeyView.expire, viewOf, found, expired]

/-- Different keys have different buckets. -/
theorem Linked.bucket_ne (linked : Linked l) {h : ℕ} (found : l.buckets.find? key = some g)
    (foundOther : l.buckets.find? other = some h) (differ : other ≠ key) : g ≠ h := by
  rintro rfl
  exact differ ((linked.keyed other g foundOther).symm.trans (linked.keyed key g found))

theorem spares_recounted (linked : Linked l) {h failures pending : ℕ} (found : l.buckets.find? other = some h)
    (differ : other ≠ key) : Spares l (l.recounted h failures pending) key where
  find := rfl
  data g here := by
    rw [data, recounted_heap_ne (linked.bucket_ne here found differ)]
    rfl

theorem spares_unlinked (linked : Linked l) {h : ℕ} {bucket : Bucket κ} (found : l.buckets.find? other = some h)
    (differ : other ≠ key) : Spares l (l.unlinked h bucket) key where
  find := by
    have same := linked.keyed other h found
    rw [unlinked, Table.find?_erase, same, if_neg differ.symm]
  data g here := by
    have same : (l.unlinked h bucket).heap g = l.heap g :=
      Function.update_of_ne (linked.bucket_ne here found differ) _ _
    rw [data, same]
    rfl

theorem spares_create (linked : Linked l) {bucket : Bucket κ} (differ : bucket.key ≠ key) :
    Spares l (l.create bucket) key where
  find := by
    rw [create, Table.find?_upsert, if_neg differ.symm]
  data g here := by
    have same : (l.create bucket).heap g = l.heap g :=
      Function.update_of_ne (linked.allocated g (linked.live_of_find? here)).ne _ _
    rw [data, same]
    rfl

/-- A table with room makes it without removing anything. -/
theorem makeRoom_free (free : l.buckets.rows.length < l.capacity) : l.makeRoom = some l := if_pos free

/-- An attempt for another key spares a key, as long as there is room. -/
theorem Admitted.spares {now : ℤ} {result : Limiter κ × Option ℕ × ℤ} (admitted : Admitted l other now result)
    (linked : Linked l) (free : l.buckets.rows.length < l.capacity) (differ : other ≠ key) :
    Spares l result.1 key := by
  cases admitted with
  | blocked => exact .refl l key
  | refused => exact .refl l key
  | reserved found => exact spares_recounted linked found differ
  | created absent room =>
    rw [makeRoom_free free] at room
    cases room
    exact spares_create linked differ

/-- A completion for another key spares a key, as long as there is room. -/
theorem Completed.spares {now : ℤ} {result : AdmissionResult} (completed : Completed l other g now result l')
    (standing : Standing l now) (reserved : l.Live g → 0 < (l.heap g).pending)
    (free : l.buckets.rows.length < l.capacity) (differ : other ≠ key) : Spares l l' key := by
  have linked := standing.linked
  cases completed with
  | ignored => exact .refl l key
  | @cleared h found =>
    refine (removed_deleteBucket linked (linked.live_of_find? found)).1.spares linked fun g here same => ?_
    exact linked.bucket_ne here found differ same
  | settled found =>
    have live := linked.live_of_find? found
    obtain ⟨failures, counted⟩ : ∃ failures, failures =
        if result = .failure then countFailure (l.heap g).failures else (l.heap g).failures := ⟨_, rfl⟩
    rw [settle_eq linked live (reserved live) result counted]
    split
    · exact spares_unlinked linked found differ
    · exact spares_recounted linked found differ
  | late found => exact spares_recounted linked found differ
  | created absent room =>
    rw [makeRoom_free free] at room
    cases room
    let bucket : Bucket κ := { key := other, pending := 1, expiresAt := now + loginWindow }
    have created : Spares l (l.create bucket) key := spares_create linked differ
    have stored : (l.create bucket).buckets.find? other = some l.next := Table.find?_upsert_self _ _ _
    have after := (linked_create bucket linked absent Nat.one_pos (Nat.zero_le _) rfl).1
    exact created.trans (spares_recounted after stored differ)

/-- New counts of a key's own bucket. -/
theorem viewOf_recounted {failures pending : ℕ} (found : l.buckets.find? key = some g) :
    (l.recounted g failures pending).viewOf admissions key =
      { l.viewOf admissions key with bucket := some ⟨failures, pending, (l.heap g).expiresAt⟩ } := by
  have same : (l.recounted g failures pending).buckets = l.buckets := rfl
  simp [viewOf, same, found, recounted_heap_self]

/-- A new admission of the key in its bucket. -/
theorem viewOf_reserve (found : l.buckets.find? key = some g) :
    (l.viewOf (admissions ++ [⟨key, g, none⟩]) key) =
      { l.viewOf admissions key with admissions := (l.viewOf admissions key).admissions ++ [(none, true)] } := by
  simp [viewOf, found]

theorem viewOf_other {a : Admission κ} (differ : a.key ≠ key) :
    l.viewOf (admissions ++ [a]) key = l.viewOf admissions key := by
  simp [viewOf, differ]

/-- A new bucket of the key, in which no earlier admission is reserved. -/
theorem viewOf_create {bucket : Bucket κ} (issued : ∀ a ∈ admissions, a.bucket < l.next)
    (absent : l.buckets.find? bucket.key = none) :
    (l.create bucket).viewOf admissions bucket.key =
      { l.viewOf admissions bucket.key with bucket := some ⟨bucket.failures, bucket.pending, bucket.expiresAt⟩ } := by
  have stored : (l.create bucket).buckets.find? bucket.key = some l.next := Table.find?_upsert_self _ _ _
  have heap : (l.create bucket).heap l.next = { bucket with expiryElement := true } := Function.update_self _ _ _
  rw [viewOf_none absent]
  unfold viewOf
  rw [stored, Option.map_some, heap]
  congr 1
  refine List.map_congr_left fun a member => ?_
  have older := issued a (List.mem_of_mem_filter member)
  rw [decide_eq_false fun same => older.ne' (Option.some.inj same)]

section Own

variable {v : KeyView} {now : ℤ}

theorem bucket_viewOf (found : l.buckets.find? key = some g) : (l.viewOf admissions key).bucket =
    some ⟨(l.heap g).failures, (l.heap g).pending, (l.heap g).expiresAt⟩ := by
  simp [viewOf, found]

/-- An attempt of a key on the pruned limiter is an attempt on the key's view. -/
theorem Admitted.view {limiter : Limiter κ} {bucket : Option ℕ} {delay : ℤ}
    (admitted : Admitted l key now (limiter, bucket, delay)) (issued : ∀ a ∈ admissions, a.bucket < l.next)
    (free : l.buckets.rows.length < l.capacity) (pruned : v.expire now = l.viewOf admissions key) :
    v.attempt now =
      (limiter.viewOf (admissions ++ (bucket.map fun g => ⟨key, g, none⟩).toList) key, bucket.isSome, delay) := by
  unfold KeyView.attempt
  rw [pruned]
  cases admitted with
  | blocked found full =>
    simp only [bucket_viewOf found, if_pos full, Option.map_none, Option.toList_none, List.append_nil,
      Option.isSome_none]
  | @reserved g found below =>
    have still : (l.recounted g (l.heap g).failures ((l.heap g).pending + 1)).buckets.find? key = some g := found
    simp only [bucket_viewOf found, if_neg (not_le.mpr below), Option.map_some, Option.toList_some,
      viewOf_reserve still, viewOf_recounted found, Option.isSome_some, KeyView.reserve]
  | refused absent room =>
    rw [makeRoom_free free] at room
    cases room
  | @created limiter absent room =>
    rw [makeRoom_free free] at room
    cases room
    let bucket : Bucket κ := { key, pending := 1, expiresAt := now + loginWindow }
    have stored : (l.create bucket).buckets.find? key = some l.next := Table.find?_upsert_self _ _ _
    have created : (l.create bucket).viewOf admissions key = _ := viewOf_create issued absent
    simp only [Option.map_some, Option.toList_some, Option.isSome_some]
    rw [viewOf_reserve stored, created, viewOf_none absent]
    rfl

/-- The result of an admission of the key is set. -/
theorem viewOf_set {a : Admission κ} {i : ℕ} (issued : admissions[i]? = some a) (own : a.key = key)
    (result : AdmissionResult) : l.viewOf (admissions.set i { a with result := some result }) key =
      { l.viewOf admissions key with
        admissions := (l.viewOf admissions key).admissions.set ((admissions.take i).countP fun a => a.key = key)
          (some result, decide (l.buckets.find? key = some a.bucket)) } := by
  unfold viewOf
  rw [List.filter_set_of_pos issued (by simpa using own) (by simpa using own), List.map_set]

/-- The result of another key's admission is set. -/
theorem viewOf_set_other {a : Admission κ} {i : ℕ} (issued : admissions[i]? = some a) (other : a.key ≠ key)
    (result : AdmissionResult) :
    l.viewOf (admissions.set i { a with result := some result }) key = l.viewOf admissions key := by
  unfold viewOf
  rw [List.filter_set_of_neg issued (by simpa using other) (by simpa using other)]

theorem viewOf_getElem? {a : Admission κ} {i : ℕ} (issued : admissions[i]? = some a) (own : a.key = key) :
    (l.viewOf admissions key).admissions[(admissions.take i).countP fun a => a.key = key]? =
      some (a.result, decide (l.buckets.find? key = some a.bucket)) := by
  unfold viewOf
  rw [List.getElem?_map, List.getElem?_filter_countP issued (by simpa using own)]
  rfl

theorem viewOf_settle (linked : Linked l) (found : l.buckets.find? key = some g) (reserved : 0 < (l.heap g).pending)
    (result : AdmissionResult) :
    (l.settle g result).viewOf admissions key = (l.viewOf admissions key).settle result := by
  have live := linked.live_of_find? found
  obtain ⟨failures, counted⟩ : ∃ failures, failures =
      if result = .failure then countFailure (l.heap g).failures else (l.heap g).failures := ⟨_, rfl⟩
  rw [settle_eq linked live reserved result counted]
  simp only [KeyView.settle, bucket_viewOf found, ← counted]
  split
  · refine viewOf_gone ?_
    rw [unlinked, linked.keyed key g found, Table.find?_erase, if_pos rfl]
  · exact viewOf_recounted found

theorem viewOf_late (linked : Linked l) (issued : ∀ a ∈ admissions, a.bucket < l.next)
    (free : l.buckets.rows.length < l.capacity) :
    (l.recordLateFailure key now).viewOf admissions key = (l.viewOf admissions key).late now := by
  rcases found : l.buckets.find? key with _ | g
  · simp only [recordLateFailure, found, makeRoom_free free]
    rw [late_create_eq]
    · let bucket : Bucket κ := { key, pending := 1, expiresAt := now + loginWindow }
      have stored : (l.create bucket).buckets.find? key = some l.next := Table.find?_upsert_self _ _ _
      have heap : (l.create bucket).heap l.next = { bucket with expiryElement := true } := Function.update_self _ _ _
      have created : (l.create bucket).viewOf admissions key = _ := viewOf_create issued found
      rw [viewOf_recounted stored, created, heap, viewOf_none found]
      rfl
    · intro count member
      exact (linked.allocated _ ((linked.mem_evictable count _).mp member).1).ne rfl
  · rw [recordLateFailure_live linked found, viewOf_recounted found]
    simp only [KeyView.late, bucket_viewOf found]

/-- The first completion of a key's admission is one of the key's view. -/
theorem complete_view {a : Admission κ} {i : ℕ} {result : AdmissionResult}
    (standing : Standing (l.pruneExpired now) now) (tally : Tally (l.pruneExpired now) admissions)
    (issued : admissions[i]? = some a) (own : a.key = key) (first : a.result = none)
    (free : (l.pruneExpired now).buckets.rows.length < (l.pruneExpired now).capacity)
    (pruned : v.expire now = (l.pruneExpired now).viewOf admissions key) :
    (l.complete key a.bucket result now).viewOf (admissions.set i { a with result := some result }) key =
      v.complete ((admissions.take i).countP fun a => a.key = key) result now := by
  have linked := standing.linked
  unfold KeyView.complete
  rw [pruned, viewOf_getElem? issued own, first]
  dsimp only
  rw [← viewOf_set issued own result]
  generalize found : l.pruneExpired now = p at *
  simp only [complete, found]
  by_cases success : result = .success
  · rw [if_pos success, if_pos success]
    split
    · next other here =>
      have live := linked.live_of_find? here
      exact viewOf_gone ((removed_deleteBucket linked live).1.find?_gone here rfl)
    · next absent => exact viewOf_gone absent
  · rw [if_neg success, if_neg success]
    by_cases here : p.buckets.find? key = some a.bucket
    · simp only [if_pos here, decide_eq_true here, if_true]
      have live := linked.live_of_find? here
      have still := uncompleted_complete result issued first a.bucket
      rw [if_pos rfl, ← tally.pending a.bucket live] at still
      exact viewOf_settle linked here (by omega) result
    · simp only [if_neg here, decide_eq_false here, Bool.false_eq_true, if_false]
      split
      · exact viewOf_late linked (fun other member => (tally.issued_complete issued other member).1) free
      · rfl

end Own

/-- A victim has no work pending, and no bucket without pending work has fewer failures. -/
theorem victim_fewest (linked : Linked l) (chosen : l.victim = some g) :
    (l.heap g).pending = 0 ∧
      ∀ other, l.Live other → (l.heap other).pending = 0 → (l.heap g).failures ≤ (l.heap other).failures := by
  obtain ⟨fewer, failures, more, range, front, empty⟩ := List.findSome?_eq_some_iff.mp chosen
  obtain ⟨-, idle, count⟩ := (linked.mem_evictable failures g).mp (List.mem_of_head? front)
  refine ⟨idle, fun other live free => ?_⟩
  by_contra less
  rw [count, not_le] at less
  have listed : (l.heap other).failures ∈ fewer := by
    have sorted : (fewer ++ failures :: more).Pairwise (· < ·) := range ▸ List.pairwise_lt_range
    have counts : (l.heap other).failures ∈ fewer ++ failures :: more := by
      rw [← range, List.mem_range]
      exact Nat.lt_succ_of_le (linked.failures_le other live)
    rcases List.mem_append.mp counts with early | late
    · exact early
    · rcases List.mem_cons.mp late with same | after
      · omega
      · have := List.rel_of_pairwise_cons (List.pairwise_append.mp sorted).2.1 after
        omega
  have none := empty _ listed
  have member := (linked.mem_evictable _ other).mpr ⟨live, free, rfl⟩
  rw [List.head?_eq_none_iff.mp none] at member
  cases member

section Gone

variable {now : ℤ}

/-- Making room and creating a bucket removes a victim at most. -/
private theorem gone_of_create {expiresAt : ℤ} (standing : Standing l now) (live : l.Live g)
    (absent : l.buckets.find? key = none) (room : l.makeRoom = some l')
    (out : ¬(l'.create { key, pending := 1, expiresAt }).Live g) :
    l.capacity ≤ l.buckets.rows.length ∧ l.victim = some g := by
  obtain ⟨removed, -, -⟩ := removed_makeRoom standing.linked standing.bounded room
  have alive := (linked_create { key, pending := 1, expiresAt } removed.linked (removed.absent absent) Nat.one_pos
    (Nat.zero_le _) rfl).2 g
  by_contra kept
  exact out (alive.mpr (Or.inl ((removed.live g).mpr ⟨live, kept⟩)))

theorem Admitted.gone {result : Limiter κ × Option ℕ × ℤ} (admitted : Admitted l key now result)
    (standing : Standing l now) (live : l.Live g) (out : ¬result.1.Live g) :
    l.capacity ≤ l.buckets.rows.length ∧ l.victim = some g := by
  cases admitted with
  | blocked | refused => exact absurd live out
  | reserved => exact absurd ((recounted_live g).mpr live) out
  | created absent room => exact gone_of_create standing live absent room out

theorem Completed.gone {bucket : ℕ} {result : AdmissionResult} (completed : Completed l key bucket now result l')
    (standing : Standing l now) (reserved : l.Live bucket → 0 < (l.heap bucket).pending) (live : l.Live g)
    (out : ¬l'.Live g) :
    (result = .success ∧ (l.heap g).key = key) ∨ (result = .cancel ∧ bucket = g ∧ (l.heap g).failures = 0) ∨
      (l.capacity ≤ l.buckets.rows.length ∧ l.victim = some g) := by
  have linked := standing.linked
  cases completed with
  | ignored => exact absurd live out
  | @cleared other found =>
    have removed := (removed_deleteBucket linked (linked.live_of_find? found)).1
    by_cases same : g = other
    · exact Or.inl ⟨rfl, same ▸ linked.keyed key other found⟩
    · exact absurd ((removed.live g).mpr ⟨live, same⟩) out
  | settled found counts =>
    have own := linked.live_of_find? found
    obtain ⟨failures, counted⟩ : ∃ failures, failures =
        if result = .failure then countFailure (l.heap bucket).failures else (l.heap bucket).failures := ⟨_, rfl⟩
    rw [settle_eq linked own (reserved own) result counted] at out
    split at out
    · next idle =>
      by_cases same : g = bucket
      · subst same
        have positive := countFailure_pos (l.heap g).failures
        cases result with
        | success => exact absurd rfl counts
        | failure =>
          rw [if_pos rfl] at counted
          omega
        | cancel =>
          rw [if_neg (by simp)] at counted
          exact Or.inr (Or.inl ⟨rfl, rfl, counted.symm.trans idle.2⟩)
      · exact absurd ((unlinked_live (by rfl) own g).mpr ⟨live, same⟩) out
    · exact absurd ((recounted_live g).mpr live) out
  | late => exact absurd ((recounted_live g).mpr live) out
  | created absent room =>
    rw [recounted_live] at out
    exact Or.inr (Or.inr (gone_of_create standing live absent room out))

end Gone

end Limiter

namespace Login

open Limiter

variable {s t : Login κ} {e : LoginEvent κ} {es : List (LoginEvent κ)} {key : κ} {g : ℕ} {v : KeyView}

def view (s : Login κ) (key : κ) : KeyView := s.limiter.viewOf s.admissions key

/-- What an event is to a key: its own attempt, or the completion of one of its admissions. -/
def keyOp (s : Login κ) (key : κ) : LoginEvent κ → Option KeyOp
  | .attempt other now => if other = key then some (.attempt now) else none
  | .complete i result now =>
    match s.admissions[i]? with
    | some a =>
      if a.key = key then some (.complete ((s.admissions.take i).countP fun a => a.key = key) result now) else none
    | none => none

/-- The operations of a key along a list of events. -/
def keyOps (key : κ) : Login κ → List (LoginEvent κ) → List KeyOp
  | _, [] => []
  | s, e :: es => (s.keyOp key e).toList ++ keyOps key (s.next e) es

/-- The decision on an attempt of a key, and the delay before a retry. -/
def answer (s : Login κ) (key : κ) : LoginEvent κ → Option (Bool × ℤ)
  | .attempt other now =>
    if other = key then some ((s.limiter.admitLogin other now).2.1.isSome, (s.limiter.admitLogin other now).2.2)
    else none
  | .complete _ _ _ => none

def answers (key : κ) : Login κ → List (LoginEvent κ) → List (Bool × ℤ)
  | _, [] => []
  | s, e :: es => (s.answer key e).toList ++ answers key (s.next e) es

def HasRoom (s : Login κ) : Prop := s.limiter.buckets.rows.length < s.limiter.capacity

instance (s : Login κ) : Decidable s.HasRoom := inferInstanceAs (Decidable (_ < _))

theorem clock_next (readable : s.readable e) : s.clock ≤ (s.next e).clock := by
  cases e with
  | attempt key now =>
    simp only [Login.next]
    split <;> exact readable
  | complete i result now =>
    simp only [Login.next]
    split
    · split
      · exact readable
      · exact Int.le_refl _
    · exact Int.le_refl _

/-- What pruning leaves of a sound limiter with room. -/
theorem Sound.pruned {now : ℤ} (sound : s.Sound) (readable : s.clock ≤ now) (room : s.HasRoom) :
    Standing (s.limiter.pruneExpired now) now ∧ Tally (s.limiter.pruneExpired now) s.admissions ∧
      (s.limiter.pruneExpired now).buckets.rows.length < (s.limiter.pruneExpired now).capacity ∧
      ∀ key, (s.limiter.pruneExpired now).viewOf s.admissions key = (s.view key).expire now := by
  have removed := removed_pruneExpired sound.standing.linked sound.standing.sorted now
  refine ⟨sound.standing.prune readable, sound.tally.removed removed, ?_, fun key => ?_⟩
  · rw [removed.capacity]
    exact removed.length.trans_lt room
  · exact viewOf_pruneExpired sound.standing.linked sound.standing.sorted now

/-- An attempt of the key follows the key's view. -/
theorem Sound.view_attempt {now : ℤ} (sound : s.Sound) (readable : s.clock ≤ now) (room : s.HasRoom) :
    (s.next (.attempt key now)).view key = ((s.view key).attempt now).1 ∧
      s.answer key (.attempt key now) = some ((s.view key).attempt now).2 := by
  obtain ⟨standing, tally, free, pruned⟩ := sound.pruned readable room
  have admitted : Admitted (s.limiter.pruneExpired now) key now (s.limiter.admitLogin key now) :=
    admitted standing.linked key
  simp only [Login.next, answer, if_true]
  rcases outcome : s.limiter.admitLogin key now with ⟨limiter, bucket, delay⟩
  rw [outcome] at admitted
  have seen := admitted.view (fun a member => (tally.issued a member).1) free (pruned key).symm
  rw [seen]
  cases bucket with
  | none => exact ⟨by simp [view], rfl⟩
  | some g => exact ⟨rfl, rfl⟩

/-- A completion of the key's admission follows the key's view. -/
theorem Sound.view_complete {a : Admission κ} {i : ℕ} {result : AdmissionResult} {now : ℤ} (sound : s.Sound)
    (readable : s.clock ≤ now) (room : s.HasRoom) (issued : s.admissions[i]? = some a) (own : a.key = key) :
    (s.next (.complete i result now)).view key =
      (s.view key).complete ((s.admissions.take i).countP fun a => a.key = key) result now := by
  obtain ⟨standing, tally, free, pruned⟩ := sound.pruned readable room
  simp only [Login.next, issued]
  by_cases first : a.result = none
  · rw [if_pos first, view, ← complete_view standing tally issued own first free (pruned key).symm, own]
  · rw [if_neg first]
    exact (KeyView.complete_again (viewOf_getElem? (l := s.limiter) issued own) first).symm

/-- An operation of another key prunes at most. -/
theorem Sound.view_other (sound : s.Sound) (readable : s.readable e) (room : s.HasRoom)
    (foreign : s.keyOp key e = none) :
    ((s.next e).view key = (s.view key).expire e.now ∧ (s.next e).clock = e.now) ∨ s.next e = s := by
  obtain ⟨standing, tally, free, pruned⟩ := sound.pruned readable room
  cases e with
  | attempt other now =>
    have differ : other ≠ key := fun same => by simp [keyOp, same] at foreign
    have spares := (admitted standing.linked other).spares standing.linked free differ
    left
    rw [← pruned key, ← spares.view]
    change (s.next (.attempt other now)).view key = (s.limiter.admitLogin other now).1.viewOf s.admissions key ∧ _
    simp only [Login.next]
    split
    · next outcome =>
      rw [outcome]
      exact ⟨rfl, rfl⟩
    · next outcome =>
      rw [outcome]
      exact ⟨viewOf_other differ, rfl⟩
  | complete i result now =>
    simp only [Login.next]
    split
    · next a issued =>
      split
      · next first =>
        have differ : a.key ≠ key := fun same => by simp [keyOp, issued, same] at foreign
        left
        have still := uncompleted_complete result issued first a.bucket
        rw [if_pos rfl] at still
        have spares := (completed standing a.key a.bucket result).spares standing
          (fun live => by have := tally.pending a.bucket live; omega) free differ
        rw [← pruned key, ← spares.view, view]
        exact ⟨viewOf_set_other issued differ result, rfl⟩
      · exact Or.inr rfl
    · exact Or.inr rfl

theorem Sound.view_own {op : KeyOp} (sound : s.Sound) (readable : s.readable e) (room : s.HasRoom)
    (own : s.keyOp key e = some op) :
    op.now = e.now ∧ (s.next e).view key = (s.view key).next op ∧ s.answer key e = (s.view key).answer op := by
  cases e with
  | attempt other now =>
    simp only [keyOp, Option.ite_none_right_eq_some, Option.some_inj] at own
    obtain ⟨rfl, rfl⟩ := own
    exact ⟨rfl, sound.view_attempt readable room⟩
  | complete i result now =>
    simp only [keyOp] at own
    split at own
    · next a issued =>
      simp only [Option.ite_none_right_eq_some, Option.some_inj] at own
      obtain ⟨own, rfl⟩ := own
      exact ⟨rfl, sound.view_complete readable room issued own, rfl⟩
    · cases own

theorem answer_other (foreign : s.keyOp key e = none) : s.answer key e = none := by
  cases e with
  | attempt other now =>
    have differ : other ≠ key := fun same => by simp [keyOp, same] at foreign
    exact if_neg differ
  | complete => rfl

/-- A limiter with room answers a key as the key's own view does. -/
theorem Sound.answers_eq (sound : s.Sound) (meets : Meets (fun s e => s.readable e ∧ s.HasRoom) Login.next s es)
    (agrees : (s.view key).Agrees v s.clock) : s.answers key es = v.answers (s.keyOps key es) := by
  induction es generalizing s v with
  | nil => rfl
  | cons e es ih =>
    obtain ⟨⟨readable, room⟩, rest⟩ := meets
    have after := sound.next readable
    have later := clock_next readable
    rw [answers, keyOps]
    rcases own : s.keyOp key e with _ | op
    · rw [answer_other own]
      refine ih after rest ?_
      rcases sound.view_other readable room own with ⟨pruned, clock⟩ | still
      · rw [pruned, clock]
        exact (KeyView.agrees_expire _ _).trans (agrees.later readable)
      · rw [still]
        exact agrees
    · obtain ⟨time, seen, answered⟩ := sound.view_own readable room own
      have due : s.clock ≤ op.now := by
        rw [time]
        exact readable
      obtain ⟨alike, next⟩ := agrees.next due
      have still : ((s.next e).view key).Agrees (v.next op) (s.next e).clock := by
        rw [seen]
        rcases next with same | ⟨first, second⟩
        · rw [same]
          exact rfl
        · rw [first, second]
          exact agrees.later later
      rw [answered, alike, ih after rest still]
      rfl

/-- Why a bucket is removed by an operation: it is over, its key succeeds, its last admission is cancelled
with nothing left to count, or it is evicted from a full table. -/
inductive Removal (s : Login κ) (g : ℕ) (e : LoginEvent κ) : Prop
  | expired : (s.limiter.heap g).expiresAt ≤ e.now → Removal s g e
  | cleared {i : ℕ} {a : Admission κ} {now : ℤ} : e = .complete i .success now → s.admissions[i]? = some a →
      a.key = (s.limiter.heap g).key → Removal s g e
  | emptied {i : ℕ} {a : Admission κ} {now : ℤ} : e = .complete i .cancel now → s.admissions[i]? = some a →
      a.bucket = g → (s.limiter.heap g).failures = 0 → Removal s g e
  | evicted : (s.limiter.pruneExpired e.now).capacity ≤ (s.limiter.pruneExpired e.now).buckets.rows.length →
      (s.limiter.pruneExpired e.now).victim = some g → Removal s g e

theorem Sound.removal (sound : s.Sound) (readable : s.readable e) (before : s.Stored g) (after : ¬(s.next e).Stored g) :
    s.Removal g e := by
  have out : ¬(s.next e).limiter.Live g := fun live => after (((sound.next readable).stored_iff g).mpr live)
  have removed := removed_pruneExpired sound.standing.linked sound.standing.sorted e.now
  have standing := sound.standing.prune readable
  have alive := (sound.stored_iff g).mp before
  by_cases expired : (s.limiter.heap g).expiresAt ≤ e.now
  · exact .expired expired
  have live : (s.limiter.pruneExpired e.now).Live g := (removed.live g).mpr ⟨alive, expired⟩
  cases e with
  | attempt key now =>
    have limiter : (s.next (.attempt key now)).limiter = (s.limiter.admitLogin key now).1 := by
      simp only [Login.next]
      split <;> next outcome => rw [outcome]
    rw [limiter] at out
    obtain ⟨full, chosen⟩ := (admitted standing.linked key).gone standing live out
    exact .evicted full chosen
  | complete i result now =>
    have tally := sound.tally.removed removed
    simp only [Login.next] at out
    split at out
    · next a issued =>
      split at out
      · next first =>
        have still := uncompleted_complete result issued first a.bucket
        rw [if_pos rfl] at still
        have reserved (own : (s.limiter.pruneExpired now).Live a.bucket) :
            0 < ((s.limiter.pruneExpired now).heap a.bucket).pending := by
          have pending := tally.pending a.bucket own
          dsimp only [LoginEvent.now] at pending
          omega
        rcases (completed standing a.key a.bucket result).gone standing reserved live out with
          ⟨rfl, key⟩ | ⟨rfl, own, failures⟩ | ⟨full, chosen⟩
        · exact .cleared rfl issued (key.symm.trans (removed.key g))
        · exact .emptied rfl issued own ((removed.failures g).symm.trans failures)
        · exact .evicted full chosen
      · exact absurd alive out
    · exact absurd alive out

/-- The bucket was evicted to make room, though it was not over, no success cleared it and no cancelled
admission was its last. -/
def IsEvicted (s : Login κ) (g : ℕ) (e : LoginEvent κ) : Prop :=
  s.Stored g ∧ ¬(s.next e).Stored g ∧ e.now < (s.limiter.heap g).expiresAt ∧
    (∀ i now a, e = .complete i .success now → s.admissions[i]? = some a → a.key ≠ (s.limiter.heap g).key) ∧
    ∀ i now a, e = .complete i .cancel now → s.admissions[i]? = some a → a.bucket ≠ g

/-- Only a full table evicts, and only a bucket without pending work which has the fewest failures among
those that are not over. -/
theorem Sound.evicted (sound : s.Sound) (readable : s.readable e) (evicted : s.IsEvicted g e) :
    ¬s.HasRoom ∧ (s.limiter.heap g).pending = 0 ∧
      ∀ other, s.Stored other → e.now < (s.limiter.heap other).expiresAt → (s.limiter.heap other).pending = 0 →
        (s.limiter.heap g).failures ≤ (s.limiter.heap other).failures := by
  obtain ⟨before, after, fresh, foreign, others⟩ := evicted
  have removed := removed_pruneExpired sound.standing.linked sound.standing.sorted e.now
  cases sound.removal readable before after with
  | expired expired => omega
  | cleared same issued key => exact absurd key (foreign _ _ _ same issued)
  | emptied same issued own => exact absurd own (others _ _ _ same issued)
  | evicted full chosen =>
    obtain ⟨idle, fewest⟩ := victim_fewest removed.linked chosen
    rw [removed.pending] at idle
    refine ⟨fun room => ?_, idle, fun other stored later free => ?_⟩
    · have := removed.length
      have := removed.capacity
      unfold HasRoom at room
      omega
    · have live := (removed.live other).mpr ⟨(sound.stored_iff other).mp stored, by omega⟩
      have least := fewest other live (by rw [removed.pending]; exact free)
      rwa [removed.failures, removed.failures] at least

/-- What happens under other keys does not change the answers to a key as long as there is room, and a
blocked bucket is evicted only when all buckets without pending work are blocked. -/
theorem keys_isolated (key : κ) :
    (∀ capacity₁ capacity₂ heap₁ heap₂ clock₁ clock₂ (es₁ es₂ : List (LoginEvent κ)),
      Meets (fun s e => s.readable e ∧ s.HasRoom) Login.next (start capacity₁ heap₁ clock₁) es₁ →
      Meets (fun s e => s.readable e ∧ s.HasRoom) Login.next (start capacity₂ heap₂ clock₂) es₂ →
      keyOps key (start capacity₁ heap₁ clock₁) es₁ = keyOps key (start capacity₂ heap₂ clock₂) es₂ →
      answers key (start capacity₁ heap₁ clock₁) es₁ = answers key (start capacity₂ heap₂ clock₂) es₂) ∧
    ∀ capacity heap clock (es : List (LoginEvent κ)) s e g,
      Run (Guarded readable (Steps next)) (start capacity heap clock) es s → s.readable e → s.IsEvicted g e →
      ¬s.HasRoom ∧ (s.limiter.heap g).pending = 0 ∧
        (∀ other, s.Stored other → e.now < (s.limiter.heap other).expiresAt → (s.limiter.heap other).pending = 0 →
          (s.limiter.heap g).failures ≤ (s.limiter.heap other).failures) ∧
        ((s.limiter.heap g).failures = 5 → ∀ other, s.Stored other → e.now < (s.limiter.heap other).expiresAt →
          (s.limiter.heap other).pending = 0 → (s.limiter.heap other).failures = 5) := by
  constructor
  · intro capacity₁ capacity₂ heap₁ heap₂ clock₁ clock₂ es₁ es₂ first second same
    rw [(sound_start capacity₁ heap₁ clock₁).answers_eq (v := {}) first rfl,
      (sound_start capacity₂ heap₂ clock₂).answers_eq (v := {}) second rfl, same]
  · intro capacity heap clock es s e g run readable evicted
    have sound := sound_of_run run
    obtain ⟨full, idle, fewest⟩ := sound.evicted readable evicted
    refine ⟨full, idle, fewest, fun blocked other stored later free => ?_⟩
    refine Nat.le_antisymm (sound.standing.linked.failures_le other ((sound.stored_iff other).mp stored)) ?_
    rw [← blocked]
    exact fewest other stored later free

/-- Five attempts of one key that all fail, among attempts of others. -/
def crowded : List (LoginEvent ℕ) :=
  [.attempt 7 0, .attempt 8 0, .complete 0 .failure 1, .attempt 7 2, .complete 1 .success 2,
    .complete 2 .failure 3, .attempt 9 3, .attempt 7 4, .complete 4 .failure 5, .attempt 7 6, .complete 5 .failure 7,
    .attempt 7 8, .complete 6 .failure 9, .attempt 7 10]

def lonely : List (LoginEvent ℕ) :=
  [.attempt 7 0, .complete 0 .failure 1, .attempt 7 2, .complete 1 .failure 3, .attempt 7 4, .complete 2 .failure 5,
    .attempt 7 6, .complete 3 .failure 7, .attempt 7 8, .complete 4 .failure 9, .attempt 7 10]

/-- The bucket of a key with one failure is evicted from a full table, and the five others keep their places. -/
def churn : List (LoginEvent ℕ) :=
  [.attempt 7 0, .complete 0 .failure 1, .attempt 1 2, .attempt 2 2, .attempt 3 2, .attempt 4 2]

theorem seven_isolated : answers 7 fiveKeys crowded = answers 7 fiveKeys lonely ∧
    ((churn.foldl next fiveKeys).limiter.heap 0).pending = 0 := by
  obtain ⟨isolated, evicts⟩ := keys_isolated 7
  refine ⟨isolated 5 5 _ _ 0 0 crowded lonely (by decide) (by decide) (by decide), ?_⟩
  have run : Run (Guarded readable (Steps next)) fiveKeys churn (churn.foldl next fiveKeys) :=
    Run.of_meets (by decide)
  refine (evicts 5 _ 0 churn _ (.attempt 5 3) 0 run (by decide) ⟨⟨7, by decide⟩, ?_, by decide, ?_, ?_⟩).2.1
  · rintro ⟨key, found⟩
    have linked := ((sound_of_run run).next (e := .attempt 5 3) (by decide)).standing.linked
    have live := linked.live_of_find? found
    exact absurd live (by decide)
  · intro i now a impossible
    cases impossible
  · intro i now a impossible
    cases impossible

end Login

end Helio.Auth
