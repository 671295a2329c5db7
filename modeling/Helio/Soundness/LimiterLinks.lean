import Helio.Model.Limiter

/-! # The linked structures of the limiter

The map, the expiry list and the lists of evictable buckets agree on which buckets are live. Every
operation is one of three changes: some buckets are removed, one bucket changes its counts and
moves to the list they demand, or a new bucket is linked. Each keeps the agreement and says what
it does to the live buckets.
-/

namespace Helio.Auth

variable {κ : Type} [DecidableEq κ]

namespace Limiter

variable {l l' : Limiter κ} {g : ℕ}

/-- A bucket is live when the map holds it under its key. -/
def Live (l : Limiter κ) (g : ℕ) : Prop := l.buckets.find? (l.heap g).key = some g

instance (l : Limiter κ) (g : ℕ) : Decidable (l.Live g) := inferInstanceAs (Decidable (_ = _))

/-- The structures agree, and the counts of live buckets are in range. -/
structure Linked (l : Limiter κ) : Prop where
  keyed : ∀ key g, l.buckets.find? key = some g → (l.heap g).key = key
  allocated : ∀ g, l.Live g → g < l.next
  expiry_nodup : l.expiry.Nodup
  mem_expiry : ∀ g, g ∈ l.expiry ↔ l.Live g
  expiry_element : ∀ g, l.Live g → (l.heap g).expiryElement = true
  evictable_nodup : ∀ failures, (l.evictable failures).Nodup
  mem_evictable : ∀ failures g,
    g ∈ l.evictable failures ↔ l.Live g ∧ (l.heap g).pending = 0 ∧ (l.heap g).failures = failures
  eviction_element : ∀ g, l.Live g → ((l.heap g).evictionElement = true ↔ (l.heap g).pending = 0)
  failures_le : ∀ g, l.Live g → (l.heap g).failures ≤ loginFailureLimit
  occupied : ∀ g, l.Live g → 0 < (l.heap g).failures + (l.heap g).pending

theorem Linked.live_of_find? (linked : Linked l) {key : κ} (found : l.buckets.find? key = some g) :
    l.Live g := by
  rw [Live, linked.keyed key g found]
  exact found

/-- The fields of a bucket that no link changes. -/
def data (l : Limiter κ) (g : ℕ) : κ × ℕ × ℕ × ℤ :=
  ((l.heap g).key, (l.heap g).failures, (l.heap g).pending, (l.heap g).expiresAt)

/-- Exactly the buckets of `gone` are removed. -/
structure Removed (gone : ℕ → Prop) (l l' : Limiter κ) : Prop where
  linked : Linked l'
  capacity : l'.capacity = l.capacity
  next : l'.next = l.next
  data : ∀ g, l'.data g = l.data g
  live : ∀ g, l'.Live g ↔ l.Live g ∧ ¬gone g
  expiry : l'.expiry.Sublist l.expiry
  length : l'.buckets.rows.length ≤ l.buckets.rows.length

section Data

variable {gone : ℕ → Prop} (removed : Removed gone l l') (g : ℕ)
include removed

theorem Removed.key : (l'.heap g).key = (l.heap g).key := congrArg (·.1) (removed.data g)

theorem Removed.failures : (l'.heap g).failures = (l.heap g).failures := congrArg (·.2.1) (removed.data g)

theorem Removed.pending : (l'.heap g).pending = (l.heap g).pending := congrArg (·.2.2.1) (removed.data g)

theorem Removed.expiresAt : (l'.heap g).expiresAt = (l.heap g).expiresAt :=
  congrArg (·.2.2.2) (removed.data g)

end Data

theorem Removed.refl (linked : Linked l) : Removed (fun _ => False) l l :=
  ⟨linked, rfl, rfl, fun _ => rfl, by simp, List.Sublist.refl _, le_rfl⟩

theorem Removed.trans {gone more : ℕ → Prop} {l'' : Limiter κ} (first : Removed gone l l')
    (second : Removed more l' l'') : Removed (fun g => gone g ∨ more g) l l'' where
  linked := second.linked
  capacity := second.capacity.trans first.capacity
  next := second.next.trans first.next
  data g := (second.data g).trans (first.data g)
  live g := by rw [second.live, first.live, not_or, and_assoc]
  expiry := second.expiry.trans first.expiry
  length := second.length.trans first.length

theorem Removed.absent {gone : ℕ → Prop} {key : κ} (removed : Removed gone l l')
    (absent : l.buckets.find? key = none) : l'.buckets.find? key = none := by
  rcases found : l'.buckets.find? key with _ | g
  · rfl
  · have live := ((removed.live g).mp (removed.linked.live_of_find? found)).1
    rw [Live, ← removed.key, removed.linked.keyed key g found, absent] at live
    cases live

/-- The eviction flag of a bucket says where it is listed. -/
structure Placed (l : Limiter κ) (g : ℕ) : Prop where
  flag : (l.heap g).evictionElement = true ↔ g ∈ l.evictable (l.heap g).failures
  only : ∀ failures, g ∈ l.evictable failures → failures = (l.heap g).failures

theorem Linked.placed (linked : Linked l) (live : l.Live g) : Placed l g where
  flag := by
    rw [linked.eviction_element g live, linked.mem_evictable]
    simp [live]
  only failures member := ((linked.mem_evictable failures g).mp member).2.2.symm

omit [DecidableEq κ] in
/-- A placed bucket is taken out of every list. -/
theorem removeEvictable_eq (placed : Placed l g) : l.removeEvictable g =
    { l with
      heap := Function.update l.heap g { l.heap g with evictionElement := false }
      evictable := fun failures => (l.evictable failures).erase g } := by
  unfold removeEvictable
  split
  · next flag =>
    simp only [write]
    congr 1
    funext failures
    by_cases own : failures = (l.heap g).failures
    · rw [own, Function.update_self]
    · rw [Function.update_of_ne own, List.erase_of_not_mem fun member => own (placed.only failures member)]
  · next flag =>
    have absent : ∀ failures, g ∉ l.evictable failures := by
      intro failures member
      have own := placed.only failures member
      exact flag (placed.flag.mpr (own ▸ member))
    have unflagged : { l.heap g with evictionElement := false } = l.heap g := by
      rw [← Bool.not_eq_true _ |>.mp flag]
    rw [unflagged, Function.update_eq_self]
    simp only [List.erase_of_not_mem (absent _)]

/-- The limiter without a bucket, whose object becomes `bucket`. -/
def unlinked (l : Limiter κ) (g : ℕ) (bucket : Bucket κ) : Limiter κ :=
  { l with
    heap := Function.update l.heap g bucket
    buckets := l.buckets.erase (l.heap g).key
    expiry := l.expiry.erase g
    evictable := fun failures => (l.evictable failures).erase g }

theorem deleteBucket_eq (live : l.Live g) (listed : (l.heap g).expiryElement = true) (placed : Placed l g) :
    l.deleteBucket g =
      l.unlinked g { l.heap g with expiryElement := false, evictionElement := false } := by
  simp only [deleteBucket, if_pos (show l.buckets.find? (l.heap g).key = some g from live), if_pos listed]
  rw [removeEvictable_eq]
  · simp [write, unlinked]
  · constructor
    · simpa [write] using placed.flag
    · simpa [write] using placed.only

theorem unlinked_live {bucket : Bucket κ} (sameKey : bucket.key = (l.heap g).key) (live : l.Live g)
    (other : ℕ) : (l.unlinked g bucket).Live other ↔ l.Live other ∧ other ≠ g := by
  by_cases same : other = g
  · subst same
    simp [Live, unlinked, sameKey]
  · simp only [Live, unlinked, Function.update_of_ne same, Table.find?_erase]
    split
    · next key =>
      have occupied : l.buckets.find? (l.heap other).key = some g := key ▸ live
      simp [occupied, Ne.symm same]
    · simp [same]

/-- Unlinking a live bucket keeps the structures in agreement. -/
theorem linked_unlinked {bucket : Bucket κ} (sameKey : bucket.key = (l.heap g).key) (linked : Linked l)
    (live : l.Live g) : Linked (l.unlinked g bucket) := by
  have alive := unlinked_live sameKey live
  have buckets : ∀ P : Bucket κ → Prop, (∀ other, l.Live other → P (l.heap other)) →
      ∀ other, (l.unlinked g bucket).Live other → P ((l.unlinked g bucket).heap other) := by
    intro P old other later
    obtain ⟨before, differ⟩ := (alive other).mp later
    have same : (l.unlinked g bucket).heap other = l.heap other := Function.update_of_ne differ _ _
    rw [same]
    exact old other before
  constructor
  · intro key other found
    simp only [unlinked, Table.find?_erase] at found
    split at found
    · cases found
    · next differ =>
      have old := linked.keyed key other found
      by_cases same : other = g
      · exact absurd (same ▸ old.symm) differ
      · simp only [unlinked, Function.update_of_ne same, old]
  · exact fun other later => linked.allocated other ((alive other).mp later).1
  · exact linked.expiry_nodup.erase g
  · intro other
    rw [alive, unlinked, linked.expiry_nodup.mem_erase_iff, linked.mem_expiry]
    exact and_comm
  · exact buckets (fun bucket => bucket.expiryElement = true) linked.expiry_element
  · exact fun failures => (linked.evictable_nodup failures).erase g
  · intro failures other
    rw [alive, unlinked, (linked.evictable_nodup failures).mem_erase_iff, linked.mem_evictable]
    by_cases same : other = g
    · simp [same]
    · simp [same]
  · exact buckets (fun bucket => bucket.evictionElement = true ↔ bucket.pending = 0) linked.eviction_element
  · exact buckets (fun bucket => bucket.failures ≤ loginFailureLimit) linked.failures_le
  · exact buckets (fun bucket => 0 < bucket.failures + bucket.pending) linked.occupied

/-- Deleting a live bucket unlinks it everywhere. -/
theorem removed_deleteBucket (linked : Linked l) (live : l.Live g) :
    Removed (· = g) l (l.deleteBucket g) ∧
      (l.deleteBucket g).buckets.rows.length < l.buckets.rows.length := by
  rw [deleteBucket_eq live (linked.expiry_element g live) (linked.placed live)]
  have shorter := Table.erase_length_lt live
  refine ⟨⟨linked_unlinked rfl linked live, rfl, rfl, fun other => ?_, unlinked_live rfl live,
    List.erase_sublist, shorter.le⟩, shorter⟩
  by_cases same : other = g
  · subst same
    simp [data, unlinked]
  · simp [data, unlinked, same]

/-- The expiry list is sorted. -/
def Sorted (l : Limiter κ) : Prop := l.expiry.Pairwise fun a b => (l.heap a).expiresAt ≤ (l.heap b).expiresAt

theorem Removed.sorted {gone : ℕ → Prop} (removed : Removed gone l l') (sorted : l.Sorted) : l'.Sorted := by
  refine (List.Pairwise.sublist removed.expiry sorted).imp ?_
  intro a b ordered
  rw [removed.expiresAt, removed.expiresAt]
  exact ordered

/-- Only what is removed of the live buckets matters. -/
theorem Removed.congr {gone other : ℕ → Prop} (removed : Removed gone l l')
    (same : ∀ g, l.Live g → (gone g ↔ other g)) : Removed other l l' :=
  { removed with
    live := fun g => by
      rw [removed.live]
      exact and_congr_right fun live => not_congr (same g live) }

private theorem removed_nothing {gone : ℕ → Prop} (linked : Linked l) (spared : ∀ g ∈ l.expiry, ¬gone g) :
    Removed gone l l := by
  refine (Removed.refl linked).congr fun g live => ?_
  have kept := spared g ((linked.mem_expiry g).mpr live)
  simp only [false_iff]
  exact kept

private theorem removed_pruneFrom (linked : Linked l) (sorted : l.Sorted) (now : ℤ) {fuel : ℕ}
    (enough : l.expiry.length ≤ fuel) :
    Removed (fun g => (l.heap g).expiresAt ≤ now) l (pruneFrom now fuel l) := by
  induction fuel generalizing l with
  | zero =>
    have none := List.length_eq_zero_iff.mp (Nat.le_zero.mp enough)
    exact removed_nothing linked (by simp [none])
  | succ fuel ih =>
    rw [pruneFrom]
    split
    · next none => exact removed_nothing linked (by simp [none])
    · next g rest front =>
      have live := (linked.mem_expiry g).mp (front ▸ List.mem_cons_self)
      split
      · next fresh =>
        -- The front is the first to expire.
        have whole := sorted
        rw [Sorted, front] at whole
        refine removed_nothing linked fun other member => ?_
        rw [front] at member
        rcases List.mem_cons.mp member with rfl | later
        · omega
        · have bound := (List.pairwise_cons.mp whole).1 other later
          omega
      · next expired =>
        have removed := (removed_deleteBucket linked live).1
        have shorter : (l.deleteBucket g).expiry.length ≤ fuel := by
          rw [deleteBucket_eq live (linked.expiry_element g live) (linked.placed live), unlinked, front]
          rw [front] at enough
          simpa using enough
        refine (removed.trans (ih removed.linked (removed.sorted sorted) shorter)).congr fun other _ => ?_
        rw [removed.expiresAt]
        constructor
        · rintro (rfl | gone)
          · omega
          · exact gone
        · exact Or.inr

/-- Pruning removes exactly the expired buckets. -/
theorem removed_pruneExpired (linked : Linked l) (sorted : l.Sorted) (now : ℤ) :
    Removed (fun g => (l.heap g).expiresAt ≤ now) l (l.pruneExpired now) :=
  removed_pruneFrom linked sorted now le_rfl

/-- Making room removes nothing, or from a full table its victim, which has no pending work. -/
theorem removed_makeRoom (linked : Linked l) (bounded : l.buckets.rows.length ≤ l.capacity)
    (room : l.makeRoom = some l') :
    Removed (fun g => l.capacity ≤ l.buckets.rows.length ∧ l.victim = some g) l l' ∧
      l'.buckets.rows.length < l'.capacity ∧ ∀ g, l.victim = some g → (l.heap g).pending = 0 := by
  have idle : ∀ g, l.victim = some g → l.Live g ∧ (l.heap g).pending = 0 := by
    intro g chosen
    obtain ⟨failures, _, front⟩ := List.exists_of_findSome?_eq_some chosen
    obtain ⟨live, idle, _⟩ := (linked.mem_evictable failures g).mp (List.mem_of_head? front)
    exact ⟨live, idle⟩
  unfold makeRoom at room
  split at room
  · next free =>
    cases room
    refine ⟨removed_nothing linked ?_, free, fun g chosen => (idle g chosen).2⟩
    rintro g _ ⟨full, _⟩
    omega
  · next full =>
    obtain ⟨g, chosen, rfl⟩ := Option.map_eq_some_iff.mp room
    obtain ⟨removed, shorter⟩ := removed_deleteBucket linked (idle g chosen).1
    refine ⟨removed.congr fun other _ => ?_, by rw [removed.capacity]; omega, fun g chosen => (idle g chosen).2⟩
    rw [chosen, Option.some_inj, eq_comm]
    exact (and_iff_right (not_lt.mp full)).symm

/-- The limiter after a bucket's counts change, with the bucket where its new counts demand. -/
def recounted (l : Limiter κ) (g failures pending : ℕ) : Limiter κ :=
  { l with
    heap := Function.update l.heap g
      { l.heap g with failures, pending, evictionElement := decide (pending = 0) }
    evictable := fun count =>
      (l.evictable count).erase g ++ if pending = 0 ∧ count = failures then [g] else [] }

section Recounted

variable {failures pending : ℕ}

omit [DecidableEq κ] in
theorem recounted_heap_ne {other : ℕ} (differ : other ≠ g) :
    (l.recounted g failures pending).heap other = l.heap other := Function.update_of_ne differ _ _

omit [DecidableEq κ] in
theorem recounted_heap_self : (l.recounted g failures pending).heap g =
    { l.heap g with failures, pending, evictionElement := decide (pending = 0) } :=
  Function.update_self _ _ _

omit [DecidableEq κ] in
theorem recounted_key (other : ℕ) : ((l.recounted g failures pending).heap other).key = (l.heap other).key := by
  by_cases same : other = g
  · subst same
    rw [recounted_heap_self]
  · rw [recounted_heap_ne same]

omit [DecidableEq κ] in
theorem recounted_expiresAt (other : ℕ) :
    ((l.recounted g failures pending).heap other).expiresAt = (l.heap other).expiresAt := by
  by_cases same : other = g
  · subst same
    rw [recounted_heap_self]
  · rw [recounted_heap_ne same]

theorem recounted_live (other : ℕ) : (l.recounted g failures pending).Live other ↔ l.Live other := by
  rw [Live, recounted_key]
  rfl

/-- A live bucket may take any counts in range. -/
theorem linked_recounted (linked : Linked l) (live : l.Live g) (bound : failures ≤ loginFailureLimit)
    (occupied : 0 < failures + pending) : Linked (l.recounted g failures pending) := by
  have buckets : ∀ P : Bucket κ → Prop, (∀ other, l.Live other → P (l.heap other)) →
      P { l.heap g with failures, pending, evictionElement := decide (pending = 0) } →
        ∀ other, (l.recounted g failures pending).Live other → P ((l.recounted g failures pending).heap other) := by
    intro P old own other alive
    by_cases same : other = g
    · subst same
      rwa [recounted_heap_self]
    · rw [recounted_heap_ne same]
      exact old other ((recounted_live other).mp alive)
  constructor
  · intro key other found
    rw [recounted_key]
    exact linked.keyed key other found
  · exact fun other alive => linked.allocated other ((recounted_live other).mp alive)
  · exact linked.expiry_nodup
  · intro other
    rw [recounted_live]
    exact linked.mem_expiry other
  · exact buckets (fun bucket => bucket.expiryElement = true) linked.expiry_element (linked.expiry_element g live)
  · intro count
    have rest := (linked.evictable_nodup count).erase g
    simp only [recounted]
    split
    · refine List.nodup_append.mpr ⟨rest, List.nodup_singleton g, fun a left b right => ?_⟩
      rw [List.mem_singleton.mp right]
      exact ((linked.evictable_nodup count).mem_erase_iff.mp left).1
    · rwa [List.append_nil]
  · intro count other
    have erased := (linked.evictable_nodup count).mem_erase_iff (a := other) (b := g)
    rw [recounted_live]
    by_cases same : other = g
    · subst same
      rw [recounted_heap_self]
      simp only [recounted, List.mem_append, erased]
      by_cases here : pending = 0 ∧ count = failures
      · simp [here, live]
      · simp only [if_neg here, ne_eq, not_true_eq_false, false_and, List.not_mem_nil, or_self, false_iff]
        rintro ⟨_, idle, own⟩
        exact here ⟨idle, own.symm⟩
    · rw [recounted_heap_ne same, ← linked.mem_evictable]
      simp only [recounted, List.mem_append, erased]
      by_cases here : pending = 0 ∧ count = failures
      · simp [here, same]
      · simp [here, same]
  · exact buckets (fun bucket => bucket.evictionElement = true ↔ bucket.pending = 0) linked.eviction_element
      decide_eq_true_iff
  · exact buckets (fun bucket => bucket.failures ≤ loginFailureLimit) linked.failures_le bound
  · exact buckets (fun bucket => 0 < bucket.failures + bucket.pending) linked.occupied occupied

end Recounted

/-- An attempt is reserved in a live bucket. -/
theorem reserve_eq (linked : Linked l) (live : l.Live g) :
    ((l.removeEvictable g).write g fun bucket => { bucket with pending := bucket.pending + 1 }) =
      l.recounted g (l.heap g).failures ((l.heap g).pending + 1) := by
  rw [removeEvictable_eq (linked.placed live)]
  simp [write, recounted]

omit [DecidableEq κ] in
/-- An unflagged bucket is appended to the list of its failure count. -/
theorem addEvictable_eq (unflagged : (l.heap g).evictionElement = false) : l.addEvictable g =
    { l with
      heap := Function.update l.heap g { l.heap g with evictionElement := true }
      evictable := fun count => l.evictable count ++ if count = (l.heap g).failures then [g] else [] } := by
  simp only [addEvictable, unflagged, Bool.false_eq_true, if_false, write]
  congr 1
  funext count
  by_cases own : count = (l.heap g).failures
  · rw [own, Function.update_self, if_pos rfl]
  · rw [Function.update_of_ne own, if_neg own, List.append_nil]

/-- A late failure is counted in a live bucket. -/
theorem recordLateFailure_live (linked : Linked l) {key : κ} (found : l.buckets.find? key = some g) (now : ℤ) :
    l.recordLateFailure key now = l.recounted g (countFailure (l.heap g).failures) (l.heap g).pending := by
  have placed := linked.placed (linked.live_of_find? found)
  simp only [recordLateFailure, found, removeEvictable_eq placed]
  by_cases idle : (l.heap g).pending = 0
  · rw [if_pos (by simp [write, Bucket.fail, idle]), addEvictable_eq (by simp [write, Bucket.fail])]
    simp [write, Bucket.fail, recounted, idle]
  · rw [if_neg (by simp [write, Bucket.fail, idle])]
    simp [write, Bucket.fail, recounted, idle]

/-- A settled bucket takes its new counts, or is deleted when nothing is left to count. -/
theorem settle_eq (linked : Linked l) (live : l.Live g) (busy : 0 < (l.heap g).pending)
    (result : AdmissionResult) {failures : ℕ} (counted : failures =
      if result = .failure then countFailure (l.heap g).failures else (l.heap g).failures) :
    l.settle g result =
      if (l.heap g).pending - 1 = 0 ∧ failures = 0 then
        l.unlinked g { l.heap g with
          failures, pending := (l.heap g).pending - 1, expiryElement := false, evictionElement := false }
      else l.recounted g failures ((l.heap g).pending - 1) := by
  have unflagged : (l.heap g).evictionElement = false := by
    have flag := linked.eviction_element g live
    rw [← Bool.not_eq_true, flag]
    omega
  have absent : ∀ count, g ∉ l.evictable count := by
    intro count member
    have idle := ((linked.mem_evictable count g).mp member).2.1
    omega
  have listed := linked.expiry_element g live
  let bucket : Bucket κ := { l.heap g with failures, pending := (l.heap g).pending - 1 }
  let counts : Limiter κ := { l with heap := Function.update l.heap g bucket }
  have state : l.settle g result =
      if bucket.pending = 0 then if failures = 0 then counts.deleteBucket g else counts.addEvictable g
      else counts := by
    cases result <;> simp [settle, write, Bucket.fail, counted, counts, bucket]
  have own : counts.heap g = bucket := Function.update_self _ _ _
  rw [state]
  by_cases idle : (l.heap g).pending - 1 = 0
  · by_cases empty : failures = 0
    · rw [if_pos idle, if_pos empty, if_pos ⟨idle, empty⟩, deleteBucket_eq]
      · simp [unlinked, counts, bucket]
      · rw [Live, own]
        exact live
      · rw [own]
        exact listed
      · refine ⟨?_, fun count member => absurd member (absent count)⟩
        rw [own]
        simp only [bucket, unflagged, Bool.false_eq_true, false_iff]
        exact absent _
    · rw [if_pos idle, if_neg empty, if_neg fun both => empty both.2, addEvictable_eq (by rw [own]; exact unflagged)]
      simp [recounted, counts, bucket, idle, List.erase_of_not_mem (absent _)]
  · rw [if_neg idle, if_neg fun both => idle both.1]
    simp [recounted, counts, bucket, idle, List.erase_of_not_mem (absent _), unflagged]

/-- A new bucket with an attempt in flight is linked. -/
theorem linked_create (bucket : Bucket κ) (linked : Linked l) (absent : l.buckets.find? bucket.key = none)
    (busy : 0 < bucket.pending) (bound : bucket.failures ≤ loginFailureLimit)
    (unflagged : bucket.evictionElement = false) :
    Linked (l.create bucket) ∧ ∀ g, (l.create bucket).Live g ↔ l.Live g ∨ g = l.next := by
  have heap_ne : ∀ g, g ≠ l.next → (l.create bucket).heap g = l.heap g := fun g differ =>
    Function.update_of_ne differ _ _
  have heap_self : (l.create bucket).heap l.next = { bucket with expiryElement := true } :=
    Function.update_self _ _ _
  have find : ∀ key, (l.create bucket).buckets.find? key =
      if key = bucket.key then some l.next else l.buckets.find? key := fun key => Table.find?_upsert _ _ _ _
  have older : ∀ g, l.Live g → g ≠ l.next := fun g live => (linked.allocated g live).ne
  have alive : ∀ g, (l.create bucket).Live g ↔ l.Live g ∨ g = l.next := by
    intro g
    by_cases new : g = l.next
    · subst new
      simp [Live, heap_self, find]
    · rw [Live, heap_ne g new, find]
      split
      · next own =>
        have dead : ¬l.Live g := by
          rw [Live, own, absent]
          exact (Option.some_ne_none g).symm
        simp [new, dead, Ne.symm new]
      · simp [Live, new]
  have buckets : ∀ P : Bucket κ → Prop, (∀ g, l.Live g → P (l.heap g)) → P { bucket with expiryElement := true } →
      ∀ g, (l.create bucket).Live g → P ((l.create bucket).heap g) := by
    intro P old new g live
    rcases (alive g).mp live with before | rfl
    · rw [heap_ne g (older g before)]
      exact old g before
    · rwa [heap_self]
  refine ⟨?_, alive⟩
  constructor
  · intro key g found
    rw [find] at found
    split at found
    · next own =>
      cases found
      rw [heap_self, own]
    · have live := linked.live_of_find? found
      rw [heap_ne g (older g live)]
      exact linked.keyed key g found
  · intro g live
    change g < l.next + 1
    rcases (alive g).mp live with old | rfl
    · have bound := linked.allocated g old
      omega
    · omega
  · refine List.nodup_append.mpr ⟨linked.expiry_nodup, List.nodup_singleton _, fun a left b right => ?_⟩
    rw [List.mem_singleton.mp right]
    exact older a ((linked.mem_expiry a).mp left)
  · intro g
    rw [alive, ← linked.mem_expiry]
    simp [create]
  · exact buckets (fun bucket => bucket.expiryElement = true) linked.expiry_element rfl
  · exact linked.evictable_nodup
  · intro failures g
    rw [alive]
    change g ∈ l.evictable failures ↔ _
    rw [linked.mem_evictable]
    by_cases new : g = l.next
    · subst new
      have dead : ¬l.Live l.next := fun live => older _ live rfl
      rw [heap_self]
      simp only [dead, false_and, or_true, true_and, false_iff]
      omega
    · rw [heap_ne g new]
      simp [new]
  · refine buckets (fun bucket => bucket.evictionElement = true ↔ bucket.pending = 0) linked.eviction_element ?_
    simp only [unflagged, Bool.false_eq_true, false_iff]
    omega
  · exact buckets (fun bucket => bucket.failures ≤ loginFailureLimit) linked.failures_le bound
  · exact buckets (fun bucket => 0 < bucket.failures + bucket.pending) linked.occupied (Nat.add_pos_right _ busy)

/-- A late failure starts a bucket as if its attempt had been reserved there. -/
theorem late_create_eq {key : κ} {expiresAt : ℤ} (absent : ∀ count, l.next ∉ l.evictable count) :
    (l.create { key, failures := 1, expiresAt }).addEvictable l.next =
      (l.create { key, pending := 1, expiresAt }).recounted l.next 1 0 := by
  rw [addEvictable_eq (by simp [create])]
  simp [create, recounted, List.erase_of_not_mem (absent _)]

end Limiter

end Helio.Auth
