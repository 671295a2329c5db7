import Helio.Machine.Interleaving
import Mathlib.Data.Set.Basic

/-! # Rights of threads

A right belongs to at most one thread at a time: being inside a critical section, or being the one
thread that does a certain thing. Everybody else spares what it protects, so its owner may rely on it
(`Upholds`); while nobody owns it, `free` holds of the shared state. A thread may use what it knows
from its own rights only, and keeps an invariant of the shared state in every call. When all programs
uphold the rights, every interleaving of them does (`Rights.run_kept`).
-/

namespace Helio

structure Rights (σ Right Call : Type) where
  takes : Call → Option Right
  gives : Call → Option Right
  /-- The shared state says that somebody owns the right. -/
  taken : Right → σ → Prop
  /-- What a step does that does not own the right. -/
  spares : Right → σ → σ → Prop
  free : Right → σ → Prop
  /-- What every step does. -/
  grows : σ → σ → Prop
  inv : σ → Prop

namespace Rights

variable {σ Request Luck World Right : Type} {Call : Type} {Reply : Call → Type} {α β : Type}
  (rights : Rights σ Right Call)

/-- What happens between two steps of a thread that owns these rights. -/
structure Meanwhile (owned : Set Right) (s t : σ) : Prop where
  inv : rights.inv t
  grows : rights.grows s t
  spares : ∀ right ∈ owned, rights.spares right s t

/-- What a thread owns after a call. -/
def after (owned : Set Right) (c : Call) : Set Right :=
  fun right => rights.gives c ≠ some right ∧ (rights.takes c = some right ∨ right ∈ owned)

/-- Rights that agree with the calls of a system. -/
structure Lawful (system : Interleaving σ Request Luck World Reply α) : Prop where
  grows_refl : ∀ s, rights.grows s s
  grows_trans : ∀ {s t u}, rights.grows s t → rights.grows t u → rights.grows s u
  spares_refl : ∀ right s, rights.spares right s s
  spares_trans : ∀ {right s t u}, rights.spares right s t → rights.spares right t u → rights.spares right s u
  free_spares : ∀ {right s t}, rights.inv s → rights.spares right s t → rights.free right s → rights.free right t
  takes_free : ∀ {s request luck c effect right}, system.exec s request luck c = some effect →
    rights.takes c = some right → ¬rights.taken right s ∧ rights.taken right effect.1
  stays_taken : ∀ {s request luck c effect right}, system.exec s request luck c = some effect →
    rights.gives c ≠ some right → rights.taken right s → rights.taken right effect.1
  world_kept : ∀ {s change t}, rights.inv s → system.world s change = some t →
    rights.inv t ∧ rights.grows s t ∧ ∀ right, rights.spares right s t ∧ (rights.taken right s → rights.taken right t)

/-- What a call has to do: it keeps the invariant, spares what the thread does not own, and gives back
what it owns in good order. -/
structure Keeps (owned : Set Right) (c : Call) (s t : σ) : Prop where
  inv : rights.inv t
  grows : rights.grows s t
  spares : ∀ right, right ∉ owned → rights.takes c ≠ some right → rights.spares right s t
  gives : ∀ right, rights.gives c = some right → right ∈ owned ∧ rights.free right t

variable (exec : σ → Request → Luck → (c : Call) → Option (σ × Reply c)) (request : Request)

/-- Whatever the others do, the program keeps the rights, and it ends as promised. -/
def Upholds (ends : Set Right → β → σ → Prop) : Set Right → Program Call Reply β → σ → Prop
  | owned, .done value, s => ∀ t, rights.Meanwhile owned s t → ends owned value t
  | owned, .call c next, s => ∀ t, rights.Meanwhile owned s t → ∀ luck u answer,
    exec t request luck c = some (u, answer) → (∀ right, rights.takes c = some right → rights.free right t) →
      rights.Keeps owned c t u ∧ Upholds ends (rights.after owned c) (next answer) u

variable {rights exec request} {system : Interleaving σ Request Luck World Reply α} {owned : Set Right} {s t u : σ}
  {ends : Set Right → β → σ → Prop}

theorem Meanwhile.refl (lawful : rights.Lawful system) (good : rights.inv s) : rights.Meanwhile owned s s :=
  ⟨good, lawful.grows_refl s, fun right _ => lawful.spares_refl right s⟩

theorem Meanwhile.trans (lawful : rights.Lawful system) (first : rights.Meanwhile owned s t)
    (second : rights.Meanwhile owned t u) : rights.Meanwhile owned s u :=
  ⟨second.inv, lawful.grows_trans first.grows second.grows,
    fun right own => lawful.spares_trans (first.spares right own) (second.spares right own)⟩

/-- A program that upholds the rights still does later. -/
theorem Upholds.later (lawful : rights.Lawful system) {p : Program Call Reply β}
    (upholds : rights.Upholds exec request ends owned p s) (between : rights.Meanwhile owned s t) :
    rights.Upholds exec request ends owned p t := by
  cases p with
  | done value => exact fun u more => upholds u (between.trans lawful more)
  | call c next => exact fun u more => upholds u (between.trans lawful more)

/-- A program upholds the rights when it does so from every state that may come meanwhile. -/
theorem Upholds.of_later (lawful : rights.Lawful system) {p : Program Call Reply β}
    (upholds : ∀ t, rights.Meanwhile owned s t → rights.Upholds exec request ends owned p t) :
    rights.Upholds exec request ends owned p s := by
  cases p with
  | done value => exact fun t between => upholds t between t (.refl lawful between.inv)
  | call c next => exact fun t between => upholds t between t (.refl lawful between.inv)

theorem Upholds.weaken {weaker : Set Right → β → σ → Prop} {p : Program Call Reply β}
    (upholds : rights.Upholds exec request ends owned p s)
    (implied : ∀ owned value t, ends owned value t → weaker owned value t) :
    rights.Upholds exec request weaker owned p s := by
  induction p generalizing owned s with
  | done value => exact fun t between => implied owned value t (upholds t between)
  | call c next ih =>
    intro t between luck u answer executed free
    obtain ⟨kept, rest⟩ := upholds t between luck u answer executed free
    exact ⟨kept, ih answer rest⟩

/-- The frame rule: what only grows more true is still true at the end. -/
theorem Upholds.keep {p : Program Call Reply β} {known : σ → Prop}
    (upholds : rights.Upholds exec request ends owned p s) (lasting : ∀ {s t}, rights.grows s t → known s → known t)
    (here : known s) : rights.Upholds exec request (fun owned value t => ends owned value t ∧ known t) owned p s := by
  induction p generalizing owned s with
  | done value => exact fun t between => ⟨upholds t between, lasting between.grows here⟩
  | call c next ih =>
    intro t between luck u answer executed free
    obtain ⟨kept, rest⟩ := upholds t between luck u answer executed free
    exact ⟨kept, ih answer rest (lasting kept.grows (lasting between.grows here))⟩

/-- The rule of sequencing: the second program starts where the first one ends. -/
theorem Upholds.bind (lawful : rights.Lawful system) {γ : Type} {final : Set Right → γ → σ → Prop}
    {p : Program Call Reply β} {rest : β → Program Call Reply γ}
    (first : rights.Upholds exec request
      (fun owned value t => rights.Upholds exec request final owned (rest value) t) owned p s) :
    rights.Upholds exec request final owned (p >>= rest) s := by
  induction p generalizing owned s with
  | done value => exact .of_later lawful first
  | call c next ih =>
    intro t between luck u answer executed free
    obtain ⟨kept, later⟩ := first t between luck u answer executed free
    exact ⟨kept, ih answer later⟩

/-- A call that takes and gives nothing changes nothing that the thread owns. -/
theorem after_eq {c : Call} (takes : rights.takes c = none) (gives : rights.gives c = none) :
    rights.after owned c = owned := by
  ext right
  refine ⟨fun stays => stays.2.resolve_left (by simp [takes]), fun own => ⟨by simp [gives], Or.inr own⟩⟩

theorem after_takes {c : Call} {right : Right} (takes : rights.takes c = some right) (gives : rights.gives c = none) :
    rights.after owned c = insert right owned := by
  ext other
  refine ⟨fun stays => ?_, fun member => ⟨by simp [gives], ?_⟩⟩
  · rcases stays.2 with taken | own
    · exact Or.inl (Option.some.inj (taken.symm.trans takes))
    · exact Or.inr own
  · rcases member with rfl | own
    · exact Or.inl takes
    · exact Or.inr own

theorem after_gives {c : Call} {right : Right} (takes : rights.takes c = none) (gives : rights.gives c = some right) :
    rights.after owned c = owned \ {right} := by
  ext other
  refine ⟨fun stays => ⟨stays.2.resolve_left (by simp [takes]), ?_⟩, fun member => ⟨?_, Or.inr member.1⟩⟩
  · rintro rfl
    exact stays.1 gives
  · intro given
    exact member.2 (Option.some.inj (given.symm.trans gives))

/-- The rule of a call, from what is known before it. -/
theorem Upholds.call {c : Call} {next : Reply c → Program Call Reply β} {known : σ → Prop} (here : known s)
    (stable : ∀ t, rights.Meanwhile owned s t → known s → known t)
    (steps : ∀ t luck u answer, known t → rights.inv t → exec t request luck c = some (u, answer) →
      (∀ right, rights.takes c = some right → rights.free right t) →
      rights.Keeps owned c t u ∧ rights.Upholds exec request ends (rights.after owned c) (next answer) u) :
    rights.Upholds exec request ends owned (.call c next) s := fun t between luck u answer executed free =>
  steps t luck u answer (stable t between here) between.inv executed free

/-- What the thread at a place owns. -/
def owns (owner : Right → Option ℕ) (i : ℕ) : Set Right := fun right => owner right = some i

theorem mem_owns {owner : Right → Option ℕ} {i : ℕ} {right : Right} : right ∈ owns owner i ↔ owner right = some i :=
  Iff.rfl

/-- Some assignment of the rights to threads under which every thread upholds its own. -/
def Kept (rights : Rights σ Right Call) (system : Interleaving σ Request Luck World Reply α)
    (ends : Request → Set Right → α → σ → Prop) (s : Flight σ Request Reply α) : Prop :=
  rights.inv s.shared ∧ ∃ owner : Right → Option ℕ,
    (∀ right, owner right = none → rights.free right s.shared) ∧
    (∀ right i, owner right = some i → i < s.threads.length ∧ rights.taken right s.shared) ∧
    ∀ i thread, s.threads[i]? = some thread →
      rights.Upholds system.exec thread.request (ends thread.request) (owns owner i) thread.rest s.shared

section Step

variable {ends : Request → Set Right → α → σ → Prop} {s t : Flight σ Request Reply α}

theorem kept_begins {request : Request} (kept : rights.Kept system ends s)
    (upholds : rights.Upholds system.exec request (ends request) ∅ (system.body request) s.shared) :
    rights.Kept system ends ⟨s.shared, s.threads ++ [system.launch s.shared request]⟩ := by
  obtain ⟨good, owner, free, taken, threads⟩ := kept
  refine ⟨good, owner, free, fun right i own => ?_, fun i thread found => ?_⟩
  · obtain ⟨bound, held⟩ := taken right i own
    exact ⟨by rw [List.length_append]; omega, held⟩
  · rcases Nat.lt_or_ge i s.threads.length with old | new
    · rw [List.getElem?_append_left old] at found
      exact threads i thread found
    · rw [List.getElem?_append_right new] at found
      obtain rfl := List.mem_singleton.mp (List.mem_of_getElem? found)
      have nothing : owns owner i = ∅ := by
        ext right
        refine iff_of_false (fun own => ?_) (Set.notMem_empty right)
        have := (taken right i (mem_owns.mp own)).1
        omega
      rw [nothing]
      exact upholds

theorem kept_world (lawful : rights.Lawful system) {change : World} (kept : rights.Kept system ends s)
    (changed : system.world s.shared change = some t.shared) (same : t.threads = s.threads) :
    rights.Kept system ends t := by
  obtain ⟨good, owner, free, taken, threads⟩ := kept
  obtain ⟨after, grows, spares⟩ := lawful.world_kept good changed
  refine ⟨after, owner, fun right nobody => lawful.free_spares good (spares right).1 (free right nobody),
    fun right i own => ?_, fun i thread found => ?_⟩
  · rw [same]
    exact ⟨(taken right i own).1, (spares right).2 (taken right i own).2⟩
  · rw [same] at found
    exact (threads i thread found).later lawful ⟨after, grows, fun right _ => (spares right).1⟩

open Classical in
theorem kept_moves (lawful : rights.Lawful system) {i : ℕ} {luck : Luck} {thread later : Thread Request Reply α}
    (kept : rights.Kept system ends s) (found : s.threads[i]? = some thread)
    (advanced : system.advance s.shared thread luck = some (t.shared, later))
    (same : t.threads = s.threads.set i later) : rights.Kept system ends t := by
  obtain ⟨good, owner, free, taken, threads⟩ := kept
  obtain ⟨c, next, answer, standing, executed, rfl⟩ := Interleaving.advance_cases advanced
  have bound := (List.getElem?_eq_some_iff.mp found).1
  have mine := threads i thread found
  rw [standing] at mine
  -- A right that the call takes had no owner, and one that it gives back was the thread's own.
  have nobody : ∀ right, rights.takes c = some right → owner right = none := by
    intro right takes
    rcases known : owner right with _ | j
    · rfl
    · exact absurd (taken right j known).2 (lawful.takes_free executed takes).1
  obtain ⟨keeps, rest⟩ := mine s.shared (.refl lawful good) luck t.shared answer executed
    fun right takes => free right (nobody right takes)
  let owner' : Right → Option ℕ := fun right =>
    if rights.gives c = some right then none else if rights.takes c = some right then some i else owner right
  have others : ∀ j, j ≠ i → owns owner' j = owns owner j := by
    intro j other
    ext right
    rw [mem_owns, mem_owns]
    by_cases gives : rights.gives c = some right
    · have own := mem_owns.mp (keeps.gives right gives).1
      simp [owner', gives, own, other.symm]
    · by_cases takes : rights.takes c = some right
      · simp [owner', gives, takes, nobody right takes, other.symm]
      · simp [owner', gives, takes]
  have self : owns owner' i = rights.after (owns owner i) c := by
    ext right
    rw [mem_owns]
    by_cases gives : rights.gives c = some right
    · exact iff_of_false (by simp [owner', gives]) fun stays => stays.1 gives
    · by_cases takes : rights.takes c = some right
      · exact iff_of_true (by simp [owner', gives, takes]) ⟨gives, Or.inl takes⟩
      · have same : owner' right = owner right := by simp [owner', gives, takes]
        rw [same]
        exact ⟨fun own => ⟨gives, Or.inr own⟩, fun stays => stays.2.resolve_left takes⟩
  refine ⟨keeps.inv, owner', fun right nobody' => ?_, fun right j own => ?_, fun j other here => ?_⟩
  · by_cases gives : rights.gives c = some right
    · exact (keeps.gives right gives).2
    · by_cases takes : rights.takes c = some right
      · simp [owner', gives, takes] at nobody'
      · have before : owner right = none := by simpa [owner', gives, takes] using nobody'
        have foreign : right ∉ owns owner i := fun own => by
          rw [mem_owns, before] at own
          cases own
        have spared := keeps.spares right foreign takes
        exact lawful.free_spares good spared (free right before)
  · rw [same, List.length_set]
    by_cases gives : rights.gives c = some right
    · simp [owner', gives] at own
    · by_cases takes : rights.takes c = some right
      · have here : i = j := by simpa [owner', gives, takes] using own
        exact ⟨here ▸ bound, (lawful.takes_free executed takes).2⟩
      · have before : owner right = some j := by simpa [owner', gives, takes] using own
        exact ⟨(taken right j before).1, lawful.stays_taken executed gives (taken right j before).2⟩
  · rw [same] at here
    by_cases mover : i = j
    · subst mover
      rw [List.getElem?_set_self bound] at here
      cases here
      rw [self]
      exact rest
    · rw [List.getElem?_set_ne mover] at here
      rw [others j (Ne.symm mover)]
      refine (threads j other here).later lawful ⟨keeps.inv, keeps.grows, fun right own => ?_⟩
      rw [mem_owns] at own
      refine keeps.spares right (fun mine => ?_) fun takes => ?_
      · rw [mem_owns, own] at mine
        exact mover (Option.some.inj mine).symm
      · rw [nobody right takes] at own
        cases own

/-- When the programs of all requests that begin uphold the rights, every run keeps them. -/
theorem run_kept (lawful : rights.Lawful system)
    {guard : Flight σ Request Reply α → Happening Request Luck World → Prop}
    {events : List (Happening Request Luck World)} (run : Run (Guarded guard (Enabled system.step)) s events t)
    (initial : rights.Kept system ends s)
    (bodies : ∀ (s : Flight σ Request Reply α) request, guard s (.begins request) → rights.inv s.shared →
      rights.Upholds system.exec request (ends request) ∅ (system.body request) s.shared) :
    rights.Kept system ends t := by
  refine run.invariant initial ?_
  rintro s event t kept ⟨allowed, stepped⟩
  obtain ⟨request, rfl, rfl⟩ | ⟨i, luck, thread, later, rfl, found, advanced, threads⟩ |
    ⟨change, rfl, changed, threads⟩ := Interleaving.step_cases stepped
  · exact kept_begins kept (bodies s request allowed kept.1)
  · exact kept_moves lawful kept found advanced threads
  · exact kept_world lawful kept changed threads

/-- A finished thread has ended as promised, and this still holds. -/
theorem Kept.ended (lawful : rights.Lawful system) (kept : rights.Kept system ends s)
    {thread : Thread Request Reply α} {value : α} (member : thread ∈ s.threads) (finished : thread.rest = .done value) :
    ∃ owned, ends thread.request owned value s.shared := by
  obtain ⟨good, owner, -, -, threads⟩ := kept
  obtain ⟨i, found⟩ := List.mem_iff_getElem?.mp member
  have upholds := threads i thread found
  rw [finished] at upholds
  exact ⟨_, upholds s.shared (.refl lawful good)⟩

end Step

section Bare

variable {grows : σ → σ → Prop} {inv : σ → Prop} {exec : σ → Request → Luck → (c : Call) → Option (σ × Reply c)}
  {request : Request} {s : σ} {owned : Set PEmpty} {ends : Set PEmpty → β → σ → Prop}

/-- No rights: an invariant, and what only grows. -/
def bare (grows : σ → σ → Prop) (inv : σ → Prop) : Rights σ PEmpty Call where
  takes _ := none
  gives _ := none
  taken right := right.elim
  spares right := right.elim
  free right := right.elim
  grows := grows
  inv := inv

theorem bare_lawful {system : Interleaving σ Request Luck World Reply α} (refl : ∀ s, grows s s)
    (trans : ∀ {s t u}, grows s t → grows t u → grows s u)
    (world : ∀ {s change t}, inv s → system.world s change = some t → inv t ∧ grows s t) :
    (bare grows inv).Lawful system where
  grows_refl := refl
  grows_trans := trans
  spares_refl right := right.elim
  spares_trans {right} := right.elim
  free_spares {right} := right.elim
  takes_free {_ _ _ _ _ right} := right.elim
  stays_taken {_ _ _ _ _ right} := right.elim
  world_kept good changed := ⟨(world good changed).1, (world good changed).2, fun right => right.elim⟩

theorem Upholds.bare_done {value : β} (here : ∀ t, inv t → grows s t → ends owned value t) :
    (bare grows inv).Upholds exec request ends owned (.done value) s :=
  fun t between => here t between.inv between.grows

theorem Upholds.bare_call {c : Call} {next : Reply c → Program Call Reply β}
    (steps : ∀ t luck u answer, grows s t → inv t → exec t request luck c = some (u, answer) →
      inv u ∧ grows t u ∧ (bare grows inv).Upholds exec request ends owned (next answer) u) :
    (bare grows inv).Upholds exec request ends owned (.call c next) s := by
  intro t between luck u answer executed _
  obtain ⟨good, grown, rest⟩ := steps t luck u answer between.grows between.inv executed
  refine ⟨⟨good, grown, fun right => right.elim, fun right => right.elim⟩, ?_⟩
  rw [after_eq rfl rfl]
  exact rest

theorem bare_kept {system : Interleaving σ Request Luck World Reply α} {ends : Request → Set PEmpty → α → σ → Prop}
    {s : Flight σ Request Reply α} (good : inv s.shared) (fresh : s.threads = []) :
    (bare grows inv).Kept system ends s := by
  refine ⟨good, fun _ => none, fun right => right.elim, fun right => right.elim, fun i thread found => ?_⟩
  rw [fresh] at found
  cases found

end Bare

end Rights

end Helio
