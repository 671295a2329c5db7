import Helio.Machine.Run
import Helio.Model.RelayState

/-! # What a failed save leaves behind

The state in memory is changed before it is written and never changed back, and after a rejected
promise every later one is rejected without being carried out. So a relay keeps its promises exactly
as long as no writing and no renaming fails for a call that saves.
-/

namespace Helio.Relay

variable {s t : StateStore} {events : List Event} {event : Event}

def Fate.IsFine (fate : Fate) : Prop := fate.write = none ∧ fate.rename = none

instance (fate : Fate) : Decidable fate.IsFine := inferInstanceAs (Decidable (_ ∧ _))

def Operation.saves (operation : Operation) (data : Data) : Bool :=
  match operation.apply data with
  | .ok (some _) => true
  | _ => false

/-- Neither the writing nor the renaming fails for a call that saves. -/
def Succeeds (s : StateStore) : Event → Prop
  | .call operation fate => operation.saves s.memory = true → fate.IsFine
  | .turn => True

instance (s : StateStore) (event : Event) : Decidable (Succeeds s event) :=
  match event with
  | .call _ _ => inferInstanceAs (Decidable (_ → _))
  | .turn => isTrue trivial

/-- What is promised of the relay in a state. -/
structure Durable (s : StateStore) : Prop where
  saved : s.queue = [] → ∀ save result, s.settled.getLast? = some (save, result) → save.fate.IsFine →
    s.file = some s.memory
  unhindered : ∀ save result, (save, result) ∈ s.settled → save.fate.IsFine → result = .ok ()
  /-- A call that was rejected has left the state as it was, unless a later one has changed it. -/
  restored : s.queue = [] → ∀ save reason, s.settled.getLast? = some (save, .error reason) → s.memory = save.before
  refused : ∀ operation fate reason, operation.apply s.memory = .error reason →
    (s.call operation fate).memory = s.memory

def StateStore.saves (s : StateStore) : List Save := s.settled.map Prod.fst ++ s.queue

/-- Saving changes the state. -/
theorem apply_changes {operation : Operation} {data after : Data} (saves : operation.apply data = .ok (some after)) :
    after ≠ data := by
  rintro rfl
  cases operation with
  | updateSnapshot snapshot =>
    have updated := Except.ok.inj saves
    rw [Data.updateSnapshot] at updated
    split at updated
    · next current here =>
      split at updated
      · cases updated
      split at updated
      · cases updated
      next differ =>
      have same := congrArg Data.snapshot (Option.some.inj updated)
      rw [here] at same
      exact differ (Option.some.inj same).symm
    · next empty =>
      have same := congrArg Data.snapshot (Option.some.inj updated)
      rw [empty] at same
      cases same
  | addDevice deviceId =>
    unfold Operation.apply Data.addDevice at saves
    dsimp only at saves
    split at saves
    · cases saves
    split at saves
    · cases saves
    have same := congrArg (fun data => data.devices.length) (Option.some.inj (Except.ok.inj saves))
    rw [List.length_append] at same
    simp at same
  | removeDevice deviceId =>
    have removed := Except.ok.inj saves
    rw [Data.removeDevice] at removed
    split at removed
    · cases removed
    next differ =>
    have same := congrArg (fun data => data.devices.length) (Option.some.inj removed)
    exact differ same

/-- What a step can do to the promises. -/
inductive Stepped (s : StateStore) : Event → StateStore → Prop
  | saves (operation : Operation) (fate : Fate) (after : Data) (applied : operation.apply s.memory = .ok (some after)) :
    Stepped s (.call operation fate) { s with memory := after, queue := s.queue ++ [⟨s.memory, after, fate⟩] }
  | idle (operation : Operation) (fate : Fate) (unsaved : ∀ after, operation.apply s.memory ≠ .ok (some after)) :
    Stepped s (.call operation fate) s
  | rejects (save : Save) (rest : List Save) (queue : s.queue = save :: rest) (reason : String)
    (rejected : s.rejected = some reason) : Stepped s .turn (s.settle save rest (.error reason))
  | renameFails (save : Save) (rest : List Save) (queue : s.queue = save :: rest) (going : s.rejected = none)
    (written : s.written = true) (reason : String) (fault : save.fate.rename = some reason) :
    Stepped s .turn { s.settle save rest (.error reason) with rejected := some reason }
  | renames (save : Save) (rest : List Save) (queue : s.queue = save :: rest) (going : s.rejected = none)
    (written : s.written = true) (fine : save.fate.rename = none) :
    Stepped s .turn { s.settle save rest (.ok ()) with file := s.temporary, temporary := none }
  | writeFails (save : Save) (rest : List Save) (queue : s.queue = save :: rest) (going : s.rejected = none)
    (reason : String) (fault : save.fate.write = some reason) :
    Stepped s .turn { s.settle save rest (.error reason) with temporary := none, rejected := some reason }
  | writes (save : Save) (rest : List Save) (queue : s.queue = save :: rest) (going : s.rejected = none)
    (fine : save.fate.write = none) : Stepped s .turn { s with temporary := some save.after, written := true }

theorem step_cases (stepped : s.step event = some t) : Stepped s event t := by
  cases event with
  | call operation fate =>
    cases stepped
    rw [StateStore.call]
    split
    · next after applied => exact .saves operation fate after applied
    · next unsaved => exact .idle operation fate fun after applied => unsaved after applied
  | turn =>
    change s.turn = some t at stepped
    rw [StateStore.turn] at stepped
    split at stepped
    · cases stepped
    next save rest queue =>
    split at stepped
    · next reason rejected =>
      cases stepped
      exact .rejects save rest queue reason rejected
    next going =>
    split at stepped
    · next written =>
      split at stepped
      · next reason fault =>
        cases stepped
        exact .renameFails save rest queue going written reason fault
      · next fine =>
        cases stepped
        exact .renames save rest queue going written fine
    · split at stepped
      · next reason fault =>
        cases stepped
        exact .writeFails save rest queue going reason fault
      · next fine =>
        cases stepped
        exact .writes save rest queue going fine

theorem settle_saves {save : Save} {rest : List Save} (queue : s.queue = save :: rest) (result : Except String Unit) :
    (s.settle save rest result).saves = s.saves := by
  simp [StateStore.saves, StateStore.settle, queue]

/-- What holds in every state of a relay. -/
structure Sound (s : StateStore) : Prop where
  latest : ∀ save, s.saves.getLast? = some save → s.memory = save.after
  changed : ∀ save ∈ s.saves, save.after ≠ save.before
  going : s.rejected = none → (∀ entry ∈ s.settled, entry.1.fate.IsFine ∧ entry.2 = .ok ()) ∧
    ∀ entry, s.settled.getLast? = some entry → s.file = some entry.1.after
  stuck : ∀ reason, s.rejected = some reason →
    (∃ entry ∈ s.settled, ¬entry.1.fate.IsFine) ∧ ∃ save, s.settled.getLast? = some (save, .error reason)
  standing : s.written = true → s.rejected = none →
    ∃ save rest, s.queue = save :: rest ∧ s.temporary = some save.after ∧ save.fate.write = none

theorem sound_opened (memory : Data) (file : Option Data) : Sound (.opened memory file) := by
  constructor <;> simp [StateStore.opened, StateStore.saves]

/-- A promise is rejected: it is the latest that is settled, and one that failed has been settled. -/
theorem Sound.reject (sound : Sound s) {save : Save} {reason : String} (memory : t.memory = s.memory)
    (saves : t.saves = s.saves) (settled : t.settled = s.settled ++ [(save, .error reason)])
    (rejected : t.rejected = some reason) (written : t.written = false)
    (failed : (∃ entry ∈ s.settled, ¬entry.1.fate.IsFine) ∨ ¬save.fate.IsFine) : Sound t where
  latest := by
    rw [saves, memory]
    exact sound.latest
  changed := by
    rw [saves]
    exact sound.changed
  going := by
    rw [rejected]
    intro going
    cases going
  stuck cause same := by
    rw [rejected] at same
    cases same
    rw [settled]
    refine ⟨?_, save, List.getLast?_concat⟩
    rcases failed with ⟨entry, member, unfine⟩ | unfine
    · exact ⟨entry, List.mem_append_left _ member, unfine⟩
    · exact ⟨(save, .error reason), by simp, unfine⟩
  standing := by
    rw [written]
    intro standing
    cases standing

theorem Sound.step (sound : Sound s) (stepped : s.step event = some t) : Sound t := by
  cases step_cases stepped with
  | idle operation fate unsaved => exact sound
  | saves operation fate after applied =>
    have saves : StateStore.saves { s with memory := after, queue := s.queue ++ [⟨s.memory, after, fate⟩] } =
        s.saves ++ [⟨s.memory, after, fate⟩] := by simp [StateStore.saves]
    refine ⟨fun save here => ?_, fun save member => ?_, sound.going, sound.stuck, fun written going => ?_⟩
    · rw [saves, List.getLast?_concat] at here
      cases here
      rfl
    · rw [saves] at member
      rcases List.mem_append.mp member with old | new
      · exact sound.changed save old
      · rw [List.mem_singleton.mp new]
        exact apply_changes applied
    · obtain ⟨save, rest, queue, standing⟩ := sound.standing written going
      exact ⟨save, rest ++ [⟨s.memory, after, fate⟩], by rw [queue, List.cons_append], standing⟩
  | rejects save rest queue reason rejected =>
    exact sound.reject rfl (settle_saves queue _) rfl rejected rfl (Or.inl (sound.stuck reason rejected).1)
  | renameFails save rest queue going written reason fault =>
    refine sound.reject rfl (settle_saves queue (.error reason)) rfl rfl rfl (Or.inr fun fine => ?_)
    rw [fine.2] at fault
    cases fault
  | writeFails save rest queue going reason fault =>
    refine sound.reject rfl (settle_saves queue (.error reason)) rfl rfl rfl (Or.inr fun fine => ?_)
    rw [fine.1] at fault
    cases fault
  | renames save rest queue going written renamed =>
    obtain ⟨standing, _, here, temporary, wrote⟩ := sound.standing written going
    rw [queue] at here
    cases here
    have saves :
        StateStore.saves { s.settle save rest (Except.ok ()) with file := s.temporary, temporary := none } = s.saves :=
      settle_saves queue (Except.ok ())
    refine ⟨by rw [saves]; exact sound.latest, by rw [saves]; exact sound.changed,
      fun _ => ⟨fun entry member => ?_, fun entry last => ?_⟩, fun reason rejected => ?_,
      fun standing => by cases standing⟩
    · rcases List.mem_append.mp member with old | new
      · exact (sound.going going).1 entry old
      · rw [List.mem_singleton.mp new]
        exact ⟨⟨wrote, renamed⟩, rfl⟩
    · change (s.settled ++ [(save, Except.ok ())]).getLast? = some entry at last
      rw [List.getLast?_concat] at last
      cases last
      exact temporary
    · change s.rejected = some reason at rejected
      rw [going] at rejected
      cases rejected
  | writes save rest queue going wrote =>
    exact ⟨sound.latest, sound.changed, sound.going, sound.stuck, fun _ _ => ⟨save, rest, queue, rfl, wrote⟩⟩

/-- While no promise has been rejected, the relay keeps its own. -/
theorem Sound.durable (sound : Sound s) (going : s.rejected = none) : Durable s where
  saved idle save result last _ := by
    have latest : s.saves.getLast? = some save := by
      rw [StateStore.saves, idle, List.append_nil, List.getLast?_map, last]
      rfl
    rw [sound.latest save latest]
    exact (sound.going going).2 (save, result) last
  unhindered save result member _ := ((sound.going going).1 (save, result) member).2
  restored _ save reason last := by
    have fulfilled := ((sound.going going).1 _ (List.mem_of_getLast? last)).2
    cases fulfilled
  refused operation fate reason refused := by rw [StateStore.call, refused]

/-- A rejected promise is noticed once the queue is empty. -/
theorem Sound.going_of_durable (sound : Sound s) (idle : s.queue = []) (durable : Durable s) : s.rejected = none := by
  rcases rejected : s.rejected with _ | reason
  · rfl
  obtain ⟨-, save, last⟩ := sound.stuck reason rejected
  have latest : s.saves.getLast? = some save := by
    rw [StateStore.saves, idle, List.append_nil, List.getLast?_map, last]
    rfl
  have kept := durable.restored idle save reason last
  rw [sound.latest save latest] at kept
  exact absurd kept (sound.changed save (List.mem_of_getLast? latest))

/-- No writing and no renaming fails exactly when the step allows it. -/
theorem fine_step (stepped : s.step event = some t) :
    (∀ save ∈ t.saves, save.fate.IsFine) ↔ (∀ save ∈ s.saves, save.fate.IsFine) ∧ Succeeds s event := by
  cases step_cases stepped with
  | idle operation fate unsaved =>
    refine (and_iff_left fun saves => ?_).symm
    rw [Operation.saves] at saves
    split at saves
    · next after applied => exact absurd applied (unsaved after)
    · cases saves
  | saves operation fate after applied =>
    have saves : StateStore.saves { s with memory := after, queue := s.queue ++ [⟨s.memory, after, fate⟩] } =
        s.saves ++ [⟨s.memory, after, fate⟩] := by simp [StateStore.saves]
    have allowed : Succeeds s (.call operation fate) ↔ fate.IsFine := by simp [Succeeds, Operation.saves, applied]
    rw [saves, allowed, List.forall_mem_append, List.forall_mem_singleton]
  | rejects save rest queue reason rejected =>
    rw [settle_saves queue]
    exact (and_iff_left trivial).symm
  | renameFails save rest queue going written reason fault =>
    exact (settle_saves queue (.error reason)) ▸ (and_iff_left trivial).symm
  | writeFails save rest queue going reason fault =>
    exact (settle_saves queue (.error reason)) ▸ (and_iff_left trivial).symm
  | renames save rest queue going written renamed =>
    exact (settle_saves queue (Except.ok ())) ▸ (and_iff_left trivial).symm
  | writes save rest queue going wrote => exact (and_iff_left trivial).symm

/-- In a run in which no writing and no renaming fails for a call that saves, the relay keeps its promises;
and when it has kept them after all calls have been settled, none has failed. -/
theorem durable_exactly (memory : Data) (file : Option Data)
    (run : Run (Enabled StateStore.step) (.opened memory file) events t) :
    (Run (Guarded Succeeds (Enabled StateStore.step)) (.opened memory file) events t → Durable t) ∧
      (t.queue = [] → Durable t → Run (Guarded Succeeds (Enabled StateStore.step)) (.opened memory file) events t) := by
  have sound : Sound t := run.invariant (sound_opened memory file) fun _ _ _ before moved => before.step moved
  have exact_fates : Run (Guarded Succeeds (Enabled StateStore.step)) (.opened memory file) events t ↔
      ∀ save ∈ t.saves, save.fate.IsFine :=
    Run.guarded_iff run (by simp [StateStore.opened, StateStore.saves]) fun _ _ _ moved => fine_step moved
  rw [exact_fates]
  constructor
  · intro fine
    apply sound.durable
    rcases rejected : t.rejected with _ | reason
    · rfl
    obtain ⟨⟨entry, member, unfine⟩, -⟩ := sound.stuck reason rejected
    exact absurd (fine entry.1 (List.mem_append_left _ (List.mem_map_of_mem member))) unfine
  · intro idle durable save member
    rw [StateStore.saves, idle, List.append_nil] at member
    obtain ⟨entry, settled, rfl⟩ := List.mem_map.mp member
    exact ((sound.going (sound.going_of_durable idle durable)).1 entry settled).1

private def device : String := "amzn1.ask.device.A"

private def other : String := "amzn1.ask.device.B"

private def installed : List Event := [.call (.addDevice device) {}, .turn, .turn]

private def afterInstall : StateStore :=
  { memory := ⟨none, [device]⟩
    file := some ⟨none, [device]⟩
    temporary := none
    rejected := none
    queue := []
    written := false
    settled := [(⟨emptyState, ⟨none, [device]⟩, {}⟩, .ok ())] }

theorem installed_durable : Durable afterInstall := by
  have run : Run (Guarded Succeeds (Enabled StateStore.step)) (.opened emptyState none) installed afterInstall :=
    Run.of_guarded_foldlM rfl
  exact (durable_exactly emptyState none run.unguard).1 run

private def interrupted : List Event :=
  [.call (.addDevice device) ⟨some "ENOSPC", none⟩, .turn, .call (.addDevice other) {}, .turn]

private def afterwards : StateStore :=
  { memory := ⟨none, [device, other]⟩
    file := none
    temporary := none
    rejected := some "ENOSPC"
    queue := []
    written := false
    settled := [(⟨emptyState, ⟨none, [device]⟩, ⟨some "ENOSPC", none⟩⟩, .error "ENOSPC"),
      (⟨⟨none, [device]⟩, ⟨none, [device, other]⟩, {}⟩, .error "ENOSPC")] }

/-- After a full disk nothing is saved any more. -/
theorem interrupted_lost : Run (Enabled StateStore.step) (.opened emptyState none) interrupted afterwards ∧
    ¬Durable afterwards := by
  refine ⟨Run.of_foldlM rfl, fun durable => ?_⟩
  have saved := durable.saved rfl _ _ rfl ⟨rfl, rfl⟩
  cases saved

end Helio.Relay
