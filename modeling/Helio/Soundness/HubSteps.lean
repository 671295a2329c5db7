import Helio.Model.Hub

/-! # Steps of the event hub

What one step can do to the hub is said once (`Effect`). To a single channel, and to the list of the
messages that have come to it, a step does one of a few things (`Channel.Moves`), and every invariant of
a channel is kept by such a move. A message has come to a channel when its call took the lock, unless
that call still holds it and has the channel to serve.
-/

namespace Helio.Hub

variable {Event : Type}

namespace Stage

def todo : Stage → List ℕ
  | subscribers todo _ | bufferedSubscribers todo _ => todo

/-- The map that the loop goes through. -/
def discipline : Stage → Discipline
  | subscribers _ _ => .latestOnly
  | bufferedSubscribers _ _ => .buffered

def hand : Stage → Option ℕ
  | subscribers _ .choosing => none
  | subscribers _ (.replacing i) | subscribers _ (.resending i) => some i
  | bufferedSubscribers _ offering => offering

/-- The publisher has still to serve the channel, in this loop or in the next one. -/
def Awaits (stage : Stage) (discipline : Discipline) (i : ℕ) : Prop :=
  i ∈ stage.todo ∨ stage.discipline = .latestOnly ∧ discipline = .buffered

instance (stage : Stage) (discipline : Discipline) (i : ℕ) : Decidable (stage.Awaits discipline i) :=
  inferInstanceAs (Decidable (_ ∨ _))

/-- What the loops rely on while the lock is held. -/
structure Good (stage : Stage) (channels : List (Channel Event)) : Prop where
  distinct : stage.todo.Nodup
  targets : ∀ i ∈ stage.todo, ∃ c, channels[i]? = some c ∧ c.registered = true ∧ c.discipline = stage.discipline
  hand : ∀ i, stage.hand = some i → i ∈ stage.todo
  emptied : ∀ i, stage = .subscribers stage.todo (.resending i) → ∀ c, channels[i]? = some c → c.queue = []

end Stage

/-- The messages that have come to a channel. -/
def reached (s : Hub Event) (discipline : Discipline) (i : ℕ) : List (Message Event) :=
  match s.lock with
  | none => s.published
  | some held => if held.stage.Awaits discipline i then s.published.dropLast else s.published

namespace Channel

/-- What its subscriber does to a channel, and the hub on the subscriber's behalf. -/
inductive Own (c : Channel Event) : Channel Event → Prop
  | receives {c'} : c.receive = some c' → Own c c'
  | unsubscribes {c'} : c.unsubscribe = some c' → Own c c'

/-- What a step does to a channel and to the list of the messages that have come to it. -/
inductive Moves (c : Channel Event) (reached : List (Message Event)) :
    Channel Event → List (Message Event) → Prop
  | stays : Moves c reached c reached
  | owns {c'} : c.Own c' → Moves c reached c' reached
  | registers {c'} : c.register = some c' → Moves c reached c' reached
  | removes : c.once = .running → Moves c reached c.remove reached
  | drains : c.discipline = .latestOnly → Moves c reached c.drain reached
  | sends {message} : c.registered = true → c.hasRoom → Moves c reached (c.send message) (reached ++ [message])
  | misses {message} : c.registered = false ∨ c.done = true → Moves c reached c (reached ++ [message])

end Channel

/-- What a step can do. -/
inductive Effect (s : Hub Event) : Hub Event → Prop
  | opens (c : Channel Event) : c.queue = [] → c.sent = [] → c.received = [] → c.closed = false →
      c.done = false → c.registered = false → c.once = .unused → 0 < c.capacity →
      (c.discipline = .latestOnly → c.capacity = 1) → Effect s { s with channels := s.channels ++ [c] }
  | begins (event : Event) : Effect s { s with calls := s.calls ++ [⟨event, .waiting⟩] }
  | owns (i : ℕ) (c c' : Channel Event) : s.channels[i]? = some c → c.Own c' →
      Effect s { s with channels := s.channels.set i c' }
  | registers (i : ℕ) (c c' : Channel Event) : s.lock = none → s.channels[i]? = some c → c.register = some c' →
      Effect s { s with channels := s.channels.set i c' }
  | removes (i : ℕ) (c : Channel Event) : s.lock = none → s.channels[i]? = some c → c.once = .running →
      c.closed = false → Effect s { s with channels := s.channels.set i c.remove }
  | closesTwice (i : ℕ) (c : Channel Event) : s.channels[i]? = some c → c.once = .running → c.closed = true →
      Effect s { s with panicked := true }
  | acquires (call : ℕ) (event : Event) : s.lock = none → s.calls[call]? = some ⟨event, .waiting⟩ →
      Effect s { s with
        calls := s.calls.set call ⟨event, .publishing⟩
        lock := some ⟨⟨call, event⟩, .subscribers (s.registered .latestOnly) .choosing⟩
        published := s.published ++ [⟨call, event⟩] }
  | sends (message : Message Event) (stage next : Stage) (i : ℕ) (c : Channel Event) :
      s.lock = some ⟨message, stage⟩ → i ∈ stage.todo ∨ stage.hand = some i → next.todo = stage.todo.erase i →
      next.discipline = stage.discipline → next.hand = none → s.channels[i]? = some c → c.closed = false →
      c.hasRoom →
      Effect s { s with channels := s.channels.set i (c.send message), lock := some ⟨message, next⟩ }
  | sendsClosed (message : Message Event) (stage : Stage) (i : ℕ) (c : Channel Event) :
      s.lock = some ⟨message, stage⟩ → i ∈ stage.todo ∨ stage.hand = some i → s.channels[i]? = some c →
      c.closed = true → Effect s { s with panicked := true }
  | takes (message : Message Event) (stage next : Stage) (i : ℕ) : s.lock = some ⟨message, stage⟩ →
      i ∈ stage.todo → next.todo = stage.todo → next.discipline = stage.discipline → next.hand = some i →
      next ≠ .subscribers next.todo (.resending i) → Effect s { s with lock := some ⟨message, next⟩ }
  | drains (message : Message Event) (todo : List ℕ) (i : ℕ) (c : Channel Event) :
      s.lock = some ⟨message, .subscribers todo (.replacing i)⟩ → s.channels[i]? = some c →
      Effect s { s with
        channels := s.channels.set i c.drain
        lock := some ⟨message, .subscribers todo (.resending i)⟩ }
  | turns (message : Message Event) : s.lock = some ⟨message, .subscribers [] .choosing⟩ →
      Effect s { s with lock := some ⟨message, .bufferedSubscribers (s.registered .buffered) none⟩ }
  | abandons (message : Message Event) (todo : List ℕ) (i : ℕ) (c : Channel Event) :
      s.lock = some ⟨message, .bufferedSubscribers todo (some i)⟩ → s.channels[i]? = some c → c.done = true →
      Effect s { s with lock := some ⟨message, .bufferedSubscribers (todo.erase i) none⟩ }
  | releases (message : Message Event) : s.lock = some ⟨message, .bufferedSubscribers [] none⟩ →
      Effect s { s with lock := none, calls := s.calls.set message.call ⟨message.event, .returned⟩ }

variable {s t : Hub Event} {c c' : Channel Event} {reached reached' : List (Message Event)}

theorem update_cases {i : ℕ} {change : Channel Event → Option (Channel Event)} (updated : s.update i change = some t) :
    ∃ c c', s.channels[i]? = some c ∧ change c = some c' ∧ t = { s with channels := s.channels.set i c' } := by
  obtain ⟨c', changed, rfl⟩ := Option.map_eq_some_iff.mp updated
  obtain ⟨c, found, changed⟩ := Option.bind_eq_some_iff.mp changed
  exact ⟨c, c', found, changed, rfl⟩

/-- A send by the holder of the lock goes through, panics, or does what a full channel asks for. -/
theorem sendOr_cases {message : Message Event} {stage served : Stage} {i : ℕ} {full : Option (Hub Event)}
    (held : s.lock = some ⟨message, stage⟩) (sent : s.sendOr message i served full = some t)
    (target : i ∈ stage.todo ∨ stage.hand = some i) (todo : served.todo = stage.todo.erase i)
    (discipline : served.discipline = stage.discipline) (hand : served.hand = none) :
    Effect s t ∨ full = some t := by
  obtain ⟨c, found, sent⟩ := Option.bind_eq_some_iff.mp sent
  split at sent
  · rename_i closed
    cases sent
    exact Or.inl (.sendsClosed message stage i c held target found closed)
  · rename_i notClosed
    split at sent
    · rename_i room
      cases sent
      exact Or.inl (.sends message stage served i c held target todo discipline hand found
        (Bool.eq_false_iff.mpr notClosed) room)
    · exact Or.inr sent

theorem freeStep_effect {action : Action Event} (stepped : s.freeStep action = some t) : Effect s t := by
  cases action <;> try cases stepped
  case subscribe => exact .opens _ rfl rfl rfl rfl rfl rfl rfl (Nat.one_pos) fun _ => rfl
  case subscribeBuffered capacity =>
    refine .opens _ rfl rfl rfl rfl rfl rfl rfl ?_ fun same => by cases same
    dsimp only
    split <;> omega
  case publish event => exact .begins event
  case receive i =>
    obtain ⟨c, c', found, changed, rfl⟩ := update_cases stepped
    exact .owns i c c' found (.receives changed)
  case unsubscribe i =>
    obtain ⟨c, c', found, changed, rfl⟩ := update_cases stepped
    exact .owns i c c' found (.unsubscribes changed)

theorem lockedStep_effect {action : Action Event} (free : s.lock = none)
    (stepped : s.lockedStep action = some t) : Effect s t := by
  cases action <;> try cases stepped
  case register i =>
    obtain ⟨c, c', found, changed, rfl⟩ := update_cases stepped
    exact .registers i c c' free found changed
  case remove i =>
    obtain ⟨c, found, stepped⟩ := Option.bind_eq_some_iff.mp stepped
    obtain ⟨running, stepped⟩ := Option.ite_none_right_eq_some.mp stepped
    split at stepped
    · rename_i closed
      cases stepped
      exact .closesTwice i c found running closed
    · rename_i notClosed
      cases stepped
      exact .removes i c free found running (Bool.eq_false_iff.mpr notClosed)
  case acquire call =>
    rw [lockedStep] at stepped
    split at stepped
    · rename_i event waiting
      cases stepped
      exact .acquires call event free waiting
    · cases stepped

theorem publisherStep_effect {action : Action Event} {held : Publishing Event} (holds : s.lock = some held)
    (stepped : s.publisherStep held action = some t) : Effect s t := by
  obtain ⟨message, stage⟩ := held
  cases action <;> try cases stepped
  case serve i =>
    dsimp only [publisherStep] at stepped
    split at stepped
    · obtain ⟨left, stepped⟩ := Option.ite_none_right_eq_some.mp stepped
      rcases sendOr_cases holds stepped (Or.inl left) rfl rfl rfl with effect | full
      · exact effect
      · cases full
        exact .takes message _ _ i holds left rfl rfl rfl fun same => by cases same
    · cases stepped
  case drain =>
    dsimp only [publisherStep] at stepped
    split at stepped
    · obtain ⟨c, found, rfl⟩ := Option.map_eq_some_iff.mp stepped
      exact .drains message _ _ c holds found
    · cases stepped
  case resend =>
    dsimp only [publisherStep] at stepped
    split at stepped
    · exact (sendOr_cases holds stepped (Or.inr rfl) rfl rfl rfl).resolve_right fun same => by cases same
    · cases stepped
  case turn =>
    dsimp only [publisherStep] at stepped
    split at stepped
    · cases stepped
      exact .turns message holds
    · cases stepped
  case offer i =>
    dsimp only [publisherStep] at stepped
    split at stepped
    · obtain ⟨left, same⟩ := Option.ite_none_right_eq_some.mp stepped
      cases same
      exact .takes message _ _ i holds left rfl rfl rfl fun same => by cases same
    · cases stepped
  case deliver =>
    dsimp only [publisherStep] at stepped
    split at stepped
    · exact (sendOr_cases holds stepped (Or.inr rfl) rfl rfl rfl).resolve_right fun same => by cases same
    · cases stepped
  case abandon =>
    dsimp only [publisherStep] at stepped
    split at stepped
    · obtain ⟨c, found, stepped⟩ := Option.bind_eq_some_iff.mp stepped
      obtain ⟨done, same⟩ := Option.ite_none_right_eq_some.mp stepped
      cases same
      exact .abandons message _ _ c holds found done
    · cases stepped
  case release =>
    dsimp only [publisherStep] at stepped
    split at stepped
    · cases stepped
      exact .releases message holds
    · cases stepped

theorem step_effect {action : Action Event} (stepped : s.step action = some t) : Effect s t := by
  unfold step at stepped
  split at stepped
  · cases stepped
  · cases action <;> dsimp only at stepped
    case subscribe | subscribeBuffered | publish | receive | unsubscribe => exact freeStep_effect stepped
    case register | remove | acquire =>
      obtain ⟨free, stepped⟩ := Option.ite_none_left_eq_some.mp stepped
      exact lockedStep_effect (Option.not_isSome_iff_eq_none.mp free) stepped
    all_goals
      obtain ⟨held, holds, stepped⟩ := Option.bind_eq_some_iff.mp stepped
      exact publisherStep_effect holds stepped

namespace Channel

/-- What holds of a channel and the messages that have come to it. -/
structure Good (c : Channel Event) (reached : List (Message Event)) : Prop where
  closed_iff : c.closed = true ↔ c.once = .finished
  standing : c.registered = true → c.once ≠ .finished
  done_iff : c.done = true ↔ c.discipline = .buffered ∧ c.once ≠ .unused
  room : c.discipline = .latestOnly → c.capacity = 1
  fresh : c.once = .unused → c.registered = false → c.sent = []
  bounded : c.queue.length ≤ c.capacity
  taken : List.Sublist (c.received ++ c.queue) c.sent
  complete : c.discipline = .buffered → c.received ++ c.queue = c.sent
  ordered : c.sent.Sublist reached
  recent : c.discipline = .latestOnly → c.registered = true → ∀ message ∈ c.queue, reached.getLast? = some message
  last : c.discipline = .latestOnly → ∀ message ∈ c.queue, c.sent.getLast? = some message

variable {c c' : Channel Event} {reached reached' : List (Message Event)}

theorem receive_cases (taken : c.receive = some c') :
    ∃ message rest, c.queue = message :: rest ∧
      c' = { c with queue := rest, received := c.received ++ [message] } := by
  unfold receive at taken
  split at taken
  · cases taken
  · rename_i message rest queue
    cases taken
    exact ⟨message, rest, queue, rfl⟩

theorem unsubscribe_cases (left : c.unsubscribe = some c') :
    (c.once = .unused ∧ c.registered = true ∧
      c' = { c with once := .running, done := c.discipline = .buffered }) ∨
    (c.once ≠ .unused ∧ c' = c) := by
  unfold unsubscribe at left
  split at left
  · rename_i unused
    obtain ⟨registered, same⟩ := Option.ite_none_right_eq_some.mp left
    cases same
    exact Or.inl ⟨unused, registered, rfl⟩
  · rename_i running
    cases left
    exact Or.inr ⟨by simp [running], rfl⟩
  · rename_i finished
    cases left
    exact Or.inr ⟨by simp [finished], rfl⟩

theorem register_cases (registered : c.register = some c') :
    c.registered = false ∧ c.once = .unused ∧ c' = { c with registered := true } := by
  obtain ⟨⟨absent, unused⟩, same⟩ := Option.ite_none_right_eq_some.mp registered
  cases same
  exact ⟨absent, unused, rfl⟩

theorem Own.discipline (own : c.Own c') : c'.discipline = c.discipline ∧ c'.registered = c.registered := by
  cases own with
  | receives taken =>
    obtain ⟨message, rest, -, rfl⟩ := receive_cases taken
    exact ⟨rfl, rfl⟩
  | unsubscribes left =>
    obtain ⟨-, -, rfl⟩ | ⟨-, rfl⟩ := unsubscribe_cases left <;> exact ⟨rfl, rfl⟩

theorem Own.sent (own : c.Own c') : c'.sent = c.sent := by
  cases own with
  | receives taken =>
    obtain ⟨message, rest, -, rfl⟩ := receive_cases taken
    rfl
  | unsubscribes left =>
    obtain ⟨-, -, rfl⟩ | ⟨-, rfl⟩ := unsubscribe_cases left <;> rfl

theorem Own.queue_nil (own : c.Own c') (empty : c.queue = []) : c'.queue = [] := by
  cases own with
  | receives taken =>
    obtain ⟨message, rest, queue, rfl⟩ := receive_cases taken
    rw [queue] at empty
    cases empty
  | unsubscribes left =>
    obtain ⟨-, -, rfl⟩ | ⟨-, rfl⟩ := unsubscribe_cases left <;> exact empty

theorem Moves.congr {other : List (Message Event)} (moved : c.Moves reached c' reached') (same : other = reached') :
    c.Moves reached c' other := same ▸ moved

theorem Good.own (good : c.Good reached) (own : c.Own c') : c'.Good reached := by
  cases own with
  | receives taken =>
    obtain ⟨message, rest, queue, rfl⟩ := receive_cases taken
    have whole : (c.received ++ [message]) ++ rest = c.received ++ c.queue := by simp [queue]
    refine { good with bounded := ?_, taken := ?_, complete := ?_, recent := ?_, last := ?_ }
    · have := good.bounded
      rw [queue, List.length_cons] at this
      exact Nat.le_of_succ_le this
    · exact whole ▸ good.taken
    · exact fun buffered => whole.trans (good.complete buffered)
    · intro latest registered other member
      exact good.recent latest registered other (queue ▸ List.mem_cons_of_mem _ member)
    · exact fun latest other member => good.last latest other (queue ▸ List.mem_cons_of_mem _ member)
  | unsubscribes left =>
    obtain ⟨unused, registered, rfl⟩ | ⟨-, rfl⟩ := unsubscribe_cases left
    · refine { good with closed_iff := ?_, standing := ?_, done_iff := ?_, fresh := ?_ }
      · simpa [unused] using good.closed_iff
      all_goals simp
    · exact good

/-- A channel of the first kind with room is empty. -/
theorem Good.empty (good : c.Good reached) (latest : c.discipline = .latestOnly) (room : c.hasRoom) :
    c.queue = [] := by
  unfold hasRoom at room
  rw [good.room latest] at room
  exact List.eq_nil_of_length_eq_zero (Nat.lt_one_iff.mp room)

theorem Good.moves (good : c.Good reached) (moved : c.Moves reached c' reached') : c'.Good reached' := by
  cases moved with
  | stays => exact good
  | owns own => exact good.own own
  | registers registered =>
    obtain ⟨absent, unused, rfl⟩ := register_cases registered
    have empty : c.received ++ c.queue = [] := by
      have taken := good.taken
      rw [good.fresh unused absent] at taken
      exact List.sublist_nil.mp taken
    refine { good with standing := ?_, fresh := ?_, recent := ?_ }
    · simp [unused]
    · simp
    · intro _ _ message member
      rw [(List.append_eq_nil_iff.mp empty).2] at member
      cases member
  | removes running =>
    refine { good with closed_iff := ?_, standing := ?_, done_iff := ?_, fresh := ?_, recent := ?_ }
    · simp [remove]
    · simp [remove]
    · simpa [remove, running] using good.done_iff
    · simp [remove]
    · simp [remove]
  | drains latest =>
    refine { good with bounded := ?_, taken := ?_, complete := ?_, recent := ?_, last := ?_ }
    · rw [drain, List.length_tail]
      exact Nat.le_trans (Nat.sub_le _ _) good.bounded
    · exact (List.Sublist.append (List.Sublist.refl _) (List.tail_sublist _)).trans good.taken
    · intro buffered
      rw [show c.drain.discipline = c.discipline from rfl, latest] at buffered
      cases buffered
    · exact fun latest registered message member =>
        good.recent latest registered message (List.mem_of_mem_tail member)
    · exact fun latest message member => good.last latest message (List.mem_of_mem_tail member)
  | sends registered room =>
    refine { good with fresh := ?_, bounded := ?_, taken := ?_, complete := ?_, ordered := ?_, recent := ?_, last := ?_ }
    · intro _ absent
      rw [send, registered] at absent
      cases absent
    · rw [send, List.length_append]
      exact room
    · rw [send, ← List.append_assoc]
      exact good.taken.append (List.Sublist.refl _)
    · intro buffered
      rw [send, ← List.append_assoc, good.complete buffered]
    · exact good.ordered.append (List.Sublist.refl _)
    · intro latest _ message member
      rw [send, good.empty latest room] at member
      rw [List.mem_singleton.mp member, List.getLast?_concat]
    · intro latest message member
      rw [send, good.empty latest room] at member
      rw [List.mem_singleton.mp member]
      exact List.getLast?_concat
  | misses absent =>
    refine { good with ordered := ?_, recent := ?_ }
    · exact good.ordered.trans (List.sublist_append_left _ _)
    · intro latest registered
      rcases absent with absent | done
      · rw [absent] at registered
        cases registered
      · rw [(good.done_iff.mp done).1] at latest
        cases latest

/-- Once its unsubscribing has begun it does not become undone. -/
theorem Moves.unused (moved : c.Moves reached c' reached') (unused : c'.once = .unused) : c.once = .unused := by
  cases moved with
  | stays | misses | drains | sends => exact unused
  | owns own =>
    cases own with
    | receives taken =>
      obtain ⟨message, rest, -, rfl⟩ := receive_cases taken
      exact unused
    | unsubscribes left =>
      obtain ⟨before, -⟩ | ⟨-, rfl⟩ := unsubscribe_cases left
      · exact before
      · exact unused
  | registers registered => exact (register_cases registered).2.1
  | removes => cases unused

theorem Moves.sent_grows (moved : c.Moves reached c' reached') : ∃ later, c'.sent = c.sent ++ later := by
  cases moved with
  | stays | misses | drains | removes => exact ⟨[], (List.append_nil _).symm⟩
  | sends => exact ⟨_, rfl⟩
  | owns own => exact ⟨[], own.sent.trans (List.append_nil _).symm⟩
  | registers registered =>
    obtain ⟨-, -, rfl⟩ := register_cases registered
    exact ⟨[], (List.append_nil _).symm⟩

/-- A subscriber is sent all that comes to it as long as its unsubscribing has not begun. -/
theorem Good.misses_nothing (good : c.Good reached) (moved : c.Moves reached c' reached')
    (registered : c.registered = true) (unused : c'.once = .unused) :
    c'.registered = true ∧ ∃ later, c'.sent = c.sent ++ later ∧ reached' = reached ++ later := by
  have before := moved.unused unused
  cases moved with
  | stays | drains => exact ⟨registered, [], by simp [drain]⟩
  | owns own =>
    have same := (List.append_nil c.sent).symm
    exact ⟨own.discipline.2.trans registered, [], own.sent.trans same, (List.append_nil _).symm⟩
  | registers again =>
    rw [(register_cases again).1] at registered
    cases registered
  | removes => cases unused
  | sends => exact ⟨registered, _, rfl, rfl⟩
  | misses absent =>
    rcases absent with absent | done
    · rw [absent] at registered
      cases registered
    · exact absurd before (good.done_iff.mp done).2

end Channel

end Helio.Hub
