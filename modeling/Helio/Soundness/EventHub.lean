import Helio.Soundness.HubSteps
import Mathlib.Data.List.Nodup

/-! # Delivery by the event hub

The lock belongs to one publisher at a time, whose loops serve channels that stay registered meanwhile;
the log of the messages is extended when the lock is taken. So a channel moves as said in every step,
and what the subscribers can rely on holds in every run.
-/

namespace Helio.Hub

variable {Event : Type} {s t : Hub Event} {c c' : Channel Event}

/-- The log lists calls that took the lock, each once; a call that has returned is on it, and the
holder of the lock is its last. -/
structure Logged (calls : List (PublishCall Event)) (published : List (Message Event))
    (holder : Option (Message Event)) : Prop where
  taken : ∀ message ∈ published, ∃ point, calls[message.call]? = some ⟨message.event, point⟩ ∧ point ≠ .waiting
  distinct : (published.map Message.call).Nodup
  returned : ∀ call event, calls[call]? = some ⟨event, .returned⟩ → ⟨call, event⟩ ∈ published
  holder : ∀ message, holder = some message → ∃ earlier, published = earlier ++ [message] ∧
    calls[message.call]? = some ⟨message.event, .publishing⟩

/-- What holds of the hub between steps. -/
structure Good (s : Hub Event) : Prop where
  running : s.panicked = false
  channels : ∀ (i : ℕ) (c : Channel Event), s.channels[i]? = some c → c.Good (s.reached c.discipline i)
  log : Logged s.calls s.published (s.lock.map Publishing.message)
  targets : ∀ held, s.lock = some held → held.stage.Good s.channels

theorem mem_registered {discipline : Discipline} {i : ℕ} :
    i ∈ s.registered discipline ↔ ∃ c, s.channels[i]? = some c ∧ c.registered = true ∧ c.discipline = discipline := by
  rw [registered, List.mem_filter, List.mem_range, Option.any_eq_true]
  constructor
  · rintro ⟨-, c, found, kept⟩
    simp only [Bool.and_eq_true, decide_eq_true_eq] at kept
    exact ⟨c, found, kept⟩
  · rintro ⟨c, found, kept⟩
    refine ⟨(List.getElem?_eq_some_iff.mp found).1, c, found, ?_⟩
    simpa only [Bool.and_eq_true, decide_eq_true_eq] using kept

theorem nodup_registered (s : Hub Event) (discipline : Discipline) : (s.registered discipline).Nodup :=
  List.nodup_range.filter _

section Reached

variable {discipline : Discipline} {i : ℕ} {message : Message Event} {stage : Stage}

theorem reached_free (free : s.lock = none) : s.reached discipline i = s.published := by
  rw [reached, free]

theorem reached_awaited (held : s.lock = some ⟨message, stage⟩) (awaited : stage.Awaits discipline i) :
    s.reached discipline i = s.published.dropLast := by
  rw [reached, held]
  exact if_pos awaited

theorem reached_served (held : s.lock = some ⟨message, stage⟩) (served : ¬ stage.Awaits discipline i) :
    s.reached discipline i = s.published := by
  rw [reached, held]
  exact if_neg served

theorem reached_congr {next : Stage} (before : s.lock = some ⟨message, stage⟩) (after : t.lock = some ⟨message, next⟩)
    (log : t.published = s.published) (same : next.Awaits discipline i ↔ stage.Awaits discipline i) :
    t.reached discipline i = s.reached discipline i := by
  by_cases awaited : stage.Awaits discipline i
  · rw [reached_awaited before awaited, reached_awaited after (same.mpr awaited), log]
  · rw [reached_served before awaited, reached_served after fun still => awaited (same.mp still), log]

/-- A channel that is served gets the message of the publisher added to what has come to it. -/
theorem reached_snoc {next : Stage} (good : s.Good) (before : s.lock = some ⟨message, stage⟩)
    (after : t.lock = some ⟨message, next⟩) (log : t.published = s.published)
    (awaited : stage.Awaits discipline i) (served : ¬ next.Awaits discipline i) :
    t.reached discipline i = s.reached discipline i ++ [message] := by
  obtain ⟨earlier, published, -⟩ := good.log.holder message (by rw [before]; rfl)
  rw [reached_awaited before awaited, reached_served after served, log, published, List.dropLast_concat]

end Reached

/-- A channel after another one, or the channel itself, was replaced. -/
theorem channel_set {i j : ℕ} {old : Channel Event} (here : s.channels[i]? = some c)
    (found : s.channels[j]? = some old) (new : Channel Event) :
    (j = i ∧ old = c ∧ (s.channels.set j new)[i]? = some new) ∨
      (j ≠ i ∧ (s.channels.set j new)[i]? = some c) := by
  by_cases same : j = i
  · subst same
    rw [here] at found
    cases found
    exact Or.inl ⟨rfl, rfl, List.getElem?_set_self (List.getElem?_eq_some_iff.mp here).1⟩
  · exact Or.inr ⟨same, by rw [List.getElem?_set_ne same, here]⟩

theorem Stage.awaits_congr {stage next : Stage} {i : ℕ} {discipline : Discipline} (todo : next.todo = stage.todo)
    (same : next.discipline = stage.discipline) : next.Awaits discipline i ↔ stage.Awaits discipline i := by
  rw [Awaits, Awaits, todo, same]

theorem Stage.awaits_erase {stage next : Stage} {i j : ℕ} {discipline : Discipline} (differ : j ≠ i)
    (todo : next.todo = stage.todo.erase j) (same : next.discipline = stage.discipline) :
    next.Awaits discipline i ↔ stage.Awaits discipline i := by
  rw [Awaits, Awaits, todo, same, List.mem_erase_of_ne differ.symm]

/-- A channel that its loop has served is not awaited any more. -/
theorem Stage.Good.served {stage next : Stage} {i : ℕ} (good : stage.Good s.channels)
    (here : s.channels[i]? = some c) (target : i ∈ stage.todo) (todo : next.todo = stage.todo.erase i)
    (same : next.discipline = stage.discipline) : ¬ next.Awaits c.discipline i := by
  obtain ⟨found, there, -, kind⟩ := good.targets i target
  rw [here] at there
  cases there
  rintro (left | ⟨first, second⟩)
  · rw [todo] at left
    exact good.distinct.not_mem_erase left
  · rw [kind, ← same, first] at second
    cases second

theorem Stage.Good.target {stage : Stage} {i : ℕ} (good : stage.Good s.channels)
    (target : i ∈ stage.todo ∨ stage.hand = some i) : i ∈ stage.todo :=
  target.elim id (good.hand i)

/-- What a step does to a channel. -/
theorem Good.channel_moves {i : ℕ} (good : s.Good) (effect : Effect s t) (here : s.channels[i]? = some c) :
    ∃ c', t.channels[i]? = some c' ∧ c'.discipline = c.discipline ∧
      c.Moves (s.reached c.discipline i) c' (t.reached c.discipline i) := by
  cases effect with
  | opens new =>
    refine ⟨c, ?_, rfl, .stays⟩
    rw [List.getElem?_append_left (List.getElem?_eq_some_iff.mp here).1, here]
  | begins | closesTwice | sendsClosed => exact ⟨c, here, rfl, .stays⟩
  | owns j old new found own =>
    obtain ⟨rfl, rfl, there⟩ | ⟨-, there⟩ := channel_set here found new
    · exact ⟨new, there, own.discipline.1, .owns own⟩
    · exact ⟨c, there, rfl, .stays⟩
  | registers j old new free found registered =>
    obtain ⟨rfl, rfl, there⟩ | ⟨-, there⟩ := channel_set here found new
    · refine ⟨new, there, ?_, .registers registered⟩
      obtain ⟨-, -, rfl⟩ := Channel.register_cases registered
      rfl
    · exact ⟨c, there, rfl, .stays⟩
  | removes j old free found running =>
    obtain ⟨rfl, rfl, there⟩ | ⟨-, there⟩ := channel_set here found old.remove
    · exact ⟨_, there, rfl, .removes running⟩
    · exact ⟨c, there, rfl, .stays⟩
  | acquires call event free waiting =>
    refine ⟨c, here, rfl, ?_⟩
    rw [reached_free free]
    by_cases awaited : (Stage.subscribers (s.registered .latestOnly) .choosing).Awaits c.discipline i
    · refine Channel.Moves.congr .stays ((reached_awaited rfl awaited).trans ?_)
      exact List.dropLast_concat
    · refine Channel.Moves.congr (.misses (Or.inl ?_)) (reached_served rfl awaited)
      by_contra registered
      rcases kind : c.discipline with _ | _
      · exact awaited (Or.inl (mem_registered.mpr ⟨c, here, Bool.not_eq_false _ ▸ registered, kind⟩))
      · exact awaited (Or.inr ⟨rfl, kind⟩)
  | sends message stage next j old held target todo kind hand found notClosed room =>
    have ready := good.targets _ held
    obtain ⟨rfl, rfl, there⟩ | ⟨differ, there⟩ := channel_set here found (old.send message)
    · have left := ready.target target
      obtain ⟨c, found', registered, -⟩ := ready.targets j left
      rw [found] at found'
      cases found'
      exact ⟨_, there, rfl, Channel.Moves.congr (.sends registered room)
        (reached_snoc good held rfl rfl (Or.inl left) (ready.served here left todo kind))⟩
    · exact ⟨c, there, rfl, Channel.Moves.congr .stays
        (reached_congr held rfl rfl (Stage.awaits_erase differ todo kind))⟩
  | takes message stage next j held target todo kind =>
    exact ⟨c, here, rfl, Channel.Moves.congr .stays (reached_congr held rfl rfl (Stage.awaits_congr todo kind))⟩
  | drains message todo j old held found =>
    have same (discipline : Discipline) (i : ℕ) :
        reached { s with
          channels := s.channels.set j old.drain
          lock := some ⟨message, .subscribers todo (.resending j)⟩ } discipline i = s.reached discipline i :=
      reached_congr held rfl rfl (Stage.awaits_congr rfl rfl)
    obtain ⟨rfl, rfl, there⟩ | ⟨differ, there⟩ := channel_set here found old.drain
    · obtain ⟨c, found', -, kind⟩ := (good.targets _ held).targets j ((good.targets _ held).hand j rfl)
      rw [found] at found'
      cases found'
      exact ⟨_, there, rfl, Channel.Moves.congr (.drains kind) (same _ _)⟩
    · exact ⟨c, there, rfl, Channel.Moves.congr .stays (same _ _)⟩
  | turns message held =>
    refine ⟨c, here, rfl, ?_⟩
    by_cases awaited : (Stage.bufferedSubscribers (s.registered .buffered) none).Awaits c.discipline i
    · refine Channel.Moves.congr .stays (reached_congr held rfl rfl ⟨fun _ => ?_, fun _ => awaited⟩)
      rcases awaited with later | ⟨impossible, -⟩
      · obtain ⟨c, found, -, kind⟩ := mem_registered.mp later
        rw [here] at found
        cases found
        exact Or.inr ⟨rfl, kind⟩
      · cases impossible
    · by_cases kind : c.discipline = .buffered
      · refine Channel.Moves.congr (.misses (Or.inl ?_)) (reached_snoc good held rfl rfl (Or.inr ⟨rfl, kind⟩) awaited)
        by_contra registered
        exact awaited (Or.inl (mem_registered.mpr ⟨c, here, Bool.not_eq_false _ ▸ registered, kind⟩))
      · refine Channel.Moves.congr .stays (reached_congr held rfl rfl ⟨fun still => absurd still awaited, ?_⟩)
        rintro (impossible | ⟨-, buffered⟩)
        · cases impossible
        · exact absurd buffered kind
  | abandons message todo j old held found done =>
    have ready := good.targets _ held
    refine ⟨c, here, rfl, ?_⟩
    by_cases same : j = i
    · subst same
      rw [here] at found
      cases found
      have left := ready.hand j rfl
      exact Channel.Moves.congr (.misses (Or.inr done))
        (reached_snoc good held rfl rfl (Or.inl left) (ready.served here left rfl rfl))
    · exact Channel.Moves.congr .stays (reached_congr held rfl rfl (Stage.awaits_erase same rfl rfl))
  | releases message held =>
    refine ⟨c, here, rfl, Channel.Moves.congr .stays ?_⟩
    have served : ¬ (Stage.bufferedSubscribers [] none).Awaits c.discipline i := by
      rintro (impossible | ⟨impossible, -⟩) <;> cases impossible
    exact (reached_free rfl).trans (reached_served held served).symm

/-- Every channel after a step was there before, or is empty and not in the hub. -/
theorem Effect.channel_cases {i : ℕ} (effect : Effect s t) (there : t.channels[i]? = some c') :
    (∃ c, s.channels[i]? = some c) ∨ ∀ reached, c'.Good reached := by
  have kept {j : ℕ} {new : Channel Event} (there : (s.channels.set j new)[i]? = some c') :
      ∃ c, s.channels[i]? = some c := by
    obtain ⟨bound, -⟩ := List.getElem?_eq_some_iff.mp there
    rw [List.length_set] at bound
    exact ⟨_, List.getElem?_eq_getElem bound⟩
  cases effect with
  | opens new queue sent received closed done registered once positive slot =>
    rw [List.getElem?_append] at there
    split at there
    · exact Or.inl ⟨c', there⟩
    · obtain rfl := List.mem_singleton.mp (List.mem_of_getElem? there)
      exact Or.inr fun reached => by constructor <;> simp_all
  | owns | registers | removes | sends | drains => exact Or.inl (kept there)
  | _ => exact Or.inl ⟨c', there⟩

/-- A target of the publisher stays one in steps that leave its stage as it is. -/
theorem Stage.Good.set {stage : Stage} {i : ℕ} {new : Channel Event} (good : stage.Good s.channels)
    (here : s.channels[i]? = some c) (kind : new.discipline = c.discipline) (kept : new.registered = c.registered)
    (empty : c.queue = [] → new.queue = []) : stage.Good (s.channels.set i new) where
  distinct := good.distinct
  targets j left := by
    obtain ⟨old, found, registered, discipline⟩ := good.targets j left
    obtain ⟨rfl, rfl, there⟩ | ⟨-, there⟩ := channel_set found here new
    · exact ⟨new, there, kept.trans registered, kind.trans discipline⟩
    · exact ⟨old, there, registered, discipline⟩
  hand := good.hand
  emptied j resending old there := by
    obtain ⟨bound, -⟩ := List.getElem?_eq_some_iff.mp there
    rw [List.length_set] at bound
    obtain ⟨rfl, -, set⟩ | ⟨-, set⟩ := channel_set (List.getElem?_eq_getElem bound) here new
    · rw [there] at set
      cases set
      exact empty (good.emptied i resending c here)
    · rw [there] at set
      cases set
      exact good.emptied j resending _ (List.getElem?_eq_getElem bound)

theorem Good.no_panic (good : s.Good) (effect : Effect s t) : t.panicked = false := by
  cases effect with
  | closesTwice i c found running closed =>
    rw [(good.channels i c found).closed_iff, running] at closed
    cases closed
  | sendsClosed message stage i c held target found closed =>
    have ready := good.targets _ held
    obtain ⟨c', found', registered, -⟩ := ready.targets i (ready.target target)
    rw [found] at found'
    cases found'
    have channel := good.channels i c found
    exact absurd (channel.closed_iff.mp closed) (channel.standing registered)
  | _ => exact good.running

theorem Good.channels_kept (good : s.Good) (effect : Effect s t) (i : ℕ) (c' : Channel Event)
    (there : t.channels[i]? = some c') : c'.Good (t.reached c'.discipline i) := by
  rcases effect.channel_cases there with ⟨c, here⟩ | fresh
  · obtain ⟨same, found, kind, moved⟩ := good.channel_moves effect here
    rw [there] at found
    cases found
    rw [kind]
    exact (good.channels i c here).moves moved
  · exact fresh _

/-- What a step does to the calls, the log and the message of the holder. -/
theorem Effect.log_cases (effect : Effect s t) :
    (t.calls = s.calls ∧ t.published = s.published ∧ t.lock.map Publishing.message = s.lock.map Publishing.message) ∨
    (∃ event, t.calls = s.calls ++ [⟨event, .waiting⟩] ∧ t.published = s.published ∧ t.lock = s.lock) ∨
    (∃ call event, s.lock = none ∧ s.calls[call]? = some ⟨event, .waiting⟩ ∧
      t.calls = s.calls.set call ⟨event, .publishing⟩ ∧ t.published = s.published ++ [⟨call, event⟩] ∧
      t.lock.map Publishing.message = some ⟨call, event⟩) ∨
    (∃ message : Message Event, s.lock.map Publishing.message = some message ∧ t.lock = none ∧
      t.calls = s.calls.set message.call ⟨message.event, .returned⟩ ∧ t.published = s.published) := by
  cases effect with
  | begins event => exact Or.inr (Or.inl ⟨event, rfl, rfl, rfl⟩)
  | acquires call event free waiting => exact Or.inr (Or.inr (Or.inl ⟨call, event, free, waiting, rfl, rfl, rfl⟩))
  | releases message held => exact Or.inr (Or.inr (Or.inr ⟨message, by rw [held]; rfl, rfl, rfl, rfl⟩))
  | opens | owns | registers | removes | closesTwice | sendsClosed => exact Or.inl ⟨rfl, rfl, rfl⟩
  | sends _ _ _ _ _ held | takes _ _ _ _ held | drains _ _ _ _ held | turns _ held | abandons _ _ _ _ held =>
    exact Or.inl ⟨rfl, rfl, by rw [held]; rfl⟩

namespace Logged

variable {calls : List (PublishCall Event)} {published : List (Message Event)} {holder : Option (Message Event)}
  {event : Event} {call : ℕ}

theorem begins (log : Logged calls published holder) : Logged (calls ++ [⟨event, .waiting⟩]) published holder where
  taken message member := by
    obtain ⟨point, found, taken⟩ := log.taken message member
    exact ⟨point, by rw [List.getElem?_append_left (List.getElem?_eq_some_iff.mp found).1, found], taken⟩
  distinct := log.distinct
  returned call event found := by
    rw [List.getElem?_append] at found
    split at found
    · exact log.returned call event found
    · cases List.mem_singleton.mp (List.mem_of_getElem? found)
  holder message held := by
    obtain ⟨earlier, same, found⟩ := log.holder message held
    exact ⟨earlier, same, by rw [List.getElem?_append_left (List.getElem?_eq_some_iff.mp found).1, found]⟩

theorem acquires (log : Logged calls published none) (waiting : calls[call]? = some ⟨event, .waiting⟩) :
    Logged (calls.set call ⟨event, .publishing⟩) (published ++ [⟨call, event⟩]) (some ⟨call, event⟩) where
  taken message member := by
    rcases List.mem_append.mp member with old | new
    · obtain ⟨point, found, taken⟩ := log.taken message old
      have differ : call ≠ message.call := by
        rintro rfl
        rw [waiting] at found
        cases found
        exact taken rfl
      exact ⟨point, by rw [List.getElem?_set_ne differ, found], taken⟩
    · obtain rfl := List.mem_singleton.mp new
      exact ⟨_, List.getElem?_set_self (List.getElem?_eq_some_iff.mp waiting).1, by simp⟩
  distinct := by
    rw [List.map_append, List.map_singleton, List.nodup_append_comm]
    refine List.nodup_cons.mpr ⟨fun member => ?_, log.distinct⟩
    obtain ⟨message, old, same⟩ := List.mem_map.mp member
    obtain ⟨point, found, taken⟩ := log.taken message old
    rw [same, waiting] at found
    cases found
    exact taken rfl
  returned other event' found := by
    rw [List.getElem?_set] at found
    split at found
    · split at found <;> cases found
    · exact List.mem_append_left _ (log.returned other event' found)
  holder message held := by
    cases held
    exact ⟨published, rfl, List.getElem?_set_self (List.getElem?_eq_some_iff.mp waiting).1⟩

theorem releases {message : Message Event} (log : Logged calls published (some message)) :
    Logged (calls.set message.call ⟨message.event, .returned⟩) published none where
  taken other member := by
    obtain ⟨point, found, taken⟩ := log.taken other member
    obtain ⟨earlier, -, publishing⟩ := log.holder message rfl
    by_cases same : message.call = other.call
    · rw [same, found] at publishing
      obtain ⟨event, -⟩ := PublishCall.mk.inj (Option.some.inj publishing)
      rw [same, List.getElem?_set_self (List.getElem?_eq_some_iff.mp found).1, event]
      exact ⟨_, rfl, by simp⟩
    · exact ⟨point, by rw [List.getElem?_set_ne same, found], taken⟩
  distinct := log.distinct
  returned call event found := by
    obtain ⟨earlier, same, -⟩ := log.holder message rfl
    rw [List.getElem?_set] at found
    split at found
    · rename_i here
      split at found
      · cases found
        rw [same]
        exact List.mem_append_right _ (by simp [← here])
      · cases found
    · exact log.returned call event found
  holder other held := by cases held

end Logged

theorem Good.log_kept (good : s.Good) (effect : Effect s t) :
    Logged t.calls t.published (t.lock.map Publishing.message) := by
  have log := good.log
  obtain ⟨calls, published, lock⟩ | ⟨event, calls, published, lock⟩ |
    ⟨call, event, free, waiting, calls, published, lock⟩ | ⟨message, held, free, calls, published⟩ := effect.log_cases
  · rw [calls, published, lock]
    exact log
  · rw [calls, published, lock]
    exact log.begins
  · rw [free] at log
    rw [calls, published, lock]
    exact log.acquires waiting
  · rw [held] at log
    rw [calls, published, free]
    exact log.releases

theorem Good.targets_kept (good : s.Good) (effect : Effect s t) (held : Publishing Event) (holds : t.lock = some held) :
    held.stage.Good t.channels := by
  cases effect with
  | opens new =>
    have ready := good.targets held holds
    refine { ready with targets := fun i left => ?_, emptied := fun i resending c there => ?_ }
    · obtain ⟨c, found, kept⟩ := ready.targets i left
      exact ⟨c, by rw [List.getElem?_append_left (List.getElem?_eq_some_iff.mp found).1, found], kept⟩
    · obtain ⟨old, found, -⟩ := ready.targets i (ready.hand i (by rw [resending]; rfl))
      rw [List.getElem?_append_left (List.getElem?_eq_some_iff.mp found).1] at there
      exact ready.emptied i resending c there
  | begins | closesTwice | sendsClosed => exact good.targets held holds
  | owns i c c' found own =>
    exact (good.targets held holds).set found own.discipline.1 own.discipline.2 own.queue_nil
  | registers i c c' free | removes i c free =>
    rw [free] at holds
    cases holds
  | releases => cases holds
  | acquires call event =>
    cases holds
    refine ⟨s.nodup_registered _, fun i left => mem_registered.mp left, fun i none => ?_, fun i impossible => ?_⟩
    · cases none
    · cases impossible
  | turns message =>
    cases holds
    refine ⟨s.nodup_registered _, fun i left => mem_registered.mp left, fun i none => ?_, fun i impossible => ?_⟩
    · cases none
    · cases impossible
  | sends message stage next i c before target todo kind hand found =>
    cases holds
    have ready := good.targets _ before
    refine ⟨?_, fun j left => ?_, fun j some => ?_, fun j resending => ?_⟩
    · rw [todo]
      exact ready.distinct.erase i
    · rw [todo] at left
      obtain ⟨differ, left⟩ := ready.distinct.mem_erase_iff.mp left
      obtain ⟨old, there, registered, discipline⟩ := ready.targets j left
      refine ⟨old, by rw [List.getElem?_set_ne differ.symm, there], registered, discipline.trans kind.symm⟩
    · rw [hand] at some
      cases some
    · change next = _ at resending
      rw [resending] at hand
      cases hand
  | takes message stage next i before left todo kind hand notResending =>
    cases holds
    have ready := good.targets _ before
    refine ⟨todo ▸ ready.distinct, fun j member => ?_, fun j some => ?_, fun j resending => ?_⟩
    · obtain ⟨old, there, registered, discipline⟩ := ready.targets j (todo ▸ member)
      exact ⟨old, there, registered, discipline.trans kind.symm⟩
    · rw [hand] at some
      cases some
      exact todo ▸ left
    · change next = _ at resending
      have same : next.hand = some j := by rw [resending]; rfl
      rw [hand] at same
      cases same
      exact absurd resending notResending
  | drains message todo i c before found =>
    cases holds
    have ready := good.targets _ before
    have single : c.queue.length ≤ 1 := by
      obtain ⟨target, there, -, kind⟩ := ready.targets i (ready.hand i rfl)
      rw [found] at there
      cases there
      have channel := good.channels i c found
      exact channel.room kind ▸ channel.bounded
    have set : Stage.Good (.subscribers todo (.replacing i)) (s.channels.set i c.drain) :=
      ready.set found rfl rfl fun empty => by rw [Channel.drain, empty]; rfl
    refine ⟨ready.distinct, set.targets, ready.hand, fun j resending old there => ?_⟩
    obtain ⟨-, same⟩ := Stage.subscribers.inj resending
    cases same
    rw [List.getElem?_set_self (List.getElem?_eq_some_iff.mp found).1] at there
    cases there
    exact List.eq_nil_of_length_eq_zero (by rw [Channel.drain, List.length_tail]; omega)
  | abandons message todo i c before found done =>
    cases holds
    have ready := good.targets _ before
    refine ⟨ready.distinct.erase i, fun j left => ?_, fun j none => ?_, fun j impossible => ?_⟩
    · exact ready.targets j (List.mem_of_mem_erase left)
    · cases none
    · cases impossible

theorem Good.step {action : Action Event} (good : s.Good) (stepped : s.step action = some t) : t.Good :=
  have effect := step_effect stepped
  ⟨good.no_panic effect, good.channels_kept effect, good.log_kept effect, good.targets_kept effect⟩

theorem good_empty : ({} : Hub Event).Good where
  running := rfl
  channels i c found := by cases found
  log := ⟨by simp, by simp, by simp, by simp⟩
  targets held holds := by cases holds

theorem run_good {actions : List (Action Event)} (run : Run (Enabled Hub.step) {} actions s) : s.Good :=
  run.invariant good_empty fun _ _ _ good stepped => good.step stepped

section Runs

variable {s₁ s₂ : Hub Event} {actions : List (Action Event)} {i call : ℕ} {event : Event}

theorem Good.run (good : s₁.Good) (run : Run (Enabled Hub.step) s₁ actions s₂) : s₂.Good :=
  run.invariant good fun _ _ _ good stepped => good.step stepped

/-- The log grows at its end, by calls that are younger than those it has. -/
theorem Good.published_grows (good : s₁.Good) (run : Run (Enabled Hub.step) s₁ actions s₂) :
    ∃ later, s₂.published = s₁.published ++ later := by
  refine (@Run.invariant _ _ _ _ _ _ (fun s => s.Good ∧ ∃ later, s.published = s₁.published ++ later) run
    ⟨good, [], (List.append_nil _).symm⟩ ?_).2
  rintro s action t ⟨good, later, log⟩ stepped
  refine ⟨good.step stepped, ?_⟩
  obtain ⟨-, same, -⟩ | ⟨-, -, same, -⟩ | ⟨call, event, -, -, -, more, -⟩ | ⟨-, -, -, -, same⟩ :=
    (step_effect stepped).log_cases
  · exact ⟨later, same.trans log⟩
  · exact ⟨later, same.trans log⟩
  · exact ⟨later ++ [⟨call, event⟩], by rw [more, log, List.append_assoc]⟩
  · exact ⟨later, same.trans log⟩

theorem Good.sent_grows (good : s₁.Good) (run : Run (Enabled Hub.step) s₁ actions s₂)
    (here : s₁.channels[i]? = some c) :
    ∃ c', s₂.channels[i]? = some c' ∧ ∃ later, c'.sent = c.sent ++ later := by
  refine (@Run.invariant _ _ _ _ _ _
    (fun s => s.Good ∧ ∃ c', s.channels[i]? = some c' ∧ ∃ later, c'.sent = c.sent ++ later) run
    ⟨good, c, here, [], (List.append_nil _).symm⟩ ?_).2
  rintro s action t ⟨good, c₁, found, later, sent⟩ stepped
  obtain ⟨c₂, there, -, moved⟩ := good.channel_moves (step_effect stepped) found
  obtain ⟨more, grown⟩ := moved.sent_grows
  exact ⟨good.step stepped, c₂, there, later ++ more, by rw [grown, sent, List.append_assoc]⟩

/-- All that comes to a subscriber after it was registered is sent to it, in this order, as long as its
unsubscribing has not begun. -/
theorem Good.misses_nothing (good : s₁.Good) (run : Run (Enabled Hub.step) s₁ actions s₂)
    (here : s₁.channels[i]? = some c) (registered : c.registered = true)
    (there : s₂.channels[i]? = some c') (unused : c'.once = .unused) :
    ∃ later, c'.sent = c.sent ++ later ∧ s₂.reached c.discipline i = s₁.reached c.discipline i ++ later := by
  have kept := @Run.invariant _ _ _ _ _ _
    (fun s => s.Good ∧ ∃ c', s.channels[i]? = some c' ∧ c'.discipline = c.discipline ∧
      (c'.once = .unused → c'.registered = true ∧ ∃ later, c'.sent = c.sent ++ later ∧
        s.reached c.discipline i = s₁.reached c.discipline i ++ later)) run
    ⟨good, c, here, rfl, fun _ => ⟨registered, [], by simp⟩⟩ ?_
  · obtain ⟨-, c₂, found, -, kept⟩ := kept
    rw [there] at found
    cases found
    exact (kept unused).2
  · rintro s action t ⟨good, c₁, found, kind, kept⟩ stepped
    obtain ⟨c₂, there, same, moved⟩ := good.channel_moves (step_effect stepped) found
    refine ⟨good.step stepped, c₂, there, same.trans kind, fun unused => ?_⟩
    obtain ⟨registered, later, sent, come⟩ := kept (moved.unused unused)
    obtain ⟨still, more, grown, further⟩ :=
      (good.channels i c₁ found).misses_nothing moved registered unused
    rw [kind] at further
    exact ⟨still, later ++ more, by rw [grown, sent, List.append_assoc], by rw [further, come, List.append_assoc]⟩

/-- The message of a call that has returned has come to every channel. -/
theorem Good.returned_reached (good : s.Good) (returned : s.calls[call]? = some ⟨event, .returned⟩)
    (discipline : Discipline) (i : ℕ) : ⟨call, event⟩ ∈ s.reached discipline i := by
  have published := good.log.returned call event returned
  rcases lock : s.lock with _ | ⟨message, stage⟩
  · rwa [reached_free lock]
  · by_cases awaited : stage.Awaits discipline i
    · obtain ⟨earlier, same, publishing⟩ := good.log.holder message (by rw [lock]; rfl)
      rw [reached_awaited lock awaited, same, List.dropLast_concat]
      rw [same] at published
      refine (List.mem_append.mp published).resolve_right fun last => ?_
      cases List.mem_singleton.mp last
      rw [returned] at publishing
      cases publishing
    · rwa [reached_served lock awaited]

/-- Nothing has come to a channel that is not on the log. -/
theorem reached_sublist (s : Hub Event) (discipline : Discipline) (i : ℕ) :
    (s.reached discipline i).Sublist s.published := by
  unfold reached
  split
  · exact List.Sublist.refl _
  · split
    · exact List.dropLast_sublist _
    · exact List.Sublist.refl _

/-- A publisher does not wait for a subscriber of the first kind. -/
theorem Good.resend_enabled {message : Message Event} {todo : List ℕ} (good : s.Good)
    (held : s.lock = some ⟨message, .subscribers todo (.resending i)⟩) : ∃ t, s.step .resend = some t := by
  have ready := good.targets _ held
  obtain ⟨c, found, registered, kind⟩ := ready.targets i (ready.hand i rfl)
  have channel := good.channels i c found
  have notClosed : c.closed = false := by
    rw [Bool.eq_false_iff]
    exact fun closed => channel.standing registered (channel.closed_iff.mp closed)
  have room : c.hasRoom := by
    unfold Channel.hasRoom
    rw [ready.emptied i rfl c found, channel.room kind]
    exact Nat.one_pos
  simp [Hub.step, good.running, held, publisherStep, sendOr, found, notClosed, room]

end Runs

/-- What subscribers and publishers can rely on in every state. -/
structure Orderly (s : Hub Event) : Prop where
  never_panicked : s.panicked = false
  /-- Every channel is sent messages of the log, each at most once, in the order of the log. -/
  sent_ordered : ∀ (i : ℕ) c, s.channels[i]? = some c →
    c.sent.Sublist s.published ∧ (c.sent.map Message.call).Nodup
  /-- A buffered subscriber takes exactly what it was sent. -/
  buffered_complete : ∀ (i : ℕ) c, s.channels[i]? = some c → c.discipline = .buffered →
    c.received ++ c.queue = c.sent
  latest_ordered : ∀ (i : ℕ) c, s.channels[i]? = some c → c.discipline = .latestOnly →
    (c.received ++ c.queue).Sublist s.published
  /-- A full slot holds the message that came last; those of all calls that have returned have come. -/
  latest_recent : ∀ (i : ℕ) c, s.channels[i]? = some c → c.discipline = .latestOnly → c.registered = true →
    c.queue.length ≤ 1 ∧ (∀ message ∈ c.queue, (s.reached .latestOnly i).getLast? = some message) ∧
      ∀ call event, s.calls[call]? = some ⟨event, .returned⟩ → ⟨call, event⟩ ∈ s.reached .latestOnly i
  /-- A publisher at a subscriber whose unsubscribing has begun can pass on. -/
  leaving_passed : ∀ message todo i c, s.lock = some ⟨message, .bufferedSubscribers todo (some i)⟩ →
    s.channels[i]? = some c → c.once ≠ .unused →
    ∃ t, s.step .abandon = some t ∧ t.lock = some ⟨message, .bufferedSubscribers (todo.erase i) none⟩

theorem Good.orderly (good : s.Good) : s.Orderly where
  never_panicked := good.running
  sent_ordered i c found := by
    have listed := (good.channels i c found).ordered.trans (s.reached_sublist _ _)
    exact ⟨listed, good.log.distinct.sublist (listed.map _)⟩
  buffered_complete i c found := (good.channels i c found).complete
  latest_ordered i c found _ := by
    have channel := good.channels i c found
    exact (channel.taken.trans channel.ordered).trans (s.reached_sublist _ _)
  latest_recent i c found latest registered := by
    have channel := good.channels i c found
    refine ⟨channel.room latest ▸ channel.bounded, ?_, fun call event returned => ?_⟩
    · exact latest ▸ channel.recent latest registered
    · exact good.returned_reached returned _ _
  leaving_passed message todo i c held found begun := by
    have ready := good.targets _ held
    obtain ⟨c', found', -, kind⟩ := ready.targets i (ready.hand i rfl)
    rw [found] at found'
    cases found'
    have done : c.done = true := (good.channels i c found).done_iff.mpr ⟨kind, begun⟩
    refine ⟨{ s with lock := some ⟨message, .bufferedSubscribers (todo.erase i) none⟩ }, ?_, rfl⟩
    simp [Hub.step, good.running, held, publisherStep, found, done]

/-- What the hub delivers, in a run with a point after the registration of subscribers and a later one
before their unsubscribing: a buffered subscriber is sent every event whose call began after the first
point and returned before the second, and stays so. The log extends the order in time of the calls. -/
theorem hub_delivers {s₁ s₂ s : Hub Event} {before between after : List (Action Event)}
    (opening : Run (Enabled Hub.step) {} before s₁) (serving : Run (Enabled Hub.step) s₁ between s₂)
    (rest : Run (Enabled Hub.step) s₂ after s) :
    s.Orderly ∧
    (∀ (i : ℕ) c₁ c₂ call event, s₁.channels[i]? = some c₁ → c₁.discipline = .buffered → c₁.registered = true →
      s₁.calls.length ≤ call → s₂.calls[call]? = some ⟨event, .returned⟩ →
      s₂.channels[i]? = some c₂ → c₂.once = .unused →
      ∃ c, s.channels[i]? = some c ∧ ⟨call, event⟩ ∈ c.sent) ∧
    (∃ later, s.published = s₁.published ++ later) ∧
    (∀ message ∈ s₁.published, message.call < s₁.calls.length) ∧
    ∀ call event, s₁.calls[call]? = some ⟨event, .returned⟩ → ⟨call, event⟩ ∈ s₁.published := by
  have good₁ := run_good opening
  have good₂ := good₁.run serving
  have old : ∀ message ∈ s₁.published, message.call < s₁.calls.length := by
    intro message member
    obtain ⟨point, found, -⟩ := good₁.log.taken message member
    exact (List.getElem?_eq_some_iff.mp found).1
  refine ⟨(good₂.run rest).orderly, ?_, good₁.published_grows (serving.append rest), old, good₁.log.returned⟩
  intro i c₁ c₂ call event here _ registered young returned there unused
  obtain ⟨later, sent, come⟩ := good₁.misses_nothing serving here registered there unused
  obtain ⟨c, found, further, grown⟩ := good₂.sent_grows rest there
  refine ⟨c, found, ?_⟩
  have reached := good₂.returned_reached returned c₁.discipline i
  rw [come] at reached
  rw [grown, sent]
  refine List.mem_append_left _ (List.mem_append_right _ ((List.mem_append.mp reached).resolve_left fun early => ?_))
  exact absurd (old _ ((s₁.reached_sublist _ _).subset early)) (Nat.not_lt.mpr young)

section TwoSubscribers

/-- Two buffered subscribers and one of the other kind. -/
private def opening : List (Action ℕ) :=
  [.subscribeBuffered 0, .register 0, .subscribeBuffered 3, .register 1, .subscribe, .register 2]

/-- The second call begins while the first one holds the lock, and replaces what the slot holds. -/
private def publishing : List (Action ℕ) :=
  [.publish 7, .acquire 0, .publish 8, .serve 2, .turn, .offer 1, .deliver, .offer 0, .deliver, .release,
    .acquire 1, .serve 2, .drain, .resend, .turn, .offer 0, .receive 0, .deliver, .offer 1, .deliver, .release]

private def leaving : List (Action ℕ) :=
  [.receive 0, .unsubscribe 0, .unsubscribe 0, .remove 0, .receive 1, .receive 2, .unsubscribe 1, .remove 1]

private def after (s : Hub ℕ) (actions : List (Action ℕ)) : Hub ℕ := (actions.foldlM Hub.step s).getD s

/-- Both buffered subscribers take both events, and the second publisher waits for one of them. -/
theorem hub_delivers_two : ∃ s c d, Run (Enabled Hub.step) {} (opening ++ publishing ++ leaving) s ∧ s.Orderly ∧
    s.channels[0]? = some c ∧ ⟨0, 7⟩ ∈ c.sent ∧ ⟨1, 8⟩ ∈ c.sent ∧
    s.channels[1]? = some d ∧ ⟨0, 7⟩ ∈ d.sent ∧ ⟨1, 8⟩ ∈ d.sent := by
  have opened : Run (Enabled Hub.step) {} opening (after {} opening) := Run.of_foldlM (by decide +kernel)
  have published : Run (Enabled Hub.step) (after {} opening) publishing (after (after {} opening) publishing) :=
    Run.of_foldlM (by decide +kernel)
  have left : Run (Enabled Hub.step) (after (after {} opening) publishing) leaving
      (after (after (after {} opening) publishing) leaving) :=
    Run.of_foldlM (by decide +kernel)
  obtain ⟨orderly, delivered, -⟩ := hub_delivers opened published left
  have first {i : ℕ} {c₁ c₂ : Channel ℕ} := delivered i c₁ c₂ 0 7
  have second {i : ℕ} {c₁ c₂ : Channel ℕ} := delivered i c₁ c₂ 1 8
  obtain ⟨c, found, early⟩ := first (i := 0) rfl rfl rfl (by decide) (by decide +kernel) rfl rfl
  obtain ⟨c', found', late⟩ := second (i := 0) rfl rfl rfl (by decide) (by decide +kernel) rfl rfl
  obtain ⟨d, there, sooner⟩ := first (i := 1) rfl rfl rfl (by decide) (by decide +kernel) rfl rfl
  obtain ⟨d', there', later⟩ := second (i := 1) rfl rfl rfl (by decide) (by decide +kernel) rfl rfl
  rw [found] at found'
  rw [there] at there'
  cases found'
  cases there'
  exact ⟨_, c, d, (opened.append published).append left, orderly, found, early, late, there, sooner, later⟩

end TwoSubscribers

end Helio.Hub
