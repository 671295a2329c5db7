import Helio.Soundness.EventHub

/-! # The slot behind `Subscribe`

A subscriber of the first kind sees a slot with two atomic moves: a publication replaces what the slot
holds, and a receive empties it. The hub takes the unread message out before it puts the next one in;
nobody can receive in between, so the two steps count as the replacement when the second is made.
-/

namespace Helio

/-- The moves of a slot that keeps the latest event only. -/
inductive SlotMove (Event : Type) where
  | publish (event : Event)
  | receive (event : Event)

namespace SlotMove

variable {Event : Type}

def published : SlotMove Event → Option Event
  | publish event => some event
  | receive _ => none

def received : SlotMove Event → Option Event
  | publish _ => none
  | receive event => some event

end SlotMove

def slotStep {Event : Type} (slot : Option Event) : SlotMove Event → Option Event → Prop
  | .publish event, after => after = some event
  | .receive event, after => slot = some event ∧ after = none

namespace Hub

variable {Event : Type} {s s₁ s₂ : Hub Event} {c c' c₁ c₂ : Channel Event} {reached reached' : List (Message Event)}

namespace Channel

/-- The message that was sent last, until it is received. -/
def unread (c : Channel Event) : Option (Message Event) :=
  if c.received.getLast?.map Message.call = c.sent.getLast?.map Message.call then none else c.sent.getLast?

/-- By moves of the slot, which publish what is sent and receive what is taken. -/
def Follows (c c' : Channel Event) : Prop :=
  ∃ moves, Run slotStep c.unread moves c'.unread ∧ c'.sent = c.sent ++ moves.filterMap SlotMove.published ∧
    c'.received = c.received ++ moves.filterMap SlotMove.received

theorem Follows.unmoved (sent : c'.sent = c.sent) (received : c'.received = c.received) : c.Follows c' := by
  refine ⟨[], ?_, sent.trans (List.append_nil _).symm, received.trans (List.append_nil _).symm⟩
  rw [unread, unread, sent, received]
  exact .start

theorem Follows.trans (first : c.Follows c₁) (second : c₁.Follows c₂) : c.Follows c₂ := by
  obtain ⟨moves, moved, sent, received⟩ := first
  obtain ⟨more, further, grown, taken⟩ := second
  refine ⟨moves ++ more, moved.append further, ?_, ?_⟩
  · rw [grown, sent, List.filterMap_append, List.append_assoc]
  · rw [taken, received, List.filterMap_append, List.append_assoc]

/-- What the channel holds is the unread message. -/
theorem Good.unread_eq (good : c.Good reached) (latest : c.discipline = .latestOnly)
    (distinct : (c.sent.map Message.call).Nodup) {message : Message Event} (member : message ∈ c.queue) :
    c.unread = some message := by
  have last : c.sent.getLast? = some message := good.last latest message member
  have taken : (c.received ++ c.queue).map Message.call |>.Nodup := distinct.sublist (good.taken.map _)
  rw [List.map_append] at taken
  have absent : message.call ∉ c.received.map Message.call :=
    fun early => List.disjoint_of_nodup_append taken early (List.mem_map_of_mem member)
  rw [unread, last, if_neg]
  intro same
  obtain ⟨other, final, call⟩ := Option.map_eq_some_iff.mp same
  exact absent (List.mem_map.mpr ⟨other, List.mem_of_getLast? final, call⟩)

/-- A sent message is unread. -/
theorem unread_send {message : Message Event} (taken : (c.received ++ c.queue).Sublist c.sent)
    (distinct : ((c.send message).sent.map Message.call).Nodup) : (c.send message).unread = some message := by
  have last : (c.send message).sent.getLast? = some message := List.getLast?_concat
  have fresh : message.call ∉ c.sent.map Message.call := by
    rw [send, List.map_append] at distinct
    exact fun early => List.disjoint_of_nodup_append distinct early (List.mem_singleton.mpr rfl)
  rw [unread, last, if_neg]
  intro same
  obtain ⟨other, final, call⟩ := Option.map_eq_some_iff.mp same
  have early : other ∈ c.received := List.mem_of_getLast? final
  exact fresh (List.mem_map.mpr ⟨other, taken.subset (List.mem_append_left _ early), call⟩)

/-- What a step of the hub does to the slot. -/
theorem Good.slot_moves (good : c.Good reached) (latest : c.discipline = .latestOnly)
    (distinct : (c'.sent.map Message.call).Nodup) (moved : c.Moves reached c' reached') : c.Follows c' := by
  cases moved with
  | stays | misses | drains | removes => exact .unmoved rfl rfl
  | registers registered =>
    obtain ⟨-, -, rfl⟩ := register_cases registered
    exact .unmoved rfl rfl
  | sends =>
    rename_i message _ _
    exact ⟨[.publish message], Run.start.step (unread_send good.taken distinct), rfl, (List.append_nil _).symm⟩
  | owns own =>
    cases own with
    | unsubscribes left =>
      obtain ⟨-, -, rfl⟩ | ⟨-, rfl⟩ := unsubscribe_cases left
      · exact .unmoved rfl rfl
      · exact .unmoved rfl rfl
    | receives taken =>
      obtain ⟨message, rest, queue, rfl⟩ := receive_cases taken
      have member : message ∈ c.queue := queue ▸ List.mem_cons_self
      refine ⟨[.receive message], Run.start.step ⟨good.unread_eq latest distinct member, ?_⟩,
        (List.append_nil _).symm, rfl⟩
      rw [unread, List.getLast?_concat, good.last latest message member, if_pos rfl]

end Channel

/-- Every run moves the slot of a subscriber of the first kind by publications and receives. -/
theorem Good.slot_run {actions : List (Action Event)} {i : ℕ} (good : s₁.Good)
    (run : Run (Enabled Hub.step) s₁ actions s₂) (here : s₁.channels[i]? = some c₁)
    (latest : c₁.discipline = .latestOnly) :
    s₂.Good ∧ ∃ c₂, s₂.channels[i]? = some c₂ ∧ c₂.discipline = .latestOnly ∧ c₁.Follows c₂ := by
  induction run with
  | start => exact ⟨good, c₁, here, latest, .unmoved rfl rfl⟩
  | step _ stepped ih =>
    obtain ⟨before, c, found, kind, follows⟩ := ih
    obtain ⟨c₂, there, same, move⟩ := before.channel_moves (step_effect stepped) found
    have after := before.step stepped
    have distinct := (after.orderly.sent_ordered i c₂ there).2
    exact ⟨after, c₂, there, same.trans kind,
      follows.trans ((before.channels i c found).slot_moves kind distinct move)⟩

/-- From its registration to its unsubscribing a subscriber of the first kind has a slot whose
publications are the messages that come to it, and whose receives are those it takes. -/
theorem latest_slot {before between : List (Action Event)} {i : ℕ} (opening : Run (Enabled Hub.step) {} before s₁)
    (serving : Run (Enabled Hub.step) s₁ between s₂) (here : s₁.channels[i]? = some c₁)
    (latest : c₁.discipline = .latestOnly) (registered : c₁.registered = true)
    (there : s₂.channels[i]? = some c₂) (unused : c₂.once = .unused) :
    ∃ moves, Run slotStep c₁.unread moves c₂.unread ∧
      s₂.reached .latestOnly i = s₁.reached .latestOnly i ++ moves.filterMap SlotMove.published ∧
      c₂.received = c₁.received ++ moves.filterMap SlotMove.received := by
  have good := run_good opening
  obtain ⟨-, c, found, -, moves, moved, sent, received⟩ := good.slot_run serving here latest
  obtain ⟨later, same, come⟩ := good.misses_nothing serving here registered there unused
  rw [there] at found
  cases found
  rw [sent] at same
  rw [latest, ← List.append_cancel_left same] at come
  exact ⟨moves, moved, come, received⟩

end Hub

end Helio
