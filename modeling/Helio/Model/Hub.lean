import Helio.Machine.Run
import Mathlib.Data.Int.Notation

/-! # The event hub

Channels are queues with a capacity; `Publish` holds the lock of the hub while it goes through the
subscribers, and waits inside only where a channel operation waits. `Subscribe` and the second half of
unsubscribing run wholly under the lock without waiting, so each of these is one step that is enabled
when no publisher holds it. A range over a map visits every key once, in an order that the surroundings
choose. Copying an event leaves its value as it is.
-/

namespace Helio

namespace Hub

inductive Discipline where
  | latestOnly | buffered
deriving DecidableEq

/-- The `sync.Once` of an unsubscribe function. -/
inductive Once where
  | unused | running | finished
deriving DecidableEq

/-- An event with the number of the `Publish` call it was given to. -/
structure Message (Event : Type) where
  call : ℕ
  event : Event
deriving DecidableEq

structure Channel (Event : Type) where
  discipline : Discipline
  capacity : ℕ
  queue : List (Message Event) := []
  closed : Bool := false
  /-- The second channel of a buffered subscriber is closed. -/
  done : Bool := false
  /-- The channel is a key of its map in the hub. -/
  registered : Bool := false
  once : Once := .unused
  /-- What was enqueued so far, oldest first. -/
  sent : List (Message Event) := []
  /-- What the subscriber has taken so far, oldest first. -/
  received : List (Message Event) := []
deriving DecidableEq

inductive CallPoint where
  | waiting | publishing | returned
deriving DecidableEq

structure PublishCall (Event : Type) where
  event : Event
  point : CallPoint
deriving DecidableEq

/-- Where the first loop of `Publish` stands with a subscriber. -/
inductive Serving where
  | choosing
  | replacing (subscriber : ℕ)
  | resending (subscriber : ℕ)
deriving DecidableEq

/-- Where `Publish` stands: the subscribers that its loop has still to serve, with the one at hand. -/
inductive Stage where
  | subscribers (todo : List ℕ) (serving : Serving)
  | bufferedSubscribers (todo : List ℕ) (offering : Option ℕ)
deriving DecidableEq

structure Publishing (Event : Type) where
  message : Message Event
  stage : Stage
deriving DecidableEq

inductive Action (Event : Type) where
  | subscribe
  | subscribeBuffered (capacity : ℤ)
  | register (subscriber : ℕ)
  | receive (subscriber : ℕ)
  | unsubscribe (subscriber : ℕ)
  | remove (subscriber : ℕ)
  | publish (event : Event)
  | acquire (call : ℕ)
  | serve (subscriber : ℕ)
  | drain
  | resend
  | turn
  | offer (subscriber : ℕ)
  | deliver
  | abandon
  | release
deriving DecidableEq

end Hub

open Hub in
structure Hub (Event : Type) where
  channels : List (Channel Event) := []
  /-- All calls of `Publish`, in the order in which they began. -/
  calls : List (PublishCall Event) := []
  lock : Option (Publishing Event) := none
  /-- The messages in the order in which their calls took the lock. -/
  published : List (Message Event) := []
  panicked : Bool := false
deriving DecidableEq

namespace Hub

variable {Event : Type}

namespace Channel

variable (c : Channel Event)

def hasRoom : Prop := c.queue.length < c.capacity

instance : Decidable c.hasRoom := inferInstanceAs (Decidable (_ < _))

def send (message : Message Event) : Channel Event :=
  { c with queue := c.queue ++ [message], sent := c.sent ++ [message] }

/-- The publisher takes the unread event out of the slot, if there is one. -/
def drain : Channel Event := { c with queue := c.queue.tail }

def receive : Option (Channel Event) :=
  match c.queue with
  | [] => none
  | message :: rest => some { c with queue := rest, received := c.received ++ [message] }

def register : Option (Channel Event) :=
  if c.registered = false ∧ c.once = .unused then some { c with registered := true } else none

/-- The unsubscribe function exists when the channel was handed out. Only its first call enters the
`Once`, and closes the second channel of a buffered subscriber first of all. -/
def unsubscribe : Option (Channel Event) :=
  match c.once with
  | .unused =>
    if c.registered then some { c with once := .running, done := c.discipline = .buffered } else none
  | .running | .finished => some c

def remove : Channel Event := { c with registered := false, closed := true, once := .finished }

end Channel

variable (s : Hub Event)

def update (subscriber : ℕ) (change : Channel Event → Option (Channel Event)) : Option (Hub Event) :=
  (s.channels[subscriber]?.bind change).map fun c => { s with channels := s.channels.set subscriber c }

/-- The keys of one of the two maps. -/
def registered (discipline : Discipline) : List ℕ :=
  (List.range s.channels.length).filter fun i =>
    s.channels[i]?.any fun c => c.registered && decide (c.discipline = discipline)

/-- A send that succeeds at once leads to `served`, one that would wait to `full`; on a closed channel
it panics. -/
def sendOr (message : Message Event) (subscriber : ℕ) (served : Stage) (full : Option (Hub Event)) :
    Option (Hub Event) :=
  s.channels[subscriber]?.bind fun c =>
    if c.closed then some { s with panicked := true }
    else if c.hasRoom then
      some { s with
        channels := s.channels.set subscriber (c.send message)
        lock := some ⟨message, served⟩ }
    else full

/-- A step of the call that holds the lock. -/
def publisherStep (held : Publishing Event) : Action Event → Option (Hub Event)
  | .serve i =>
    match held.stage with
    | .subscribers todo .choosing =>
      if i ∈ todo then
        s.sendOr held.message i (.subscribers (todo.erase i) .choosing)
          (some { s with lock := some ⟨held.message, .subscribers todo (.replacing i)⟩ })
      else none
    | _ => none
  | .drain =>
    match held.stage with
    | .subscribers todo (.replacing i) =>
      s.channels[i]?.map fun c =>
        { s with
          channels := s.channels.set i c.drain
          lock := some ⟨held.message, .subscribers todo (.resending i)⟩ }
    | _ => none
  | .resend =>
    match held.stage with
    | .subscribers todo (.resending i) =>
      s.sendOr held.message i (.subscribers (todo.erase i) .choosing) none
    | _ => none
  | .turn =>
    match held.stage with
    | .subscribers [] .choosing =>
      some { s with lock := some ⟨held.message, .bufferedSubscribers (s.registered .buffered) none⟩ }
    | _ => none
  | .offer i =>
    match held.stage with
    | .bufferedSubscribers todo none =>
      if i ∈ todo then some { s with lock := some ⟨held.message, .bufferedSubscribers todo (some i)⟩ }
      else none
    | _ => none
  | .deliver =>
    match held.stage with
    | .bufferedSubscribers todo (some i) =>
      s.sendOr held.message i (.bufferedSubscribers (todo.erase i) none) none
    | _ => none
  | .abandon =>
    match held.stage with
    | .bufferedSubscribers todo (some i) =>
      s.channels[i]?.bind fun c =>
        if c.done then
          some { s with lock := some ⟨held.message, .bufferedSubscribers (todo.erase i) none⟩ }
        else none
    | _ => none
  | .release =>
    match held.stage with
    | .bufferedSubscribers [] none =>
      some { s with
        lock := none
        calls := s.calls.set held.message.call ⟨held.message.event, .returned⟩ }
    | _ => none
  | _ => none

/-- A step that takes the lock for itself, or waits for it. -/
def lockedStep : Action Event → Option (Hub Event)
  | .register i => s.update i Channel.register
  | .remove i =>
    s.channels[i]?.bind fun c =>
      if c.once = .running then
        if c.closed then some { s with panicked := true }
        else some { s with channels := s.channels.set i c.remove }
      else none
  | .acquire call =>
    match s.calls[call]? with
    | some ⟨event, .waiting⟩ =>
      some { s with
        calls := s.calls.set call ⟨event, .publishing⟩
        lock := some ⟨⟨call, event⟩, .subscribers (s.registered .latestOnly) .choosing⟩
        published := s.published ++ [⟨call, event⟩] }
    | _ => none
  | _ => none

/-- A step that needs no lock. -/
def freeStep : Action Event → Option (Hub Event)
  | .subscribe => some { s with channels := s.channels ++ [{ discipline := .latestOnly, capacity := 1 }] }
  | .subscribeBuffered capacity =>
    some { s with
      channels := s.channels ++
        [{ discipline := .buffered, capacity := if capacity < 1 then 1 else capacity.toNat }] }
  | .publish event => some { s with calls := s.calls ++ [⟨event, .waiting⟩] }
  | .receive i => s.update i Channel.receive
  | .unsubscribe i => s.update i Channel.unsubscribe
  | _ => none

def step (action : Action Event) : Option (Hub Event) :=
  if s.panicked then none
  else
    match action with
    | .subscribe | .subscribeBuffered _ | .publish _ | .receive _ | .unsubscribe _ => s.freeStep action
    | .register _ | .remove _ | .acquire _ => if s.lock.isSome then none else s.lockedStep action
    | .serve _ | .drain | .resend | .turn | .offer _ | .deliver | .abandon | .release =>
      s.lock.bind fun held => s.publisherStep held action

end Hub

end Helio
