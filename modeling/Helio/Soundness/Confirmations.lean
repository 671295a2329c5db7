import Helio.Model.Sessions

/-! # One-shot password confirmations

A confirmation is stored by the last step of a successful `ConfirmPassword` and taken away by the
consumption that succeeds, so successful consumptions never outnumber successful confirmations. A logout
clears the confirmation before it deletes the session, and nothing ties a stored confirmation to the
session row: what it cleared stays away only while no `ConfirmPassword` of the session comes to its storing
step from then on.
-/

namespace Helio.Auth

open Calendar

variable {κ : Type} [DecidableEq κ] {digest : String → κ}

abbrev Requests (κ : Type) := Flight (Manager κ) Request (Reply (κ := κ)) (Outcome κ)

abbrev Operation (κ : Type) := Thread Request (Reply (κ := κ)) (Outcome κ)

/-- A `ConfirmPassword` for the session that succeeded. -/
def Operation.hasConfirmed (digest : String → κ) (key : κ) (thread : Operation κ) : Bool :=
  match thread.request, thread.rest with
  | .confirmPassword token _ _, .done .passwordConfirmed => digest token = key
  | _, _ => false

/-- A consumption for the session that succeeded. -/
def Operation.hasConsumed (digest : String → κ) (key : κ) (thread : Operation κ) : Bool :=
  match thread.request, thread.rest with
  | .consumeRecentConfirmation token, .done (.answered true) => digest token = key
  | _, _ => false

/-- A logout of the session that has returned. -/
def Operation.hasLoggedOut (digest : String → κ) (key : κ) (thread : Operation κ) : Bool :=
  match thread.request, thread.rest with
  | .logout token, .done .loggedOut => token ≠ "" && digest token = key
  | _, _ => false

/-- A logout of the session that has cleared its confirmation: it is about to delete the session, or has
returned. -/
def Operation.isLoggingOut (digest : String → κ) (key : κ) (thread : Operation κ) : Bool :=
  match thread.request, thread.rest with
  | .logout token, .call (.deleteSession _) _ => digest token = key
  | .logout token, .done .loggedOut => token ≠ "" && digest token = key
  | _, _ => false

/-- Every successful consumption has a successful `ConfirmPassword` of its own, less than five minutes old. -/
structure Counted (digest : String → κ) (s : Requests κ) : Prop where
  counted : ∀ key, s.threads.countP (Operation.hasConsumed digest key) ≤
    s.threads.countP (Operation.hasConfirmed digest key)
  timely : ∀ key, ∀ thread ∈ s.threads, Operation.hasConsumed digest key thread = true →
    ∃ earlier ∈ s.threads, Operation.hasConfirmed digest key earlier = true ∧
      earlier.moved ≤ thread.moved ∧ thread.moved < earlier.moved + 5 * (60 * second)

/-- What is promised about the confirmations of every session. -/
structure OneShot (digest : String → κ) (s : Requests κ) : Prop extends Counted digest s where
  loggedOut : ∀ key, ∀ thread ∈ s.threads, Operation.hasLoggedOut digest key thread = true →
    (s.shared.exec {} (.recentlyConfirmed key)).map Prod.snd = some false ∧
      (s.shared.exec {} (.consumeConfirmed key)).map Prod.snd = some false

/-- A `ConfirmPassword` comes to its storing step before a logout of its session has cleared. -/
def storesBefore (digest : String → κ) (s : Requests κ) (thread : Operation κ) : Bool :=
  match thread.rest with
  | .call (.setConfirmed key) _ => !s.threads.any (Operation.isLoggingOut digest key)
  | _ => true

def StoresBefore (digest : String → κ) (s : Requests κ) : Happening Request Luck ℤ → Prop
  | .moves i _ => (s.threads[i]?.all (storesBefore digest s)) = true
  | _ => True

instance (s : Requests κ) (event : Happening Request Luck ℤ) : Decidable (StoresBefore digest s event) := by
  cases event <;> unfold StoresBefore <;> infer_instance

/-- What is left of a request's program is not an outcome that counts. -/
def Quiet : Request → Effect κ (Outcome κ) → Prop
  | .confirmPassword _ _ _, .done .passwordConfirmed => False
  | .consumeRecentConfirmation _, .done _ => False
  | .logout token, .done .loggedOut => token = ""
  | _, _ => True

/-- Which requests store and consume confirmations and end sessions, and that they have then finished. -/
def confirmationCall (digest : String → κ) (request : Request) :
    (c : Call κ) → (Reply c → Effect κ (Outcome κ)) → Prop
  | .setConfirmed key, next =>
    (∃ token remoteAddr password, request = .confirmPassword token remoteAddr password ∧ digest token = key) ∧
      next () = .done .passwordConfirmed
  | .consumeConfirmed key, next =>
    (∃ token, request = .consumeRecentConfirmation token ∧ digest token = key) ∧
      ∀ answer, next answer = .done (.answered answer)
  | .deleteSession key, next =>
    (∃ token, request = .logout token ∧ digest token = key ∧ next none = .done .loggedOut ∧
      ∀ message, Quiet request (next (some message))) ∨ ∀ answer, Quiet request (next answer)
  | _, next => ∀ answer, Quiet request (next answer)

/-- Neither the storing nor the consumption of a confirmation. -/
def quietCall : Call κ → Prop
  | .setConfirmed _ | .consumeConfirmed _ => False
  | _ => True

omit [DecidableEq κ] in
theorem quiet_call (request : Request) (c : Call κ) (next : Reply c → Effect κ (Outcome κ)) :
    Quiet request (.call c next) := by
  cases request <;> trivial

omit [DecidableEq κ] in
/-- A part of a program that stores and consumes nothing, and goes on quietly. -/
theorem always_bind {α : Type} {request : Request} {p : Effect κ α} {rest : α → Effect κ (Outcome κ)}
    (uses : p.Uses quietCall)
    (quiet : ∀ value, Quiet request (rest value) ∧ (rest value).Always (confirmationCall digest request)) :
    Quiet request (p >>= rest) ∧ (p >>= rest).Always (confirmationCall digest request) := by
  induction p with
  | done value => exact quiet value
  | call c next ih =>
    have later := fun answer => ih answer (uses.2 answer)
    refine ⟨quiet_call request c _, ?_, fun answer => (later answer).2⟩
    have silent := uses.1
    cases c <;> first | exact silent.elim | exact fun answer => (later answer).1 |
      exact Or.inr fun answer => (later answer).1

omit [DecidableEq κ] in
theorem authenticate_uses (token : String) : (authenticate digest token).Uses quietCall := by
  rw [authenticate]
  split
  · simp only [Program.call_bind, Program.done_bind]
    refine ⟨trivial, fun found => ?_⟩
    rcases found with (- | -) | session
    · trivial
    · trivial
    · refine ⟨trivial, fun now => ?_⟩
      dsimp only
      split
      · exact ⟨trivial, fun _ => trivial⟩
      · split
        · exact ⟨trivial, fun failed => by cases failed <;> trivial⟩
        · trivial
  · trivial

/-- What a login calls: of the sessions it only creates one, and it does not touch confirmations. -/
def freshCall : Call κ → Prop
  | .createSession _ row => row.lastSeenAt = row.createdAt ∧ row.expiresAt = row.createdAt + sessionLifetime
  | .lookupSession _ | .touchSession _ _ | .deleteSession _ | .setConfirmed _ | .consumeConfirmed _ => False
  | _ => True

omit [DecidableEq κ] in
theorem login_uses (remoteAddr username password : String) :
    (login digest remoteAddr username password).Uses freshCall := by
  simp only [login, newSession, Program.call_bind, Program.done_bind]
  refine ⟨trivial, fun retryAfter => ?_⟩
  cases retryAfter with
  | some => trivial
  | none =>
    refine ⟨trivial, fun found => ?_⟩
    rcases found with (- | -) | ⟨userID, user⟩
    · exact ⟨trivial, fun _ => ⟨trivial, fun _ => trivial⟩⟩
    · exact ⟨trivial, fun _ => trivial⟩
    · refine ⟨trivial, fun verdict => ?_⟩
      rcases verdict with ⟨- | -, - | - | - | -⟩
      all_goals first
        | exact ⟨trivial, fun _ => trivial⟩
        | refine ⟨trivial, fun now => ⟨trivial, fun token => ?_⟩⟩
      all_goals
        rcases token with - | token
        · exact ⟨trivial, fun _ => trivial⟩
        refine ⟨trivial, fun csrf => ?_⟩
        rcases csrf with - | csrf
        · exact ⟨trivial, fun _ => trivial⟩
        · exact ⟨⟨rfl, rfl⟩, fun failed => by cases failed <;> exact ⟨trivial, fun _ => trivial⟩⟩

omit [DecidableEq κ] in
theorem fresh_quiet (c : Call κ) (fresh : freshCall c) : quietCall c := by
  cases c with
  | setConfirmed key => exact fresh
  | consumeConfirmed key => exact fresh
  | _ => trivial

omit [DecidableEq κ] in
/-- What every request does about confirmations. -/
theorem body_spec (request : Request) :
    Quiet request (body digest request) ∧ (body digest request).Always (confirmationCall digest request) := by
  cases request with
  | login remoteAddr username password =>
    refine always_bind ((login_uses remoteAddr username password).mono fresh_quiet) fun _ => ?_
    exact ⟨trivial, trivial⟩
  | authenticate token =>
    refine always_bind (authenticate_uses token) fun _ => ?_
    exact ⟨trivial, trivial⟩
  | logout token =>
    rw [body, logout]
    split
    · next empty => exact ⟨empty, trivial⟩
    · refine ⟨trivial, fun _ => trivial, fun _ => ⟨Or.inl ⟨token, rfl, rfl, rfl, fun _ => trivial⟩, fun failed => ?_⟩⟩
      cases failed <;> trivial
  | confirmPassword token remoteAddr password =>
    rw [body, confirmPassword, Program.bind_assoc]
    refine always_bind (authenticate_uses token) fun known => ?_
    rcases known with error | principal
    · exact ⟨trivial, trivial⟩
    refine ⟨trivial, fun _ => trivial, fun _ => ⟨fun found => ?_, fun found => ?_⟩⟩
    · cases found <;> trivial
    rcases found with error | session
    · trivial
    refine ⟨fun refused => ?_, fun refused => ?_⟩
    · cases refused <;> trivial
    cases refused with
    | some => trivial
    | none =>
      refine ⟨fun verdict => ?_, fun verdict => ?_⟩
      all_goals rcases verdict with ⟨- | -, - | - | - | -⟩
      all_goals first
        | trivial
        | exact ⟨fun _ => trivial, fun _ => trivial⟩
        | exact ⟨fun _ => trivial, fun _ => ⟨⟨⟨token, remoteAddr, password, rfl, rfl⟩, rfl⟩, fun _ => trivial⟩⟩
  | recentlyConfirmed token => exact ⟨trivial, fun _ => trivial, fun _ => trivial⟩
  | consumeRecentConfirmation token => exact ⟨trivial, ⟨⟨token, rfl, rfl⟩, fun _ => rfl⟩, fun _ => trivial⟩

variable {s t : Requests κ} {thread later : Operation κ} {luck : Luck} {key : κ}

theorem hasConfirmed_iff : Operation.hasConfirmed digest key thread = true ↔ ∃ token remoteAddr password,
    thread.request = .confirmPassword token remoteAddr password ∧ thread.rest = .done .passwordConfirmed ∧
      digest token = key := by
  rw [Operation.hasConfirmed]
  split
  · next token _ _ asked finished => simp [asked, finished]
  · next other =>
    simp only [Bool.false_eq_true, false_iff]
    rintro ⟨token, remoteAddr, password, asked, finished, -⟩
    exact other _ _ _ asked finished

theorem hasConsumed_iff : Operation.hasConsumed digest key thread = true ↔ ∃ token,
    thread.request = .consumeRecentConfirmation token ∧ thread.rest = .done (.answered true) ∧ digest token = key := by
  rw [Operation.hasConsumed]
  split
  · next token asked finished => simp [asked, finished]
  · next other =>
    simp only [Bool.false_eq_true, false_iff]
    rintro ⟨token, asked, finished, -⟩
    exact other _ asked finished

theorem hasLoggedOut_iff : Operation.hasLoggedOut digest key thread = true ↔ ∃ token,
    thread.request = .logout token ∧ thread.rest = .done .loggedOut ∧ token ≠ "" ∧ digest token = key := by
  rw [Operation.hasLoggedOut]
  split
  · next token asked finished => simp [asked, finished]
  · next other =>
    simp only [Bool.false_eq_true, false_iff]
    rintro ⟨token, asked, finished, -⟩
    exact other _ asked finished

/-- A quiet thread counts for nothing. -/
theorem quiet_counts (quiet : Quiet thread.request thread.rest) (key : κ) :
    Operation.hasConfirmed digest key thread = false ∧ Operation.hasConsumed digest key thread = false ∧
      Operation.hasLoggedOut digest key thread = false := by
  refine ⟨?_, ?_, ?_⟩ <;> rw [Bool.eq_false_iff]
  · rw [ne_eq, hasConfirmed_iff]
    rintro ⟨token, remoteAddr, password, asked, finished, -⟩
    rw [asked, finished] at quiet
    exact quiet
  · rw [ne_eq, hasConsumed_iff]
    rintro ⟨token, asked, finished, -⟩
    rw [asked, finished] at quiet
    exact quiet
  · rw [ne_eq, hasLoggedOut_iff]
    rintro ⟨token, asked, finished, named, -⟩
    rw [asked, finished] at quiet
    exact named quiet

/-- What a step of a request does to confirmations. -/
inductive Effects (digest : String → κ) (m after : Manager κ) (luck : Luck) (thread later : Operation κ) : Prop
  | quiet (rest : Quiet thread.request later.rest)
      (fewer : ∀ key expires, after.confirmed.find? key = some expires → m.confirmed.find? key = some expires)
  | stored (token remoteAddr password : String) (asked : thread.request = .confirmPassword token remoteAddr password)
      (next : Unit → Effect κ (Outcome κ)) (standing : thread.rest = .call (.setConfirmed (digest token)) next)
      (rest : later.rest = .done .passwordConfirmed)
      (confirmed : after.confirmed = m.confirmed.upsert (digest token) (m.clock + confirmationLifetime))
  | consumed (token : String) (asked : thread.request = .consumeRecentConfirmation token)
      (rest : later.rest = .done (.answered (m.isConfirmed (digest token))))
      (confirmed : after.confirmed = m.confirmed.erase (digest token))
  | loggedOut (token : String) (asked : thread.request = .logout token)
      (next : Option String → Effect κ (Outcome κ)) (standing : thread.rest = .call (.deleteSession (digest token)) next)
      (fault : luck.fault = none) (rest : later.rest = .done .loggedOut) (confirmed : after.confirmed = m.confirmed)

theorem touch_keeps (m : Manager κ) (key : κ) (seenAt : ℤ) :
    (m.touch key seenAt).clock = m.clock ∧ (m.touch key seenAt).confirmed = m.confirmed := by
  rw [Manager.touch]
  split
  · exact ⟨rfl, rfl⟩
  · split <;> exact ⟨rfl, rfl⟩

omit [DecidableEq κ] in
/-- A write that fails changes nothing. -/
theorem write_cases {m after result : Manager κ} {fault answer : Option String} {context : String}
    (written : m.write fault context after = (result, answer)) :
    (∃ message, fault = some message ∧ result = m ∧ answer = some (context ++ message)) ∨
      fault = none ∧ result = after ∧ answer = none := by
  cases fault with
  | some message =>
    cases written
    exact Or.inl ⟨message, rfl, rfl, rfl⟩
  | none =>
    cases written
    exact Or.inr ⟨rfl, rfl, rfl⟩

/-- What a call does to the sessions; everything else but the confirmations stays. -/
inductive SessionChange (m after : Manager κ) (luck : Luck) : (c : Call κ) → Reply c → Prop
  | kept {c : Call κ} {answer : Reply c} (confirmed : Table κ ℤ) (same : after = { m with confirmed }) :
      SessionChange m after luck c answer
  | created (key : κ) (row : SessionRow κ) (fault : luck.fault = none) (unused : m.created.find? key = none)
      (same : after =
        { m with sessions := m.sessions.upsert key row, created := m.created.upsert key row.createdAt }) :
      SessionChange m after luck (.createSession key row) none
  | touched (key : κ) (seenAt : ℤ) (row : SessionRow κ) (found : m.sessions.find? key = some row)
      (due : ¬formatTime (seenAt - sessionTouchInterval) < formatTime row.lastSeenAt)
      (same : after = { m with sessions := m.sessions.upsert key { row with lastSeenAt := seenAt } }) :
      SessionChange m after luck (.touchSession key seenAt) none
  | deleted (key : κ) (same : after = { m with sessions := m.sessions.erase key }) :
      SessionChange m after luck (.deleteSession key) none

theorem exec_sessions {m after : Manager κ} {luck : Luck} {c : Call κ} {answer : Reply c}
    (executed : m.exec luck c = some (after, answer)) : SessionChange m after luck c answer := by
  cases c
  case createSession key row =>
    rw [Manager.exec] at executed
    split at executed
    · next unused =>
      rcases write_cases (Option.some.inj executed) with ⟨message, -, rfl, rfl⟩ | ⟨fault, rfl, rfl⟩
      · exact .kept after.confirmed rfl
      · exact .created key row fault unused rfl
    · cases executed
  case touchSession key seenAt =>
    rcases write_cases (Option.some.inj executed) with ⟨message, -, rfl, rfl⟩ | ⟨-, rfl, rfl⟩
    · exact .kept after.confirmed rfl
    rw [Manager.touch]
    split
    · exact .kept m.confirmed rfl
    next row found =>
    split
    · exact .kept m.confirmed rfl
    · next due => exact .touched key seenAt row found due rfl
  case deleteSession key =>
    rcases write_cases (Option.some.inj executed) with ⟨message, -, rfl, rfl⟩ | ⟨-, rfl, rfl⟩
    · exact .kept after.confirmed rfl
    · exact .deleted key rfl
  case recentlyConfirmed key =>
    rw [Manager.exec] at executed
    split at executed <;> cases executed
    · exact .kept m.confirmed rfl
    · exact .kept (m.confirmed.erase key) rfl
  all_goals
    cases executed
    exact .kept _ rfl

/-- Confirmations that are there after an erasure were there before. -/
theorem erase_fewer {confirmed : Table κ ℤ} {erased key : κ} {expires : ℤ}
    (found : (confirmed.erase erased).find? key = some expires) : confirmed.find? key = some expires := by
  rw [Table.find?_erase] at found
  split at found
  · cases found
  · exact found

theorem advance_effects (always : thread.rest.Always (confirmationCall digest thread.request))
    (advanced : (manager digest).advance s.shared thread luck = some (t.shared, later)) :
    later.request = thread.request ∧ later.moved = s.shared.clock ∧ t.shared.clock = s.shared.clock ∧
      Effects digest s.shared t.shared luck thread later := by
  obtain ⟨c, next, answer, standing, executed, rfl⟩ := Interleaving.advance_cases advanced
  rw [standing] at always
  have node := always.1
  generalize t.shared = after at *
  change s.shared.exec luck c = some (after, answer) at executed
  refine ⟨rfl, rfl, ?_⟩
  cases c
  case now | randomToken | findUser | lookupSession | admitAttempt | complete | verifyPassword =>
    cases executed
    exact ⟨rfl, .quiet (node _) fun _ _ found => found⟩
  case createSession key row =>
    rw [Manager.exec] at executed
    split at executed
    · rcases write_cases (Option.some.inj executed) with ⟨message, -, rfl, rfl⟩ | ⟨-, rfl, rfl⟩
      · exact ⟨rfl, .quiet (node _) fun _ _ found => found⟩
      · exact ⟨rfl, .quiet (node _) fun _ _ found => found⟩
    · cases executed
  case touchSession key seenAt =>
    rcases write_cases (Option.some.inj executed) with ⟨message, -, rfl, rfl⟩ | ⟨-, rfl, rfl⟩
    · exact ⟨rfl, .quiet (node _) fun _ _ found => found⟩
    · obtain ⟨clock, confirmed⟩ := touch_keeps s.shared key seenAt
      exact ⟨clock, .quiet (node _) fun _ _ found => by rwa [confirmed] at found⟩
  case deleteSession key =>
    rcases write_cases (Option.some.inj executed) with ⟨message, -, rfl, rfl⟩ | ⟨fault, rfl, rfl⟩
    · rcases node with ⟨-, -, -, -, refused⟩ | quiet
      · exact ⟨rfl, .quiet (refused _) fun _ _ found => found⟩
      · exact ⟨rfl, .quiet (quiet _) fun _ _ found => found⟩
    · rcases node with ⟨token, asked, rfl, finished, -⟩ | quiet
      · exact ⟨rfl, .loggedOut token asked next standing fault finished rfl⟩
      · exact ⟨rfl, .quiet (quiet _) fun _ _ found => found⟩
  case clearConfirmed key =>
    cases executed
    exact ⟨rfl, .quiet (node _) fun _ _ => erase_fewer⟩
  case setConfirmed key =>
    cases executed
    obtain ⟨⟨token, remoteAddr, password, asked, rfl⟩, finished⟩ := node
    exact ⟨rfl, .stored token remoteAddr password asked next standing finished rfl⟩
  case recentlyConfirmed key =>
    rw [Manager.exec] at executed
    split at executed <;> cases executed
    · exact ⟨rfl, .quiet (node _) fun _ _ found => found⟩
    · exact ⟨rfl, .quiet (node _) fun _ _ => erase_fewer⟩
  case consumeConfirmed key =>
    cases executed
    obtain ⟨⟨token, asked, rfl⟩, finished⟩ := node
    exact ⟨rfl, .consumed token asked (finished _) rfl⟩

/-- The books of confirmations: every stored one and every consumption stem from a `ConfirmPassword`. -/
structure Booked (digest : String → κ) (s : Requests κ) : Prop where
  counted : ∀ key, s.threads.countP (Operation.hasConsumed digest key) +
    (if (s.shared.confirmed.find? key).isSome then 1 else 0) ≤ s.threads.countP (Operation.hasConfirmed digest key)
  stored : ∀ key expires, s.shared.confirmed.find? key = some expires → ∃ thread ∈ s.threads,
    Operation.hasConfirmed digest key thread = true ∧ thread.moved ≤ s.shared.clock ∧
      expires = thread.moved + confirmationLifetime
  timely : ∀ key, ∀ thread ∈ s.threads, Operation.hasConsumed digest key thread = true →
    ∃ earlier ∈ s.threads, Operation.hasConfirmed digest key earlier = true ∧
      earlier.moved ≤ thread.moved ∧ thread.moved < earlier.moved + 5 * (60 * second)

theorem Booked.begins (booked : Booked digest s) (request : Request) :
    Booked digest ⟨s.shared, s.threads ++ [(manager digest).launch s.shared request]⟩ := by
  have new := fun key => @quiet_counts _ _ digest ((manager digest).launch s.shared request) (body_spec request).1 key
  refine ⟨fun key => ?_, fun key expires found => ?_, fun key thread member consumed => ?_⟩
  · simp only [List.countP_append, List.countP_singleton, (new key).1, (new key).2.1]
    exact booked.counted key
  · obtain ⟨thread, member, confirmed⟩ := booked.stored key expires found
    exact ⟨thread, List.mem_append_left _ member, confirmed⟩
  · rcases List.mem_append.mp member with old | launched
    · obtain ⟨earlier, member, confirmed⟩ := booked.timely key thread old consumed
      exact ⟨earlier, List.mem_append_left _ member, confirmed⟩
    · rw [List.mem_singleton.mp launched, (new key).2.1] at consumed
      cases consumed

theorem Booked.world (booked : Booked digest s) {clock : ℤ} (later : s.shared.clock ≤ clock) :
    Booked digest ⟨{ s.shared with clock }, s.threads⟩ where
  counted := booked.counted
  stored := fun key expires found => by
    obtain ⟨thread, member, confirmed, past, same⟩ := booked.stored key expires found
    exact ⟨thread, member, confirmed, past.trans later, same⟩
  timely := booked.timely

/-- How the counts change when a thread advances. -/
theorem counts_advance {i : ℕ} (found : s.threads[i]? = some thread)
    (unfinished : ∀ key, Operation.hasConfirmed digest key thread = false ∧
      Operation.hasConsumed digest key thread = false)
    (threads : t.threads = s.threads.set i later) (key : κ) :
    t.threads.countP (Operation.hasConfirmed digest key) = s.threads.countP (Operation.hasConfirmed digest key) +
        (if Operation.hasConfirmed digest key later then 1 else 0) ∧
      t.threads.countP (Operation.hasConsumed digest key) = s.threads.countP (Operation.hasConsumed digest key) +
        (if Operation.hasConsumed digest key later then 1 else 0) := by
  rw [threads]
  exact ⟨Interleaving.countP_advance found (unfinished key).1, Interleaving.countP_advance found (unfinished key).2⟩

theorem isConfirmed_iff {m : Manager κ} :
    m.isConfirmed key = true ↔ ∃ expires, m.confirmed.find? key = some expires ∧ m.clock < expires := by
  simp [Manager.isConfirmed, Option.any_eq_true]

/-- A consumption takes a stored confirmation away, and only a `ConfirmPassword` that succeeds stores one. -/
theorem Effects.counted {m after : Manager κ} (effects : Effects digest m after luck thread later)
    (request : later.request = thread.request) (key : κ) :
    (if Operation.hasConsumed digest key later then 1 else 0) +
        (if (after.confirmed.find? key).isSome then 1 else 0) ≤
      (if Operation.hasConfirmed digest key later then 1 else 0) +
        (if (m.confirmed.find? key).isSome then 1 else 0) := by
  cases effects with
  | quiet rest fewer =>
    have new := @quiet_counts _ _ digest later (by rwa [request]) key
    rw [new.1, new.2.1]
    cases here : after.confirmed.find? key with
    | none => simp
    | some expires => simp [fewer key expires here]
  | stored token remoteAddr password asked next standing rest confirmed =>
    have confirms : Operation.hasConfirmed digest key later = decide (digest token = key) := by
      simp [Operation.hasConfirmed, request, asked, rest]
    have consumesNot : Operation.hasConsumed digest key later = false := by
      simp [Operation.hasConsumed, request, asked]
    rw [confirms, consumesNot, confirmed, Table.find?_upsert]
    by_cases same : digest token = key
    · simp [same]
    · simp [same, Ne.symm same]
  | consumed token asked rest confirmed =>
    have consumes : Operation.hasConsumed digest key later =
        (m.isConfirmed (digest token) && decide (digest token = key)) := by
      cases known : m.isConfirmed (digest token) <;> simp [Operation.hasConsumed, request, asked, rest, known]
    rw [consumes, confirmed, Table.find?_erase]
    by_cases same : digest token = key
    · subst same
      cases known : m.isConfirmed (digest token)
      · simp
      · obtain ⟨expires, here, -⟩ := isConfirmed_iff.mp known
        simp [here]
    · simp [same, Ne.symm same]
  | loggedOut token asked next standing fault rest confirmed =>
    have consumesNot : Operation.hasConsumed digest key later = false := by
      simp [Operation.hasConsumed, request, asked]
    simp [consumesNot, confirmed]

/-- A confirmation that is there afterwards was there before, or has just been stored. -/
theorem Effects.confirmed {m after : Manager κ} {expires : ℤ} (effects : Effects digest m after luck thread later)
    (request : later.request = thread.request) (found : after.confirmed.find? key = some expires) :
    m.confirmed.find? key = some expires ∨
      Operation.hasConfirmed digest key later = true ∧ expires = m.clock + confirmationLifetime := by
  cases effects with
  | quiet rest fewer => exact Or.inl (fewer key expires found)
  | stored token remoteAddr password asked next standing rest confirmed =>
    rw [confirmed, Table.find?_upsert] at found
    split at found
    · next same =>
      cases found
      exact Or.inr ⟨hasConfirmed_iff.mpr ⟨token, remoteAddr, password, request.trans asked, rest, same.symm⟩, rfl⟩
    · exact Or.inl found
  | consumed token asked rest confirmed => exact Or.inl (erase_fewer (confirmed ▸ found))
  | loggedOut token asked next standing fault rest confirmed => exact Or.inl (confirmed ▸ found)

/-- A consumption that succeeds finds a confirmation that has not expired. -/
theorem Effects.consumes {m after : Manager κ} (effects : Effects digest m after luck thread later)
    (request : later.request = thread.request) (consumed : Operation.hasConsumed digest key later = true) :
    m.isConfirmed key = true := by
  obtain ⟨token, asking, finished, rfl⟩ := hasConsumed_iff.mp consumed
  rw [request] at asking
  cases effects with
  | quiet rest fewer =>
    rw [asking, finished] at rest
    exact rest.elim
  | stored token remoteAddr password asked => cases asking.symm.trans asked
  | consumed other asked rest confirmed =>
    cases asking.symm.trans asked
    simpa [rest] using finished
  | loggedOut token asked => cases asking.symm.trans asked

theorem Booked.moves {i : ℕ} (booked : Booked digest s) (found : s.threads[i]? = some thread)
    (always : thread.rest.Always (confirmationCall digest thread.request))
    (advanced : (manager digest).advance s.shared thread luck = some (t.shared, later))
    (threads : t.threads = s.threads.set i later)
    (stay : ∀ thread ∈ s.threads, ∀ value, thread.rest = .done value → thread ∈ t.threads) : Booked digest t := by
  obtain ⟨c, next, answer, standing, -, -⟩ := Interleaving.advance_cases advanced
  have unfinished := @quiet_counts _ _ digest thread (by rw [standing]; exact quiet_call _ _ _)
  have counts := counts_advance found (fun key => ⟨(unfinished key).1, (unfinished key).2.1⟩) threads
  obtain ⟨request, moved, clock, effects⟩ := advance_effects always advanced
  have laterMember : later ∈ t.threads := by
    rw [threads]
    exact List.mem_set (List.getElem?_eq_some_iff.mp found).1 _
  have confirmedStay : ∀ key earlier, earlier ∈ s.threads → Operation.hasConfirmed digest key earlier = true →
      earlier ∈ t.threads := fun key earlier member confirmed => by
    obtain ⟨_, _, _, _, finished, _⟩ := hasConfirmed_iff.mp confirmed
    exact stay earlier member _ finished
  refine ⟨fun key => ?_, fun key expires after => ?_, fun key other member consumed => ?_⟩
  · have before := booked.counted key
    have change := effects.counted request key
    rw [(counts key).1, (counts key).2]
    omega
  · rcases effects.confirmed request after with before | ⟨confirms, rfl⟩
    · obtain ⟨earlier, member, confirms, past, same⟩ := booked.stored key expires before
      exact ⟨earlier, confirmedStay key earlier member confirms, confirms, clock ▸ past, same⟩
    · exact ⟨later, laterMember, confirms, by rw [moved, clock], by rw [moved]⟩
  · rw [threads] at member
    rcases Interleaving.mem_set_cases member with rfl | old
    · obtain ⟨expires, here, unexpired⟩ := isConfirmed_iff.mp (effects.consumes request consumed)
      obtain ⟨earlier, before, confirms, past, rfl⟩ := booked.stored key expires here
      rw [moved]
      exact ⟨earlier, confirmedStay key earlier before confirms, confirms, past, unexpired⟩
    · obtain ⟨earlier, before, confirms, fresh⟩ := booked.timely key other old consumed
      exact ⟨earlier, confirmedStay key earlier before confirms, confirms, fresh⟩

/-- The books are kept by every step. -/
theorem Booked.next {event : Happening Request Luck ℤ} (booked : Booked digest s)
    (always : ∀ thread ∈ s.threads, thread.rest.Always (confirmationCall digest thread.request))
    (stepped : (manager digest).step s event = some t) : Booked digest t := by
  have stay := fun thread member value finished => @Interleaving.finished_stay _ _ _ _ _ _ _ _ _ _ thread _ value
    stepped member finished
  obtain ⟨request, rfl, rfl⟩ | ⟨i, luck, thread, later, rfl, found, advanced, threads⟩ |
    ⟨change, rfl, changed, threads⟩ := Interleaving.step_cases stepped
  · exact booked.begins request
  · exact booked.moves found (always thread (List.mem_of_getElem? found)) advanced threads stay
  · obtain ⟨later, after⟩ := Option.ite_none_right_eq_some.mp changed
    have world := booked.world later
    cases t
    cases threads
    cases after
    exact world

theorem isLoggingOut_iff : Operation.isLoggingOut digest key thread = true ↔ ∃ token,
    thread.request = .logout token ∧ digest token = key ∧
      ((∃ other next, thread.rest = .call (.deleteSession other) next) ∨
        thread.rest = .done .loggedOut ∧ token ≠ "") := by
  rw [Operation.isLoggingOut]
  split
  · next token other next asked standing => simp [asked, standing]
  · next token asked finished => simp [asked, finished, and_comm]
  · next unfinished gone =>
    simp only [Bool.false_eq_true, false_iff]
    rintro ⟨token, asked, -, ⟨other, next, standing⟩ | ⟨finished, -⟩⟩
    · exact unfinished token other next asked standing
    · exact gone token asked finished

theorem isLoggingOut_of_hasLoggedOut (gone : Operation.hasLoggedOut digest key thread = true) :
    Operation.isLoggingOut digest key thread = true := by
  obtain ⟨token, asked, finished, named, same⟩ := hasLoggedOut_iff.mp gone
  exact isLoggingOut_iff.mpr ⟨token, asked, same, Or.inr ⟨finished, named⟩⟩

omit [DecidableEq κ] in
/-- A logout clears the confirmation of its session, then it deletes the session. -/
theorem logout_stands {token : String} {trace : List (Exchange (Reply (κ := κ)))} {c : Call κ}
    {next : Reply c → Effect κ (Outcome κ)} (reached : (body digest (.logout token)).Reaches trace (.call c next)) :
    c = .clearConfirmed (digest token) ∨ c = .deleteSession (digest token) := by
  rw [body, logout] at reached
  split at reached
  · obtain ⟨-, same⟩ := Program.reaches_done.mp reached
    cases same
  · simp only [Program.call_bind, Program.done_bind] at reached
    rw [Program.reaches_call] at reached
    obtain ⟨-, same⟩ | ⟨-, trace, -, reached⟩ := reached
    · cases same
      exact Or.inl rfl
    rw [Program.reaches_call] at reached
    obtain ⟨-, same⟩ | ⟨failed, trace, -, reached⟩ := reached
    · cases same
      exact Or.inr rfl
    · cases failed <;> obtain ⟨-, same⟩ := Program.reaches_done.mp reached <;> cases same

omit [DecidableEq κ] in
/-- A logout that has just begun has not cleared yet. -/
theorem not_cleared_yet (token : String) :
    ¬((∃ other next, body digest (.logout token) = .call (.deleteSession other) next) ∨
      body digest (.logout token) = .done .loggedOut ∧ token ≠ "") := by
  rw [body, logout]
  split
  · next empty => exact fun unstarted => by simp [empty, Outcome.ofExcept] at unstarted
  · exact fun unstarted => by simp at unstarted

/-- What a logout has cleared stays away. -/
def Cleared (digest : String → κ) (s : Requests κ) : Prop :=
  ∀ key, ∀ thread ∈ s.threads, Operation.isLoggingOut digest key thread = true → s.shared.confirmed.find? key = none

/-- A step of another request that stores in time leaves what has been cleared away. -/
private theorem Effects.stays_cleared {m after : Manager κ} (effects : Effects digest m after luck thread later)
    (apart : ∀ next, thread.rest ≠ .call (.setConfirmed key) next) (none_ : m.confirmed.find? key = none) :
    after.confirmed.find? key = none := by
  have fewer : (∀ expires, after.confirmed.find? key = some expires → m.confirmed.find? key = some expires) →
      after.confirmed.find? key = none := by
    intro fewer
    by_contra some_
    obtain ⟨expires, found⟩ := Option.ne_none_iff_exists'.mp some_
    rw [fewer expires found] at none_
    cases none_
  cases effects with
  | quiet rest kept => exact fewer (kept key)
  | stored token remoteAddr password asked next standing rest confirmed =>
    have differ : key ≠ digest token := by
      rintro rfl
      exact apart next standing
    rw [confirmed, Table.find?_upsert, if_neg differ]
    exact none_
  | consumed token asked rest confirmed => exact fewer fun expires found => erase_fewer (confirmed ▸ found)
  | loggedOut token asked next standing fault rest confirmed => rwa [confirmed]

theorem Cleared.moves {i : ℕ} (cleared : Cleared digest s) (allowed : StoresBefore digest s (.moves i luck))
    (found : s.threads[i]? = some thread) (reached : (manager digest).Reached thread)
    (always : thread.rest.Always (confirmationCall digest thread.request))
    (advanced : (manager digest).advance s.shared thread luck = some (t.shared, later))
    (threads : t.threads = s.threads.set i later) : Cleared digest t := by
  obtain ⟨request, -, -, effects⟩ := advance_effects always advanced
  have allowed : storesBefore digest s thread = true := by simpa [StoresBefore, found] using allowed
  have others : ∀ key, ∀ other ∈ s.threads, Operation.isLoggingOut digest key other = true →
      t.shared.confirmed.find? key = none := by
    intro key other member leaving
    refine effects.stays_cleared (fun next standing => ?_) (cleared key other member leaving)
    rw [storesBefore, standing] at allowed
    simp only [Bool.not_eq_true', List.any_eq_false] at allowed
    exact allowed other member leaving
  intro key other member leaving
  rw [threads] at member
  rcases Interleaving.mem_set_cases member with rfl | old
  · obtain ⟨token, asked, rfl, -⟩ := isLoggingOut_iff.mp leaving
    rw [request] at asked
    obtain ⟨c, next, answer, standing, executed, -⟩ := Interleaving.advance_cases advanced
    rw [Interleaving.Reached, standing, asked] at reached
    rcases logout_stands reached with rfl | rfl
    · -- The logout has just cleared the confirmation.
      have erased : { s.shared with confirmed := s.shared.confirmed.erase (digest token) } = t.shared :=
        congrArg Prod.fst (Option.some.inj executed)
      rw [← erased]
      simp
    · exact others _ thread (List.mem_of_getElem? found)
        (isLoggingOut_iff.mpr ⟨token, asked, rfl, Or.inl ⟨_, next, standing⟩⟩)
  · exact others key other old leaving

theorem Cleared.next {event : Happening Request Luck ℤ} (cleared : Cleared digest s)
    (allowed : StoresBefore digest s event) (reached : ∀ thread ∈ s.threads, (manager digest).Reached thread)
    (stepped : (manager digest).step s event = some t) : Cleared digest t := by
  obtain ⟨request, rfl, rfl⟩ | ⟨i, luck, thread, later, rfl, found, advanced, threads⟩ |
    ⟨change, rfl, changed, threads⟩ := Interleaving.step_cases stepped
  · intro key thread member leaving
    rcases List.mem_append.mp member with old | launched
    · exact cleared key thread old leaving
    · rw [List.mem_singleton.mp launched] at leaving
      obtain ⟨token, rfl, -, unstarted⟩ := isLoggingOut_iff.mp leaving
      exact absurd unstarted (not_cleared_yet token)
  · have here := List.mem_of_getElem? found
    exact cleared.moves allowed found (reached thread here) ((reached thread here).always (body_spec _).2) advanced
      threads
  · intro key thread member leaving
    obtain ⟨-, after⟩ := Option.ite_none_right_eq_some.mp changed
    rw [threads] at member
    rw [← Option.some.inj after]
    exact cleared key thread member leaving

/-- From a manager that has just started, in every run every consumption has its own fresh confirmation, and
as long as every `ConfirmPassword` stores before a logout of its session clears, confirmations are gone with
their session. -/
theorem confirmations_one_shot {events : List (Happening Request Luck ℤ)}
    (run : Run (Enabled (manager digest).step) s events t) (initial : s.threads = [])
    (started : s.shared.confirmed = Table.empty) :
    Counted digest t ∧ (Run (Guarded (StoresBefore digest) (Enabled (manager digest).step)) s events t →
      OneShot digest t) := by
  have booked : Booked digest t := by
    apply run.reached_invariant
    · refine ⟨fun key => ?_, fun key expires found => ?_, fun key thread member => ?_⟩
      · simp [initial, started]
      · rw [started] at found
        cases found
      · rw [initial] at member
        cases member
    · exact fun fs t e u before booked moved =>
        booked.next (Interleaving.threads_always (fun request => (body_spec request).2) before initial) moved
  have counted : Counted digest t := ⟨fun key => le_of_add_le_left (booked.counted key), booked.timely⟩
  refine ⟨counted, fun run => ⟨counted, fun key thread member gone => ?_⟩⟩
  have cleared : Cleared digest t := by
    apply run.reached_invariant
    · intro key thread member
      rw [initial] at member
      cases member
    · exact fun fs t e u before cleared moved =>
        cleared.next moved.1 (Interleaving.threads_reach before.unguard initial) moved.2
  have none_ := cleared key thread member (isLoggingOut_of_hasLoggedOut gone)
  have silent : t.shared.isConfirmed key = false := by simp [Manager.isConfirmed, none_]
  simp [Manager.exec, silent]

section Household

/-- A token of 43 characters. -/
private def token : String := "AAAAAAAAAAAAAAAAAAAAAAAAAAAAAAAAAAAAAAAAAAA"

/-- The SHA-256 digest of the token, in hexadecimal. -/
private def sha256 (text : String) : String :=
  if text = token then "0f007385b6f9d4b7eeb2748605afe1a984a0a3bfa3f014d09e2a784ce9e5cd1a" else ""

private def signedIn : Requests String where
  shared :=
    { clock := 0
      users := Table.empty.upsert "user" ⟨"ana", "$argon2id$", 0⟩
      sessions := Table.empty.upsert (sha256 token) ⟨"user", "csrf", 0, 0, sessionLifetime⟩
      confirmed := Table.empty
      created := Table.empty.upsert (sha256 token) 0 }
  threads := []

/-- A confirmation up to its last step, which would store it. -/
private def verified : List (Happening Request Luck ℤ) :=
  [.begins (.confirmPassword token "192.168.0.2" "correct horse battery"), .moves 0 {}, .moves 0 {}, .moves 0 {},
    .moves 0 {}, .moves 0 {}, .moves 0 { verdict := (true, none) }, .moves 0 {}]

private def loggingOut : List (Happening Request Luck ℤ) := [.begins (.logout token), .moves 1 {}, .moves 1 {}]

/-- The confirmation is stored, the session is logged out, and a consumption finds nothing. -/
private def orderly : List (Happening Request Luck ℤ) :=
  verified ++ [.moves 0 {}] ++ loggingOut ++ [.begins (.consumeRecentConfirmation token), .moves 2 {}]

/-- The session is logged out before the confirmation is stored. -/
private def overtaken : List (Happening Request Luck ℤ) := verified ++ loggingOut ++ [.moves 0 {}]

theorem orderly_one_shot : ∃ t, Run (Guarded (StoresBefore sha256) (Enabled (manager sha256).step)) signedIn orderly t ∧
    OneShot sha256 t := by
  have possible : (orderly.foldlM (fun s event =>
      if StoresBefore sha256 s event then (manager sha256).step s event else none) signedIn).isSome = true := by
    decide +kernel
  obtain ⟨t, reached⟩ := Option.isSome_iff_exists.mp possible
  have run := Run.of_guarded_foldlM reached
  exact ⟨t, run, (confirmations_one_shot run.unguard rfl rfl).2 run⟩

/-- The confirmation of a session outlives its logout. -/
theorem overtaken_confirmation : ∃ t, Run (Enabled (manager sha256).step) signedIn overtaken t ∧ ¬OneShot sha256 t := by
  have possible : (overtaken.foldlM (manager sha256).step signedIn).map (fun t =>
      t.threads.any (Operation.hasLoggedOut sha256 (sha256 token)) && t.shared.isConfirmed (sha256 token)) =
        some true := by
    decide +kernel
  obtain ⟨t, reached, shown⟩ := Option.map_eq_some_iff.mp possible
  simp only [Bool.and_eq_true, List.any_eq_true] at shown
  obtain ⟨⟨thread, member, gone⟩, known⟩ := shown
  refine ⟨t, Run.of_foldlM reached, fun oneShot => ?_⟩
  have silent := (oneShot.loggedOut _ thread member gone).1
  simp [Manager.exec, known] at silent

end Household

end Helio.Auth
