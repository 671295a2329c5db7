import Helio.Model.Bootstrap
import Helio.Soundness.Confirmations

/-! # Only one first user

A successful bootstrap is the only step that creates a user, and it needs that there is none: as many
bootstraps have succeeded as there is a first user. The transaction of a bootstrap that fails is
rolled back and none of its other calls writes. That a valid request is not refused by a
session under its key follows from the foreign key: without users there are no sessions.
-/

namespace Helio.Bootstrap

open Calendar Config Auth

variable {κ : Type} {zones : String → Except String Zone} {digest : String → κ}

/-- The settings of a request, if any, are valid. -/
def IsAcceptable (zones : String → Except String Zone) (put : Option Document) : Prop :=
  ∀ document ∈ put, ∃ normalized, validateSettings zones document.1 document.2 = .ok normalized

/-- The session of a request is a session of its user, and its settings are valid. -/
def Request.IsValid (zones : String → Except String Zone) : Request κ → Prop
  | .bootstrap _ _ put => IsAcceptable zones put
  | .storeBootstrap userID _ _ row put => row.userID = userID ∧ IsAcceptable zones put
  | .other _ => False

/-- What a request asks of its transaction, whatever tokens are drawn. -/
def Request.Carries (data : String → SessionRow κ → Option Document → Prop) : Request κ → Prop
  | .bootstrap _ _ put => ∀ userID row, row.userID = userID → data userID row put
  | .storeBootstrap userID _ _ row put => data userID row put
  | .other _ => False

def Request.isBootstrap : Request κ → Bool
  | .other _ => false
  | _ => true

/-- Neither a statement nor the hash nor a random token fails. -/
def Luck.IsFine (luck : Luck) : Prop :=
  (∀ statement, luck.faults statement = none) ∧ (∃ hash, luck.hash = .ok hash) ∧ ∃ token, luck.auth.random = .ok token

abbrev Race (κ : Type) := Flight (Service κ) (Request κ) (Reply (κ := κ)) (Outcome κ)

abbrev Attempt (κ : Type) := Thread (Request κ) (Reply (κ := κ)) (Outcome κ)

/-- The rest of a program that has created the first user. -/
def won : Effect κ (Outcome κ) → Bool
  | .done (.created _) => true
  | _ => false

def Attempt.hasWon (thread : Attempt κ) : Bool := won thread.rest

variable [DecidableEq κ]

/-- The tables of a bootstrap. -/
def Service.tables (s : Service κ) : Table String User × Table κ (SessionRow κ) × Option SettingsRow :=
  (s.auth.users, s.auth.sessions, s.settings)

/-- The foreign key of the sessions. -/
def Service.Referenced (s : Service κ) : Prop :=
  ∀ key row, s.auth.sessions.find? key = some row → (s.auth.users.find? row.userID).isSome

section Transaction

variable {faults : Faults} {userID : String} {user : User} {key : κ} {row : SessionRow κ} {put : Option Document}
  {s t : Service κ}

omit [DecidableEq κ] in
theorem putSettings_run (fine : ∀ statement, faults statement = none) (valid : IsAcceptable zones put) :
    ∃ t, (put.elim (pure ()) (putSettings zones faults)).run s = .ok ((), t) := by
  cases put with
  | none => exact ⟨s, rfl⟩
  | some document =>
    obtain ⟨normalized, accepted⟩ := valid document rfl
    refine ⟨s.withSettings normalized, Tx.bind_ok.mpr ⟨normalized, s, ?_, Tx.exec_ok.mpr ⟨fine _, trivial, rfl⟩⟩⟩
    rw [accepted]
    exact Tx.attempt_ok.mpr ⟨rfl, rfl⟩

omit [DecidableEq κ] in
theorem putSettings_auth (run : (put.elim (pure ()) (putSettings zones faults)).run s = .ok ((), t)) :
    t.auth = s.auth := by
  cases put with
  | none =>
    obtain ⟨-, rfl⟩ := Tx.pure_ok.mp run
    rfl
  | some document =>
    obtain ⟨normalized, between, validated, written⟩ := Tx.bind_ok.mp run
    obtain ⟨-, rfl⟩ := Tx.attempt_ok.mp validated
    obtain ⟨-, -, rfl⟩ := Tx.exec_ok.mp written
    rfl

/-- The only row of a table that was empty. -/
theorem find?_first {ρ : Type} {users : Table String ρ} (empty : users.rows = []) (value : ρ) (other : String) :
    ((users.upsert userID value).find? other).isSome ↔ other = userID := by
  have absent : users.find? other = none := by rw [Table.find?, empty]; rfl
  rw [Table.find?_upsert, absent]
  split <;> simp [*]

/-- What a bootstrap that commits has found, and what it leaves. -/
theorem bootstrapTx_ok (run : (bootstrapTx zones faults userID user key row put).run s = .ok ((), t)) :
    s.auth.users.rows = [] ∧ t.auth.users = s.auth.users.upsert userID user ∧ row.userID = userID ∧
      t.auth.sessions = s.auth.sessions.upsert key row := by
  obtain ⟨before, s₁, begun, run⟩ := Tx.bind_ok.mp run
  obtain ⟨-, rfl, rfl⟩ := Tx.query_ok.mp begun
  obtain ⟨_, s₂, inserted, run⟩ := Tx.bind_ok.mp run
  obtain ⟨-, -, rfl⟩ := Tx.exec_ok.mp inserted
  obtain ⟨_, s₃, inspected, run⟩ := Tx.bind_ok.mp run
  obtain ⟨-, rfl, rfl⟩ := Tx.query_ok.mp inspected
  obtain ⟨_, s₄, required, run⟩ := Tx.bind_ok.mp run
  obtain ⟨affected, rfl⟩ := Tx.require_ok.mp required
  have empty : s.auth.users.rows = [] := by
    rw [Service.rowsAffected] at affected
    by_contra occupied
    rw [if_neg occupied] at affected
    cases affected
  rw [Service.withFirstUser, if_pos empty] at run
  obtain ⟨_, s₅, linked, run⟩ := Tx.bind_ok.mp run
  obtain ⟨_, s₆, read, linked⟩ := Tx.bind_ok.mp linked
  obtain ⟨rfl, rfl⟩ := Tx.get_ok.mp read
  obtain ⟨-, ⟨-, references⟩, rfl⟩ := Tx.exec_ok.mp linked
  obtain ⟨_, s₇, written, run⟩ := Tx.bind_ok.mp run
  have same := putSettings_auth written
  obtain ⟨_, s₈, committed, run⟩ := Tx.bind_ok.mp run
  obtain ⟨-, rfl, rfl⟩ := Tx.query_ok.mp committed
  obtain ⟨-, rfl⟩ := Tx.pure_ok.mp run
  refine ⟨empty, by rw [same]; rfl, (find?_first empty user row.userID).mp references, by rw [same]; rfl⟩

/-- A bootstrap of an empty database commits when its session and its settings are valid. -/
theorem bootstrapTx_commits (fine : ∀ statement, faults statement = none) (empty : s.auth.users.rows = [])
    (referenced : s.Referenced) (belongs : row.userID = userID) (valid : IsAcceptable zones put) :
    ∃ t, (bootstrapTx zones faults userID user key row put).run s = .ok ((), t) := by
  have unused : s.auth.sessions.find? key = none := by
    by_contra taken
    obtain ⟨other, found⟩ := Option.ne_none_iff_exists'.mp taken
    have owner := referenced key other found
    rw [Table.find?, empty] at owner
    cases owner
  obtain ⟨t, written⟩ := putSettings_run (s := (s.withFirstUser userID user).withSession key row) fine valid
  refine ⟨t, Tx.bind_ok.mpr ⟨s, s, Tx.query_ok.mpr ⟨fine _, rfl, rfl⟩, Tx.bind_ok.mpr ⟨(), s.withFirstUser userID user,
    Tx.exec_ok.mpr ⟨fine _, trivial, rfl⟩, Tx.bind_ok.mpr ⟨_, _, Tx.query_ok.mpr ⟨fine _, rfl, rfl⟩,
    Tx.bind_ok.mpr ⟨(), _, Tx.require_ok.mpr ⟨if_pos empty, rfl⟩, Tx.bind_ok.mpr ⟨(), _, ?_,
    Tx.bind_ok.mpr ⟨(), t, written, Tx.bind_ok.mpr ⟨t, t, Tx.query_ok.mpr ⟨fine _, rfl, rfl⟩, rfl⟩⟩⟩⟩⟩⟩⟩⟩
  refine Tx.bind_ok.mpr ⟨_, _, Tx.get_ok.mpr ⟨rfl, rfl⟩, Tx.exec_ok.mpr ⟨fine _, ?_, rfl⟩⟩
  rw [Service.withFirstUser, if_pos empty]
  exact ⟨unused, (find?_first empty user row.userID).mpr belongs⟩

/-- A bootstrap that finds a user is closed. -/
theorem bootstrapTx_closed (fine : ∀ statement, faults statement = none) (occupied : s.auth.users.rows ≠ []) :
    (bootstrapTx zones faults userID user key row put).run s = .error .closed := by
  simp [bootstrapTx, query, exec, Tx.query, Tx.exec, Tx.require, fine, StateT.run_bind, Service.rowsAffected, occupied]
  rfl

end Transaction

section Programs

/-- What the calls of a request do with their replies: only a committed transaction wins, and a bootstrap
writes nothing outside its transaction. -/
def attemptCall (request : Request κ) : (c : Call κ) → (Reply c → Effect κ (Outcome κ)) → Prop
  | .bootstrap _ _ _ _ _, next => won (next (.ok ())) = true ∧ next (.error .closed) = .done (.refused .closed) ∧
      ∀ failure, ∃ reported, next (.error failure) = .done (.refused reported)
  | .auth c, next => (request.isBootstrap = true → c = .now ∨ c = .randomToken) ∧ ∀ answer, won (next answer) = false
  | .hashPassword _, next => ∀ answer, won (next answer) = false

/-- The program goes on to a transaction with such data unless a call fails. -/
def Leads (data : String → SessionRow κ → Option Document → Prop) : Effect κ (Outcome κ) → Prop
  | .call (.hashPassword _) next => ∀ hash, Leads data (next (.ok hash))
  | .call (.auth .now) next => ∀ now, Leads data (next now)
  | .call (.auth .randomToken) next => ∀ token, Leads data (next (.ok token))
  | .call (.bootstrap userID _ _ row put) _ => data userID row put
  | _ => False

omit [DecidableEq κ] in
theorem other_always {request : Request κ} (other : request.isBootstrap = false) (p : Auth.Effect κ (Auth.Outcome κ)) :
    won (ofAuth p >>= fun outcome => .done (.other outcome)) = false ∧
      (ofAuth p >>= fun outcome => .done (.other outcome)).Always (attemptCall request) := by
  induction p with
  | done value => exact ⟨rfl, trivial⟩
  | call c next ih =>
    refine ⟨rfl, ⟨fun same => ?_, fun answer => (ih answer).1⟩, fun answer => (ih answer).2⟩
    rw [other] at same
    cases same

omit [DecidableEq κ] in
theorem body_always (request : Request κ) :
    won (body digest request) = false ∧ (body digest request).Always (attemptCall request) := by
  cases request with
  | other request => exact other_always rfl _
  | storeBootstrap userID user key row put => exact ⟨rfl, ⟨rfl, rfl, fun failure => ⟨failure, rfl⟩⟩, fun _ => trivial⟩
  | bootstrap username password put =>
    simp only [body, bootstrap, ofAuth, newSession, Program.relabel_call, Program.relabel_done, Program.call_bind,
      Program.done_bind]
    refine ⟨rfl, fun hash => by cases hash <;> rfl, fun hash => ?_⟩
    rcases hash with error | hash
    · trivial
    refine ⟨⟨fun _ => Or.inl rfl, fun _ => rfl⟩, fun now => ⟨⟨fun _ => Or.inr rfl, fun userID => ?_⟩, fun userID => ?_⟩⟩
    · cases userID <;> rfl
    rcases userID with message | userID
    · trivial
    refine ⟨⟨fun _ => Or.inr rfl, fun token => ?_⟩, fun token => ?_⟩
    · cases token <;> rfl
    rcases token with message | token
    · trivial
    refine ⟨⟨fun _ => Or.inr rfl, fun csrf => ?_⟩, fun csrf => ?_⟩
    · cases csrf <;> rfl
    rcases csrf with message | csrf
    · trivial
    refine ⟨⟨rfl, rfl, fun failure => ?_⟩, fun result => ?_⟩
    · cases failure <;> exact ⟨_, rfl⟩
    · rcases result with (- | - | -) | - <;> trivial

omit [DecidableEq κ] in
theorem body_leads {data : String → SessionRow κ → Option Document → Prop} {request : Request κ}
    (carries : request.Carries data) : Leads data (body digest request) := by
  cases request with
  | other request => exact carries.elim
  | storeBootstrap userID user key row put => exact carries
  | bootstrap username password put =>
    simp only [body, bootstrap, ofAuth, newSession, Program.relabel_call, Program.relabel_done, Program.call_bind,
      Program.done_bind]
    exact fun _ _ userID _ _ => carries userID _ rfl

end Programs

section Calls

variable {s t : Service κ} {luck : Luck}

/-- Other calls create no user, and their sessions belong to users. -/
theorem exec_auth {c : Auth.Call κ} {answer : Auth.Reply c} (executed : s.exec zones luck (.auth c) = some (t, answer))
    (referenced : s.Referenced) : t.auth.users = s.auth.users ∧ t.Referenced := by
  obtain ⟨⟨after, reply⟩, done, same⟩ := Option.map_eq_some_iff.mp executed
  cases same
  suffices kept : after.users = s.auth.users ∧ ∀ key row, after.sessions.find? key = some row →
      (s.auth.users.find? row.userID).isSome by
    refine ⟨kept.1, fun key row found => ?_⟩
    change (after.users.find? row.userID).isSome
    rw [kept.1]
    exact kept.2 key row found
  cases exec_sessions done with
  | kept confirmed same =>
    subst same
    exact ⟨rfl, referenced⟩
  | created key row fine unused same =>
    subst same
    refine ⟨rfl, fun other found present => ?_⟩
    rw [Table.find?_upsert] at present
    split at present
    · cases present
      by_contra missing
      have breaks : s.breaksForeignKey (.createSession key row) = true := by
        simpa [Service.breaksForeignKey] using missing
      change (if s.breaksForeignKey (.createSession key row) then some Tx.constraintFailed else _) = none at fine
      rw [if_pos breaks] at fine
      cases fine
    · exact referenced other found present
  | touched key seenAt old here due same =>
    subst same
    refine ⟨rfl, fun other row found => ?_⟩
    rw [Table.find?_upsert] at found
    split at found
    · cases found
      exact referenced key old here
    · exact referenced other row found
  | deleted key same =>
    subst same
    refine ⟨rfl, fun other row found => ?_⟩
    rw [Table.find?_erase] at found
    split at found
    · cases found
    · exact referenced other row found

/-- A transaction creates the first user, or leaves the tables as they were. -/
theorem exec_bootstrap {userID : String} {user : User} {key : κ} {row : SessionRow κ} {put : Option Document}
    {answer : Except Failure Unit}
    (executed : s.exec zones luck (.bootstrap userID user key row put) = some (t, answer)) (referenced : s.Referenced) :
    t.Referenced ∧ (answer = .ok () ∧ s.auth.users.rows = [] ∧ t.auth.users.rows ≠ [] ∨
      (∃ failure, answer = .error failure) ∧ t = s) := by
  cases executed
  rcases result : (transact (bootstrapTx zones luck.faults userID user key row put) s).1 with failure | done
  · rw [Tx.transact_error result]
    exact ⟨referenced, Or.inr ⟨⟨failure, rfl⟩, rfl⟩⟩
  · obtain ⟨empty, users, belongs, sessions⟩ := bootstrapTx_ok (Tx.transact_ok result)
    refine ⟨fun other found present => ?_, Or.inl ⟨rfl, empty, ?_⟩⟩
    · rw [sessions, Table.find?_upsert] at present
      rw [users]
      split at present
      · cases present
        exact (find?_first empty user _).mpr belongs
      · have owner := referenced other found present
        rw [Table.find?, empty] at owner
        cases owner
    · rw [users]
      exact List.cons_ne_nil _ _

/-- What a fine transaction answers. -/
theorem exec_bootstrap_fine {userID : String} {user : User} {key : κ} {row : SessionRow κ} {put : Option Document}
    {answer : Except Failure Unit}
    (executed : s.exec zones luck (.bootstrap userID user key row put) = some (t, answer)) (fine : luck.IsFine)
    (referenced : s.Referenced) :
    (s.auth.users.rows ≠ [] → answer = .error .closed) ∧
      (s.auth.users.rows = [] → row.userID = userID → IsAcceptable zones put → answer = .ok ()) := by
  cases executed
  constructor
  · intro occupied
    rw [transact, bootstrapTx_closed fine.1 occupied]
  · intro empty belongs valid
    obtain ⟨after, run⟩ : ∃ after, (bootstrapTx zones luck.faults userID user key row put).run s = .ok ((), after) :=
      bootstrapTx_commits fine.1 empty referenced belongs valid
    rw [transact, run]

end Calls

section Steps

variable {s t : Race κ} {thread later : Attempt κ} {luck : Luck} {event : Happening (Request κ) Luck Change}

/-- A step of a thread: it wins by creating the first user, or creates none. -/
theorem advance_attempt (always : thread.rest.Always (attemptCall thread.request)) (referenced : s.shared.Referenced)
    (advanced : (service zones digest).advance s.shared thread luck = some (t.shared, later)) :
    t.shared.Referenced ∧ later.request = thread.request ∧ later.rest.Always (attemptCall thread.request) ∧
      thread.hasWon = false ∧
      (later.hasWon = true ∧ s.shared.auth.users.rows = [] ∧ t.shared.auth.users.rows ≠ [] ∨
        later.hasWon = false ∧ t.shared.auth.users = s.shared.auth.users ∧
          (thread.request.isBootstrap = true → t.shared = s.shared)) := by
  obtain ⟨c, next, answer, standing, executed, rfl⟩ := Interleaving.advance_cases advanced
  rw [standing] at always
  have unfinished : thread.hasWon = false := by rw [Attempt.hasWon, standing]; rfl
  change s.shared.exec zones luck c = some (t.shared, answer) at executed
  suffices effect : t.shared.Referenced ∧ (won (next answer) = true ∧ s.shared.auth.users.rows = [] ∧
      t.shared.auth.users.rows ≠ [] ∨ won (next answer) = false ∧ t.shared.auth.users = s.shared.auth.users ∧
        (thread.request.isBootstrap = true → t.shared = s.shared)) from
    ⟨effect.1, rfl, always.2 answer, unfinished, effect.2⟩
  cases c with
  | auth c =>
    obtain ⟨users, still⟩ := exec_auth executed referenced
    refine ⟨still, Or.inr ⟨always.1.2 answer, users, fun request => ?_⟩⟩
    rcases always.1.1 request with rfl | rfl <;> exact (congrArg Prod.fst (Option.some.inj executed)).symm
  | hashPassword password =>
    have same : t.shared = s.shared := (congrArg Prod.fst (Option.some.inj executed)).symm
    rw [same]
    exact ⟨referenced, Or.inr ⟨always.1 answer, rfl, fun _ => rfl⟩⟩
  | bootstrap userID user key row put =>
    obtain ⟨still, ⟨rfl, empty, created⟩ | ⟨⟨failure, rfl⟩, same⟩⟩ := exec_bootstrap executed referenced
    · exact ⟨still, Or.inl ⟨always.1.1, empty, created⟩⟩
    · obtain ⟨reported, refused⟩ := always.1.2.2 failure
      refine ⟨still, Or.inr ⟨by rw [refused]; rfl, by rw [same], fun _ => same⟩⟩

/-- Without a failure of a call a program leads on, or executes its transaction. -/
theorem leads_advance {data : String → SessionRow κ → Option Document → Prop}
    (leads : Leads data thread.rest) (fine : luck.IsFine)
    (advanced : (service zones digest).advance s.shared thread luck = some (t.shared, later)) :
    Leads data later.rest ∨ ∃ userID user key row put next answer,
      thread.rest = .call (.bootstrap userID user key row put) next ∧ data userID row put ∧
        s.shared.exec zones luck (.bootstrap userID user key row put) = some (t.shared, answer) ∧
          later.rest = next answer := by
  obtain ⟨c, next, answer, standing, executed, rfl⟩ := Interleaving.advance_cases advanced
  change s.shared.exec zones luck c = some (t.shared, answer) at executed
  rw [standing] at leads
  obtain ⟨-, ⟨hash, hashed⟩, token, drawn⟩ := fine
  cases c with
  | hashPassword password =>
    have reply : luck.hash = answer := congrArg Prod.snd (Option.some.inj executed)
    rw [hashed] at reply
    cases reply
    exact Or.inl (leads hash)
  | bootstrap userID user key row put =>
    exact Or.inr ⟨userID, user, key, row, put, next, answer, standing, leads, executed, rfl⟩
  | auth c =>
    cases c
    case now => exact Or.inl (leads answer)
    case randomToken =>
      have reply : luck.auth.random = answer := congrArg Prod.snd (Option.some.inj executed)
      rw [drawn] at reply
      cases reply
      exact Or.inl (leads token)
    all_goals exact leads.elim

theorem world_keeps {change : Change} (changed : (service zones digest).world s.shared change = some t.shared) :
    t.shared.auth.users = s.shared.auth.users ∧ t.shared.auth.sessions = s.shared.auth.sessions := by
  generalize t.shared = after at *
  obtain ⟨-, same⟩ := Option.ite_none_right_eq_some.mp changed
  cases same
  exact ⟨rfl, rfl⟩

/-- As many bootstraps have succeeded as there is a first user. -/
structure Settled (s : Race κ) : Prop where
  referenced : s.shared.Referenced
  counted : s.threads.countP Attempt.hasWon = if s.shared.auth.users.rows = [] then 0 else 1
  always : ∀ thread ∈ s.threads, thread.rest.Always (attemptCall thread.request)

theorem Settled.step (settled : Settled s) (stepped : (service zones digest).step s event = some t) : Settled t := by
  obtain ⟨request, rfl, rfl⟩ | ⟨i, luck, thread, later, rfl, found, advanced, threads⟩ |
    ⟨change, rfl, changed, threads⟩ := Interleaving.step_cases stepped
  · have fresh : Attempt.hasWon ((service zones digest).launch s.shared request) = false :=
      (body_always request).1
    refine ⟨settled.referenced, ?_, fun thread member => ?_⟩
    · rw [List.countP_append, List.countP_singleton, fresh]
      exact settled.counted
    · rcases List.mem_append.mp member with old | new
      · exact settled.always thread old
      · rw [List.mem_singleton.mp new]
        exact (body_always request).2
  · have before := settled.always thread (List.mem_of_getElem? found)
    obtain ⟨still, request, after, unfinished, effect⟩ := advance_attempt before settled.referenced advanced
    refine ⟨still, ?_, fun other member => ?_⟩
    · rw [threads, Interleaving.countP_advance found unfinished, settled.counted]
      rcases effect with ⟨wins, empty, created⟩ | ⟨loses, users, -⟩
      · rw [wins, if_pos empty, if_neg created, if_pos rfl]
      · rw [loses, users]
        rfl
    · rw [threads] at member
      rcases Interleaving.mem_set_cases member with rfl | old
      · rw [request]
        exact after
      · exact settled.always other old
  · obtain ⟨users, sessions⟩ := world_keeps changed
    refine ⟨fun key row found => ?_, by rw [threads, users]; exact settled.counted,
    by rw [threads]; exact settled.always⟩
    rw [sessions] at found
    rw [users]
    exact settled.referenced key row found

/-- The first user stays. -/
theorem Settled.occupied (settled : Settled s) (stepped : (service zones digest).step s event = some t)
    (occupied : s.shared.auth.users.rows ≠ []) : t.shared.auth.users.rows ≠ [] := by
  obtain ⟨request, rfl, rfl⟩ | ⟨i, luck, thread, later, rfl, found, advanced, threads⟩ |
    ⟨change, rfl, changed, threads⟩ := Interleaving.step_cases stepped
  · exact occupied
  · have before := settled.always thread (List.mem_of_getElem? found)
    obtain ⟨-, -, -, -, ⟨-, -, created⟩ | ⟨-, users, -⟩⟩ := advance_attempt before settled.referenced advanced
    · exact created
    · rwa [users]
  · rwa [(world_keeps changed).1]

theorem Settled.winner (settled : Settled s) :
    (∃ winner ∈ s.threads, Attempt.hasWon winner = true) ↔ s.shared.auth.users.rows ≠ [] := by
  rw [← List.countP_pos_iff, settled.counted]
  split <;> simp [*]

end Steps

section Runs

variable {s t u v : Race κ} {thread : Attempt κ} {luck : Luck} {i : ℕ}
  {events before after : List (Happening (Request κ) Luck Change)}

/-- No call of the thread at this place fails. -/
def Undisturbed (i : ℕ) (events : List (Happening (Request κ) Luck Change)) : Prop :=
  ∀ luck, .moves i luck ∈ events → luck.IsFine

/-- What is promised about the bootstraps of every run from a state: at most one has succeeded; one has
when a valid request has come to its end; afterwards all others are closed; and no step of a request that
is refused changes the tables. A request can always go on. -/
structure SingleWinner (zones : String → Except String Zone) (digest : String → κ) (s : Race κ) : Prop where
  single : ∀ events t, Run (Enabled (service zones digest).step) s events t → t.threads.countP Attempt.hasWon ≤ 1
  decided : ∀ events t, Run (Enabled (service zones digest).step) s events t → ∀ i thread outcome,
    t.threads[i]? = some thread → thread.request.IsValid zones → Undisturbed i events → thread.rest = .done outcome →
      ∃ winner ∈ t.threads, Attempt.hasWon winner = true
  closed : ∀ before after u t, Run (Enabled (service zones digest).step) s before u →
    Run (Enabled (service zones digest).step) u after t → (∃ winner ∈ u.threads, Attempt.hasWon winner = true) →
      ∀ i thread, (∀ earlier outcome, u.threads[i]? = some earlier → earlier.rest ≠ .done outcome) →
        t.threads[i]? = some thread → thread.request.isBootstrap = true → Attempt.hasWon thread = false ∧
          (Undisturbed i (before ++ after) → ∀ outcome, thread.rest = .done outcome → outcome = .refused .closed)
  untouched : ∀ before after i luck u v t, Run (Enabled (service zones digest).step) s before u →
    (service zones digest).step u (.moves i luck) = some v → Run (Enabled (service zones digest).step) v after t →
      ∀ thread failure, t.threads[i]? = some thread → thread.request.isBootstrap = true →
        thread.rest = .done (.refused failure) → v.shared.tables = u.shared.tables
  unhindered : ∀ events t, Run (Enabled (service zones digest).step) s events t → ∀ i thread luck,
    t.threads[i]? = some thread → thread.request.isBootstrap = true → (∀ outcome, thread.rest ≠ .done outcome) →
      ∃ u, (service zones digest).step t (.moves i luck) = some u

theorem undisturbed_run (run : Run (Enabled (service zones digest).step) s events t) (fine : Undisturbed i events) :
    Run (Guarded (fun _ event => ∀ luck, event = .moves i luck → luck.IsFine) (Enabled (service zones digest).step))
      s events t :=
  run.guard_events fun _ member luck same => fine luck (same ▸ member)

theorem Settled.run (settled : Settled s) (run : Run (Enabled (service zones digest).step) s events t) : Settled t :=
  run.invariant settled fun _ _ _ before moved => before.step moved

/-- Where an undisturbed request stands: before its transaction, or at the end that this has led to. -/
theorem leads_run (data : String → SessionRow κ → Option Document → Prop) (inv : Race κ → Prop)
    (reached : Service κ → Outcome κ → Prop) (run : Run (Enabled (service zones digest).step) s events t)
    (fine : Undisturbed i events)
    (initial : inv s ∧ ∀ thread, s.threads[i]? = some thread → thread.request.Carries data →
      Leads data thread.rest ∨ ∃ outcome, thread.rest = .done outcome ∧ reached s.shared outcome)
    (settled : ∀ s, inv s → Settled s)
    (kept : ∀ s event t, inv s → (service zones digest).step s event = some t → inv t)
    (executes : ∀ (s : Race κ) shared luck (thread : Attempt κ) userID user key row put next answer, inv s →
      luck.IsFine → data userID row put → attemptCall thread.request (.bootstrap userID user key row put) next →
      s.shared.exec zones luck (.bootstrap userID user key row put) = some (shared, answer) →
      ∃ outcome, next answer = .done outcome ∧ reached shared outcome)
    (lasts : ∀ s event t outcome, inv s → (service zones digest).step s event = some t → reached s.shared outcome →
      reached t.shared outcome)
    (found : t.threads[i]? = some thread) (carries : thread.request.Carries data) :
    Leads data thread.rest ∨ ∃ outcome, thread.rest = .done outcome ∧ reached t.shared outcome := by
  refine (Interleaving.run_place inv (fun shared (thread : Attempt κ) => thread.request.Carries data →
    Leads data thread.rest ∨ ∃ outcome, thread.rest = .done outcome ∧ reached shared outcome) (undisturbed_run run fine)
    initial kept ?_ ?_ ?_).2 thread found carries
  · exact fun s request _ carries => Or.inl (body_leads carries)
  · intro s t luck thread later good fine member advanced before carries
    have always := (settled s good).always thread member
    obtain ⟨-, request, -⟩ := advance_attempt always (settled s good).referenced advanced
    rw [request] at carries
    rcases before carries with leads | ⟨outcome, finished, -⟩
    · rcases leads_advance leads (fine luck rfl) advanced with leads | ⟨userID, user, key, row, put, next, answer,
        standing, asked, executed, rest⟩
      · exact Or.inl leads
      · rw [standing] at always
        rw [rest]
        exact Or.inr (executes s _ luck thread _ _ _ _ _ next answer good (fine luck rfl) asked always.1 executed)
    · obtain ⟨c, next, answer, standing, -⟩ := Interleaving.advance_cases advanced
      rw [standing] at finished
      cases finished
  · intro s event t thread good stepped before carries
    exact (before carries).imp_right fun ⟨outcome, finished, here⟩ =>
      ⟨outcome, finished, lasts s event t outcome good stepped here⟩

omit [DecidableEq κ] in
theorem carries_trivially {request : Request κ} (bootstrap : request.isBootstrap = true) :
    request.Carries fun _ _ _ => True := by
  cases request with
  | bootstrap username password put => exact fun _ _ _ => trivial
  | storeBootstrap userID user key row put => trivial
  | other request => cases bootstrap

omit [DecidableEq κ] in
theorem carries_valid {request : Request κ} (valid : request.IsValid zones) :
    request.Carries fun userID row put => row.userID = userID ∧ IsAcceptable zones put := by
  cases request with
  | bootstrap username password put => exact fun userID row belongs => ⟨belongs, valid⟩
  | storeBootstrap userID user key row put => exact valid
  | other request => exact valid.elim

omit [DecidableEq κ] in
/-- The transaction is the last call of a request. -/
theorem transaction_ends {request : Request κ} {userID : String} {user : User} {key : κ} {row : SessionRow κ}
    {put : Option Document} {next : Except Failure Unit → Effect κ (Outcome κ)}
    (node : attemptCall request (.bootstrap userID user key row put) next) (answer : Except Failure Unit) :
    ∃ outcome, next answer = .done outcome := by
  cases answer with
  | error failure =>
    obtain ⟨reported, refused⟩ := node.2.2 failure
    exact ⟨_, refused⟩
  | ok done =>
    have wins := node.1
    generalize next (.ok ()) = rest at wins
    cases rest with
    | done outcome => exact ⟨outcome, rfl⟩
    | call c later => cases wins

/-- A valid request that has come to its end undisturbed leaves a user. -/
theorem valid_decides (settled : Settled s) (fresh : s.threads = [])
    (run : Run (Enabled (service zones digest).step) s events t)
    (fine : Undisturbed i events) (found : t.threads[i]? = some thread) (valid : thread.request.IsValid zones) :
    Leads (fun userID row put => row.userID = userID ∧ IsAcceptable zones put) thread.rest ∨
      ∃ outcome, thread.rest = .done outcome ∧ t.shared.auth.users.rows ≠ [] := by
  refine leads_run _ Settled (fun shared _ => shared.auth.users.rows ≠ []) run fine ⟨settled, by simp [fresh]⟩
    (fun _ good => good) (fun _ _ _ before moved => before.step moved) ?_
    (fun _ _ _ _ good stepped => good.occupied stepped) found (carries_valid valid)
  intro s shared luck thread userID user key row put next answer good fine ⟨belongs, acceptable⟩ node executed
  obtain ⟨outcome, ended⟩ := transaction_ends node answer
  refine ⟨outcome, ended, ?_⟩
  have answers := exec_bootstrap_fine executed fine good.referenced
  obtain ⟨-, ⟨-, -, created⟩ | ⟨⟨failure, refused⟩, same⟩⟩ := exec_bootstrap executed good.referenced
  · exact created
  · intro empty
    rw [same] at empty
    have committed := answers.2 empty belongs acceptable
    rw [refused] at committed
    cases committed

/-- An undisturbed bootstrap that has not come to its end goes on to its transaction. -/
theorem unfinished_leads (settled : Settled s) (fresh : s.threads = [])
    (run : Run (Enabled (service zones digest).step) s events t) (fine : Undisturbed i events)
    (found : t.threads[i]? = some thread) (bootstrap : thread.request.Carries fun _ _ _ => True) :
    Leads (fun _ _ _ => True) thread.rest ∨ ∃ outcome, thread.rest = .done outcome ∧ True := by
  refine leads_run _ Settled (fun _ _ => True) run fine ⟨settled, by simp [fresh]⟩ (fun _ good => good)
    (fun _ _ _ before moved => before.step moved) ?_ (fun _ _ _ _ _ _ here => here) found bootstrap
  intro s shared luck thread userID user key row put next answer _ _ _ node _
  obtain ⟨outcome, ended⟩ := transaction_ends node answer
  exact ⟨outcome, ended, trivial⟩

/-- Once there is a user, an undisturbed bootstrap is closed. -/
theorem closed_leads (settled : Settled s) (occupied : s.shared.auth.users.rows ≠ [])
    (run : Run (Enabled (service zones digest).step) s events t) (fine : Undisturbed i events)
    (initial : ∀ earlier, s.threads[i]? = some earlier → (earlier.request.Carries fun _ _ _ => True) →
      Leads (fun _ _ _ => True) earlier.rest)
    (found : t.threads[i]? = some thread) (bootstrap : thread.request.Carries fun _ _ _ => True) :
    Leads (fun _ _ _ => True) thread.rest ∨ ∃ outcome, thread.rest = .done outcome ∧ outcome = .refused .closed := by
  refine leads_run _ (fun s => Settled s ∧ s.shared.auth.users.rows ≠ []) (fun _ outcome => outcome = .refused .closed)
    run fine ⟨⟨settled, occupied⟩, fun earlier here carries => Or.inl (initial earlier here carries)⟩
    (fun _ good => good.1)
    (fun _ _ _ before moved => ⟨before.1.step moved, before.1.occupied moved before.2⟩) ?_
    (fun _ _ _ _ _ _ here => here) found bootstrap
  intro s shared luck thread userID user key row put next answer ⟨good, occupied⟩ fine _ node executed
  have closed := (exec_bootstrap_fine executed fine good.referenced).1 occupied
  rw [closed]
  exact ⟨_, node.2.1, rfl⟩

/-- Where there is a user, no bootstrap that has not won will win. -/
theorem occupied_loses (settled : Settled s) (occupied : s.shared.auth.users.rows ≠ [])
    (run : Run (Enabled (service zones digest).step) s events t)
    (initial : ∀ earlier, s.threads[i]? = some earlier → Attempt.hasWon earlier = false)
    (found : t.threads[i]? = some thread) : Attempt.hasWon thread = false := by
  refine (Interleaving.run_place (fun s => Settled s ∧ s.shared.auth.users.rows ≠ [])
    (fun _ thread => Attempt.hasWon thread = false) run.guard_trivially ⟨⟨settled, occupied⟩, initial⟩
    (fun _ _ _ before moved => ⟨before.1.step moved, before.1.occupied moved before.2⟩)
    (fun s request _ => (body_always request).1) ?_ (fun _ _ _ _ _ _ here => here)).2 thread found
  intro s t luck thread later ⟨good, full⟩ _ member advanced _
  obtain ⟨-, -, -, -, ⟨-, empty, -⟩ | ⟨loses, -⟩⟩ := advance_attempt (good.always thread member) good.referenced advanced
  · exact absurd empty full
  · exact loses

omit [DecidableEq κ] in
theorem hasWon_ended (wins : Attempt.hasWon thread = true) :
    ∃ credentials, thread.rest = .done (.created credentials) := by
  rw [Attempt.hasWon] at wins
  generalize thread.rest = rest at wins
  rcases rest with (credentials | failure | outcome) | ⟨c, next⟩
  · exact ⟨credentials, rfl⟩
  all_goals cases wins

/-- A bootstrap always has a next step. -/
theorem bootstrap_steps {shared : Service κ} (always : thread.rest.Always (attemptCall thread.request))
    (bootstrap : thread.request.isBootstrap = true) (unfinished : ∀ outcome, thread.rest ≠ .done outcome) :
    ∃ effect, (service zones digest).advance shared thread luck = some effect := by
  rcases standing : thread.rest with outcome | ⟨c, next⟩
  · exact absurd standing (unfinished outcome)
  rw [standing] at always
  suffices executes : ∃ effect, shared.exec zones luck c = some effect by
    obtain ⟨effect, executed⟩ := executes
    rw [Interleaving.advance, standing]
    exact ⟨_, Option.map_eq_some_iff.mpr ⟨effect, executed, rfl⟩⟩
  cases c with
  | hashPassword password => exact ⟨_, rfl⟩
  | bootstrap userID user key row put => exact ⟨_, rfl⟩
  | auth c => rcases always.1.1 bootstrap with rfl | rfl <;> exact ⟨_, rfl⟩

/-- Racing bootstraps of an empty database have a single winner. -/
theorem single_winner (fresh : s.threads = []) (empty : s.shared.auth.users.rows = [])
    (referenced : s.shared.Referenced) :
    SingleWinner zones digest s := by
  have settled : Settled s := ⟨referenced, by rw [fresh, empty]; rfl, by simp [fresh]⟩
  constructor
  case single =>
    intro events t run
    rw [(settled.run run).counted]
    split <;> decide
  case decided =>
    intro events t run i thread outcome found valid fine finished
    rw [(settled.run run).winner]
    rcases valid_decides settled fresh run fine found valid with leads | ⟨_, -, occupied⟩
    · rw [finished] at leads
      exact leads.elim
    · exact occupied
  case closed =>
    intro before after u t first second winner i thread unfinished found bootstrap
    have between := settled.run first
    have occupied := between.winner.mp winner
    constructor
    · refine occupied_loses between occupied second (fun earlier here => ?_) found
      by_contra wins
      obtain ⟨credentials, ended⟩ := hasWon_ended (Bool.of_not_eq_false wins)
      exact unfinished earlier _ here ended
    · intro fine outcome finished
      have started : ∀ earlier, u.threads[i]? = some earlier → (earlier.request.Carries fun _ _ _ => True) →
          Leads (fun _ _ _ => True) earlier.rest := fun earlier here carries => by
        have all : Undisturbed i before := fun luck member => fine luck (List.mem_append_left _ member)
        rcases unfinished_leads settled fresh first all here carries with leads | ⟨outcome, ended, -⟩
        · exact leads
        · exact absurd ended (unfinished earlier outcome here)
      have all : Undisturbed i after := fun luck member => fine luck (List.mem_append_right _ member)
      rcases closed_leads between occupied second all started found (carries_trivially bootstrap) with leads |
        ⟨answer, ended, refused⟩
      · rw [finished] at leads
        exact leads.elim
      · rw [finished] at ended
        cases ended
        exact refused
  case untouched =>
    intro before after i luck u v t first stepped second thread failure found bootstrap refused
    have between := settled.run first
    obtain ⟨request, other, -⟩ | ⟨j, fate, mover, later, same, taken, advanced, threads⟩ | ⟨change, other, -⟩ :=
      Interleaving.step_cases stepped
    · cases other
    · cases same
      have here : v.threads[i]? = some later := by
        rw [threads, List.getElem?_set_self (List.getElem?_eq_some_iff.mp taken).1]
      obtain ⟨-, request, -, -, ⟨wins, -⟩ | ⟨-, -, same⟩⟩ :=
        advance_attempt (between.always mover (List.mem_of_getElem? taken)) between.referenced advanced
      · obtain ⟨credentials, ended⟩ := hasWon_ended wins
        have stays := Interleaving.finished_stays second here ended
        rw [found] at stays
        cases stays
        rw [refused] at ended
        cases ended
      · obtain ⟨final, there, asked, -⟩ := Interleaving.thread_stays second here
        rw [found] at there
        cases there
        rw [same (by rw [← request, ← asked]; exact bootstrap)]
    · cases other
  case unhindered =>
    intro events t run i thread luck found bootstrap unfinished
    obtain ⟨effect, advanced⟩ : ∃ effect, (service zones digest).advance t.shared thread luck = some effect :=
      bootstrap_steps ((settled.run run).always thread (List.mem_of_getElem? found)) bootstrap unfinished
    exact ⟨_, Option.bind_eq_some_iff.mpr ⟨thread, found, Option.map_eq_some_iff.mpr ⟨effect, advanced, rfl⟩⟩⟩

/-- A database that has just been created. -/
def created : Service String := ⟨⟨0, .empty, .empty, .empty, .empty⟩, none⟩

theorem created_winner : SingleWinner (fun _ => .error "unknown time zone") id (⟨created, []⟩ : Race String) :=
  single_winner rfl rfl fun _ _ found => by cases found

end Runs

end Helio.Bootstrap
