import Helio.Machine.Exchanges
import Helio.Model.Gateway
import Helio.Soundness.SessionLifetime

/-! # Who may change something

The handler of a private endpoint begins only if a state of the store, while the request was in flight, granted
it: the session of its cookie stood there, and with the digest of its CSRF token if the endpoint can change
something. A grant that is lost, by a logout or by a token that replaces the older one, never comes back.
-/

namespace Helio.Gateway

open Auth Interleaving

variable {κ : Type} [DecidableEq κ] {digest : String → κ} {request : HttpRequest}

/-- The request is one that `RequireCSRF` looks at. -/
def Endpoint.changes (endpoint : Endpoint) : Bool := endpoint.method ≠ .get

abbrev Serving (κ : Type) := Thread HttpRequest (@Reply κ) (Response κ)

abbrev Traffic (κ : Type) := Flight (Gate κ) HttpRequest (@Reply κ) (Response κ)

/-- A handler has begun. -/
def Handles (trace : List (Exchange (@Reply κ))) : Prop := ∃ exchange ∈ trace, ∃ endpoint, exchange.call = .handle endpoint

/-- What the manager told of the session of a token. -/
structure Learns (digest : String → κ) (token : String) (session : Session κ) (now : ℤ)
    (trace : List (Exchange (@Reply κ))) : Prop where
  looked : ⟨.auth (.lookupSession (digest token)), .ok session⟩ ∈ trace
  timed : ⟨.auth .now, now⟩ ∈ trace
  alive : ¬session.isOver now

section Programs

variable {α : Type} {trace : List (Exchange (@Reply κ))} {rest : Effect κ (Response κ)}

omit [DecidableEq κ] in
/-- The manager does not begin a handler. -/
theorem ofManager_unhandled {operation : Auth.Effect κ α} {left : Effect κ α}
    (reached : (ofManager operation).Reaches trace left) : ¬Handles trace := by
  rintro ⟨exchange, member, endpoint, handled⟩
  obtain ⟨c, same⟩ := reached.uses (Program.relabel_uses operation) exchange member
  rw [same] at handled
  cases handled

omit [DecidableEq κ] in
theorem handles_append {before after : List (Exchange (@Reply κ))} (handles : Handles (before ++ after))
    (unhandled : ¬Handles before) : Handles after := by
  obtain ⟨exchange, member, endpoint, handled⟩ := handles
  rcases List.mem_append.mp member with early | late
  · exact absurd ⟨exchange, early, endpoint, handled⟩ unhandled
  · exact ⟨exchange, late, endpoint, handled⟩

omit [DecidableEq κ] in
theorem done_unhandled {value : Response κ} (reached : (Program.done value : Effect κ (Response κ)).Reaches trace rest) :
    ¬Handles trace := by
  obtain ⟨rfl, -⟩ := Program.reaches_done.mp reached
  rintro ⟨exchange, member, -⟩
  cases member

omit [DecidableEq κ] in
/-- A principal is that of a session which was looked up and was not over. -/
theorem authenticate_learns {token : String} {principal : Principal κ}
    (returned : (ofManager (authenticate digest token)).Returns trace (.ok principal)) :
    ∃ session now, Learns digest token session now trace ∧ session.principal = principal := by
  rw [ofManager, authenticate] at returned
  split at returned
  case isFalse text => simp at returned
  simp only [Program.call_bind, Program.done_bind, Program.relabel_call, Program.returns_call] at returned
  obtain ⟨found, later, rfl, returned⟩ := returned
  rcases found with (- | message) | session
  · simp at returned
  · simp at returned
  simp only [Program.relabel_call, Program.returns_call] at returned
  obtain ⟨now, last, rfl, returned⟩ := returned
  by_cases ended : session.isOver now
  · simp [ended] at returned
  refine ⟨session, now, ⟨by simp, by simp, ended⟩, ?_⟩
  by_cases due : sessionTouchInterval ≤ Helio.durationSince now session.lastSeenAt
  · simp only [ended, due, if_true, if_false, Program.relabel_call, Program.returns_call] at returned
    obtain ⟨touched, none_left, rfl, returned⟩ := returned
    cases touched with
    | none =>
      simp only [Program.pure_eq, Program.relabel_done, Program.returns_done] at returned
      exact (Except.ok.inj returned.2).symm
    | some message => simp at returned
  · simp only [ended, due, if_false, Program.pure_eq, Program.relabel_done, Program.returns_done] at returned
    exact (Except.ok.inj returned.2).symm

omit [DecidableEq κ] in
/-- A handler behind the session check begins for a cookie that the manager knows the session of. -/
theorem requireSession_handles {next : String → Principal κ → Effect κ (Response κ)}
    (reached : (requireSession digest request next).Reaches trace rest) (handles : Handles trace) :
    ∃ token session now before after, request.cookie = some token ∧ Learns digest token session now before ∧
      (next token session.principal).Reaches after rest ∧ trace = before ++ after ∧ Handles after := by
  rw [requireSession] at reached
  cases cookie : request.cookie with
  | none =>
    rw [cookie] at reached
    exact absurd handles (done_unhandled reached)
  | some token =>
    rw [cookie] at reached
    rcases Program.reaches_bind reached with ⟨first, standing, -⟩ | ⟨before, result, after, returned, goes, rfl⟩
    · exact absurd handles (ofManager_unhandled standing)
    · have later := handles_append handles (ofManager_unhandled returned)
      cases result with
      | error failure => exact absurd later (done_unhandled goes)
      | ok principal =>
        obtain ⟨session, now, learns, rfl⟩ := authenticate_learns returned
        exact ⟨token, session, now, before, after, rfl, learns, goes, rfl, later⟩

omit [DecidableEq κ] in
theorem bootstrapGate_handles {next : Effect κ (Response κ)} (reached : (bootstrapGate next).Reaches trace rest)
    (handles : Handles trace) : ∃ answer after, trace = ⟨.bootstrapOpen, answer⟩ :: after ∧ next.Reaches after rest ∧
      Handles after := by
  rcases Program.reaches_call.mp reached with ⟨rfl, -⟩ | ⟨answer, after, rfl, goes⟩
  · obtain ⟨exchange, member, -⟩ := handles
    cases member
  · have first : ¬Handles [(⟨.bootstrapOpen, answer⟩ : Exchange (@Reply κ))] := by
      rintro ⟨exchange, member, endpoint, handled⟩
      rw [List.mem_singleton.mp member] at handled
      cases handled
    have later : Handles after := handles_append handles first
    rcases answer with message | (- | -)
    · exact absurd later (done_unhandled goes)
    · exact ⟨_, after, rfl, goes, later⟩
    · exact absurd later (done_unhandled goes)

/-- A handler behind the CSRF check begins for a token of the session, from the origin of the page. -/
theorem requireCSRF_handles {principal : Principal κ} {next : Effect κ (Response κ)}
    (changes : request.endpoint.method ≠ .get ∧ request.endpoint.method ≠ .head ∧ request.endpoint.method ≠ .options)
    (reached : (requireCSRF digest request principal next).Reaches trace rest) (handles : Handles trace) :
    sameOrigin request = true ∧ digest request.csrfToken = principal.csrfHash := by
  rw [requireCSRF, if_neg (by tauto)] at reached
  split at reached
  · exact absurd handles (done_unhandled reached)
  · next passes =>
    push Not at passes
    exact ⟨by simpa using passes.2.1, passes.2.2⟩

/-- The manager's answers that a handler rests on. -/
def Checked (digest : String → κ) (request : HttpRequest) (trace : List (Exchange (@Reply κ))) : Prop :=
  ∃ token session now, request.cookie = some token ∧ Learns digest token session now trace ∧
    (request.endpoint.changes = true → sameOrigin request = true ∧ session.csrfHash = digest request.csrfToken)

omit [DecidableEq κ] in
theorem Learns.append {token : String} {session : Session κ} {now : ℤ} {before : List (Exchange (@Reply κ))}
    (learns : Learns digest token session now before) (after : List (Exchange (@Reply κ))) :
    Learns digest token session now (before ++ after) where
  looked := List.mem_append_left after learns.looked
  timed := List.mem_append_left after learns.timed
  alive := learns.alive

omit [DecidableEq κ] in
theorem login_unhandled {username password : String}
    (reached : (requireSameOrigin request (serveLogin digest request username password)).Reaches trace rest) :
    ¬Handles trace := by
  rw [requireSameOrigin] at reached
  split at reached
  · rcases Program.reaches_bind reached with ⟨first, standing, -⟩ | ⟨before, result, after, returned, goes, rfl⟩
    · exact ofManager_unhandled standing
    · intro handles
      have later := handles_append handles (ofManager_unhandled returned)
      cases result with
      | error failure => cases failure <;> exact done_unhandled goes later
      | ok credentials => exact done_unhandled goes later
  · exact done_unhandled reached

omit [DecidableEq κ] in
/-- What is behind the checks of a private endpoint that changes nothing. -/
theorem query_checked {next : String → Principal κ → Effect κ (Response κ)} (query : request.endpoint.method = .get)
    (reached : (requireSession digest request fun token principal => bootstrapGate (next token principal)).Reaches trace
      rest) (handles : Handles trace) : Checked digest request trace := by
  obtain ⟨token, session, now, before, after, cookie, learns, -, rfl, -⟩ := requireSession_handles reached handles
  exact ⟨token, session, now, cookie, learns.append after, fun changes => by simp [Endpoint.changes, query] at changes⟩

theorem change_checked {next : String → Principal κ → Effect κ (Response κ)}
    (changes : request.endpoint.method ≠ .get ∧ request.endpoint.method ≠ .head ∧ request.endpoint.method ≠ .options)
    (reached : (requireSession digest request fun token principal =>
      bootstrapGate (requireCSRF digest request principal (next token principal))).Reaches trace rest)
    (handles : Handles trace) : Checked digest request trace := by
  obtain ⟨token, session, now, before, after, cookie, learns, goes, rfl, later⟩ := requireSession_handles reached handles
  obtain ⟨answer, last, rfl, goes, later⟩ := bootstrapGate_handles goes later
  obtain ⟨origin, csrf⟩ := requireCSRF_handles changes goes later
  exact ⟨token, session, now, cookie, learns.append _, fun _ => ⟨origin, csrf.symm⟩⟩

/-- Every handler rests on answers of the manager. -/
theorem serve_checked (reached : (serve digest request).Reaches trace rest) (handles : Handles trace) :
    Checked digest request trace := by
  rw [serve] at reached
  cases endpoint : request.endpoint with
  | login username password =>
    rw [endpoint] at reached
    exact absurd handles (login_unhandled reached)
  | session | query path =>
    rw [endpoint] at reached
    exact query_checked (by simp [endpoint, Endpoint.method]) reached handles
  | confirmPassword password | logout | create path | replace path =>
    rw [endpoint] at reached
    exact change_checked (by simp [endpoint, Endpoint.method]) reached handles

end Programs

section Stores

variable {g after : Gate κ} {luck : Luck}

/-- The store grants the request: it has the session of the cookie, with the digest of the token where the
endpoint can change something. -/
def Grants (digest : String → κ) (request : HttpRequest) (g : Gate κ) : Prop :=
  ∃ token row, request.cookie = some token ∧ g.manager.sessions.find? (digest token) = some row ∧
    (request.endpoint.changes = true → row.csrfHash = digest request.csrfToken)

/-- Every session and every token in the store is on record. -/
def OnRecord (g : Gate κ) : Prop := ∀ key row, g.manager.sessions.find? key = some row →
  g.manager.created.find? key ≠ none ∧ row.csrfHash ∈ g.issued

/-- What a call can do to the store. -/
inductive StoreChange (g after : Gate κ) : Prop
  | kept (sessions : after.manager.sessions = g.manager.sessions) (created : after.manager.created = g.manager.created)
      (issued : after.issued = g.issued)
  | created (key : κ) (row : SessionRow κ) (unused : g.manager.created.find? key = none) (fresh : row.csrfHash ∉ g.issued)
      (sessions : after.manager.sessions = g.manager.sessions.upsert key row)
      (recorded : after.manager.created = g.manager.created.upsert key row.createdAt)
      (issued : after.issued = row.csrfHash :: g.issued)
  | failed (csrfHash : κ) (sessions : after.manager.sessions = g.manager.sessions)
      (created : after.manager.created = g.manager.created) (issued : after.issued = csrfHash :: g.issued)
  | touched (key : κ) (row : SessionRow κ) (seenAt : ℤ) (found : g.manager.sessions.find? key = some row)
      (sessions : after.manager.sessions = g.manager.sessions.upsert key { row with lastSeenAt := seenAt })
      (created : after.manager.created = g.manager.created) (issued : after.issued = g.issued)
  | deleted (key : κ) (sessions : after.manager.sessions = g.manager.sessions.erase key)
      (created : after.manager.created = g.manager.created) (issued : after.issued = g.issued)
  | rotated (key csrfHash : κ) (row : SessionRow κ) (found : g.manager.sessions.find? key = some row)
      (fresh : csrfHash ∉ g.issued) (sessions : after.manager.sessions = g.manager.sessions.upsert key { row with csrfHash })
      (created : after.manager.created = g.manager.created) (issued : after.issued = csrfHash :: g.issued)

theorem auth_change {c : Auth.Call κ} {m : Manager κ} {answer : Auth.Reply c} {issued : List κ}
    (executed : g.manager.exec luck c = some (m, answer))
    (record : csrf? c = none ∧ issued = g.issued ∨ ∃ h, csrf? c = some h ∧ h ∉ g.issued ∧ issued = h :: g.issued) :
    StoreChange g ⟨m, issued⟩ := by
  have change := exec_sessions executed
  rcases record with ⟨other, rfl⟩ | ⟨h, stored, fresh, rfl⟩
  · cases change with
    | kept confirmed same =>
      subst same
      exact .kept rfl rfl rfl
    | created key row fault unused same => cases other
    | touched key seenAt row found due same =>
      subst same
      exact .touched key row seenAt found rfl rfl rfl
    | deleted key same =>
      subst same
      exact .deleted key rfl rfl rfl
  · cases change with
    | kept confirmed same =>
      subst same
      exact .failed h rfl rfl rfl
    | created key row fault unused same =>
      subst same
      obtain rfl := Option.some.inj stored
      exact .created key row unused fresh rfl rfl rfl
    | touched key seenAt row found due same => cases stored
    | deleted key same => cases stored

theorem exec_change {c : Call κ} {answer : Reply c} (executed : g.exec luck c = some (after, answer)) :
    StoreChange g after := by
  cases c with
  | auth c =>
    rw [Gate.exec] at executed
    split at executed
    · next other =>
      obtain ⟨⟨m, reply⟩, done, same⟩ := Option.map_eq_some_iff.mp executed
      cases same
      exact auth_change done (Or.inl ⟨other, rfl⟩)
    · next csrfHash stored =>
      split at executed
      · cases executed
      · next fresh =>
        obtain ⟨⟨m, reply⟩, done, same⟩ := Option.map_eq_some_iff.mp executed
        cases same
        exact auth_change done (Or.inr ⟨csrfHash, stored, fresh, rfl⟩)
  | bootstrapOpen =>
    cases executed
    exact .kept rfl rfl rfl
  | rotateSessionCSRF key csrfHash =>
    rw [Gate.exec] at executed
    split at executed
    · cases executed
    · next fresh =>
      split at executed
      · cases executed
        exact .kept rfl rfl rfl
      · cases executed
        exact .kept rfl rfl rfl
      · next row failed found =>
        cases executed
        exact .rotated key csrfHash row found fresh rfl rfl rfl
  | handle endpoint =>
    cases executed
    exact .kept rfl rfl rfl

/-- The record only grows. -/
theorem StoreChange.grows (change : StoreChange g after) :
    (∀ key, g.manager.created.find? key ≠ none → after.manager.created.find? key ≠ none) ∧
      ∀ h ∈ g.issued, h ∈ after.issued := by
  cases change with
  | kept _ created issued | touched _ _ _ _ _ created issued | deleted _ _ created issued =>
    rw [created, issued]
    exact ⟨fun _ => id, fun _ => id⟩
  | failed csrfHash _ created issued | rotated _ csrfHash _ _ _ _ created issued =>
    rw [created, issued]
    exact ⟨fun _ => id, fun _ => List.mem_cons_of_mem _⟩
  | created key row unused fresh sessions recorded issued =>
    rw [recorded, issued]
    refine ⟨fun other found => ?_, fun _ => List.mem_cons_of_mem _⟩
    rw [Table.find?_upsert]
    split
    · simp
    · exact found

/-- A session of the store after a call: one of a key without a record, with a token without a record, or a session
of the store before, with its token or with one without a record. -/
theorem StoreChange.row (change : StoreChange g after) {key : κ} {row : SessionRow κ}
    (found : after.manager.sessions.find? key = some row) :
    row.csrfHash ∈ after.issued ∧ row.csrfHash ∉ g.issued ∧
        (g.manager.created.find? key = none ∧ after.manager.created.find? key ≠ none ∨
          g.manager.sessions.find? key ≠ none) ∨
      ∃ old, g.manager.sessions.find? key = some old ∧ old.csrfHash = row.csrfHash := by
  cases change with
  | kept sessions | failed _ sessions => exact Or.inr ⟨row, by rw [← sessions, found], rfl⟩
  | created created row' unused fresh sessions recorded issued =>
    rw [sessions, Table.find?_upsert] at found
    split at found
    · next same =>
      obtain rfl := Option.some.inj found
      refine Or.inl ⟨by simp [issued], fresh, Or.inl ⟨by rw [same, unused], ?_⟩⟩
      simp [recorded, same]
    · exact Or.inr ⟨row, found, rfl⟩
  | touched touched old seenAt before sessions =>
    rw [sessions, Table.find?_upsert] at found
    split at found
    · next same =>
      obtain rfl := Option.some.inj found
      exact Or.inr ⟨old, by rw [same, before], rfl⟩
    · exact Or.inr ⟨row, found, rfl⟩
  | deleted deleted sessions =>
    rw [sessions, Table.find?_erase] at found
    split at found
    · cases found
    · exact Or.inr ⟨row, found, rfl⟩
  | rotated rotated csrfHash old before fresh sessions _ issued =>
    rw [sessions, Table.find?_upsert] at found
    split at found
    · next same =>
      obtain rfl := Option.some.inj found
      exact Or.inl ⟨by simp [issued], fresh, Or.inr (by simp [same, before])⟩
    · exact Or.inr ⟨row, found, rfl⟩

theorem OnRecord.change (onRecord : OnRecord g) (change : StoreChange g after) : OnRecord after := by
  obtain ⟨created, issued⟩ := change.grows
  intro key row found
  rcases change.row found with ⟨stored, -, ⟨-, recorded⟩ | present⟩ | ⟨old, before, same⟩
  · exact ⟨recorded, stored⟩
  · obtain ⟨old, before⟩ := Option.ne_none_iff_exists'.mp present
    exact ⟨created key (onRecord key old before).1, stored⟩
  · obtain ⟨recorded, known⟩ := onRecord key old before
    exact ⟨created key recorded, issued _ (same ▸ known)⟩

/-- The store has lost the session of the request or, where the endpoint can change something, its token. -/
def Lost (digest : String → κ) (request : HttpRequest) (g : Gate κ) : Prop := ∀ token, request.cookie = some token →
  (g.manager.created.find? (digest token) ≠ none ∧ g.manager.sessions.find? (digest token) = none) ∨
    request.endpoint.changes = true ∧ digest request.csrfToken ∈ g.issued ∧
      ∀ row, g.manager.sessions.find? (digest token) = some row → row.csrfHash ≠ digest request.csrfToken

theorem Lost.change (lost : Lost digest request g) (change : StoreChange g after) : Lost digest request after := by
  obtain ⟨created, issued⟩ := change.grows
  intro token cookie
  rcases lost token cookie with ⟨recorded, gone⟩ | ⟨changes, known, other⟩
  · refine Or.inl ⟨created _ recorded, ?_⟩
    rw [Option.eq_none_iff_forall_ne_some]
    intro row found
    rcases change.row found with ⟨-, -, ⟨unused, -⟩ | present⟩ | ⟨old, before, -⟩
    · exact recorded unused
    · exact present gone
    · rw [gone] at before
      cases before
  · refine Or.inr ⟨changes, issued _ known, fun row found same => ?_⟩
    rcases change.row found with ⟨-, fresh, -⟩ | ⟨old, before, kept⟩
    · exact fresh (same ▸ known)
    · exact other old before (kept.trans same)

omit [DecidableEq κ] in
theorem Lost.not_grants [DecidableEq κ] (lost : Lost digest request g) : ¬Grants digest request g := by
  rintro ⟨token, row, cookie, found, token_held⟩
  rcases lost token cookie with ⟨-, gone⟩ | ⟨changes, -, other⟩
  · rw [gone] at found
    cases found
  · exact other row found (token_held changes)

/-- A grant that was there and is not there any more is lost. -/
theorem lost_of_grants {later : Gate κ} (onRecord : OnRecord g) (grants : Grants digest request g)
    (created : ∀ key, g.manager.created.find? key ≠ none → later.manager.created.find? key ≠ none)
    (issued : ∀ h ∈ g.issued, h ∈ later.issued) (refuses : ¬Grants digest request later) :
    Lost digest request later := by
  obtain ⟨token, row, cookie, found, token_held⟩ := grants
  obtain ⟨recorded, known⟩ := onRecord _ row found
  intro other same
  obtain rfl := Option.some.inj (cookie.symm.trans same)
  cases standing : later.manager.sessions.find? (digest token) with
  | none => exact Or.inl ⟨created _ recorded, rfl⟩
  | some stored =>
    have denied : ¬(request.endpoint.changes = true → stored.csrfHash = digest request.csrfToken) := fun allowed =>
      refuses ⟨token, stored, cookie, standing, allowed⟩
    push Not at denied
    obtain ⟨changes, differs⟩ := denied
    refine Or.inr ⟨changes, issued _ (token_held changes ▸ known), fun row' found' => ?_⟩
    obtain rfl := Option.some.inj found'
    exact differs

end Stores

section Runs

variable {s r t u : Traffic κ} {events more most : List (Happening HttpRequest Luck ℤ)} {thread : Serving κ} {i : ℕ}

theorem step_change {event : Happening HttpRequest Luck ℤ} (stepped : (gateway digest).step s event = some t) :
    StoreChange s.shared t.shared := by
  obtain ⟨request, rfl, rfl⟩ | ⟨i, luck, thread, later, rfl, found, advanced, threads⟩ |
    ⟨change, rfl, changed, threads⟩ := step_cases stepped
  · exact .kept rfl rfl rfl
  · obtain ⟨c, next, answer, -, executed, -⟩ := advance_cases advanced
    exact exec_change executed
  · simp only [gateway] at changed
    obtain ⟨-, same⟩ := Option.ite_none_right_eq_some.mp changed
    rw [← Option.some.inj same]
    exact .kept rfl rfl rfl

theorem run_onRecord (run : Run (Enabled (gateway digest).step) s events t) (onRecord : OnRecord s.shared) :
    OnRecord t.shared :=
  @Run.invariant _ _ _ _ _ _ (fun t => OnRecord t.shared) run onRecord fun _ _ _ before moved =>
    before.change (step_change moved)

theorem run_lost (run : Run (Enabled (gateway digest).step) s events t) (lost : Lost digest request s.shared) :
    Lost digest request t.shared :=
  @Run.invariant _ _ _ _ _ _ (fun t => Lost digest request t.shared) run lost fun _ _ _ before moved =>
    before.change (step_change moved)

theorem run_grows (run : Run (Enabled (gateway digest).step) s events t) :
    (∀ key, s.shared.manager.created.find? key ≠ none → t.shared.manager.created.find? key ≠ none) ∧
      ∀ h ∈ s.shared.issued, h ∈ t.shared.issued := by
  induction run with
  | start => exact ⟨fun _ => id, fun _ => id⟩
  | step _ moved ih =>
    obtain ⟨created, issued⟩ := (step_change moved).grows
    exact ⟨fun key found => created key (ih.1 key found), fun h known => issued h (ih.2 h known)⟩

omit [DecidableEq κ] in
/-- What an answer about a session is: the session was there. -/
theorem lookup_answer [DecidableEq κ] {g after : Gate κ} {luck : Luck} {key : κ} {session : Session κ}
    (executed : (gateway digest).exec g request luck (.auth (.lookupSession key)) = some (after, .ok session)) :
    g.manager.lookup key = .ok session := by
  cases fault : luck.fault with
  | some message => simp [gateway, Gate.exec, csrf?, Manager.exec, fault] at executed
  | none =>
    simp only [gateway, Gate.exec, csrf?, Manager.exec, fault, Option.map_some, Option.some.injEq, Prod.mk.injEq] at executed
    exact executed.2

/-- A state of a run in which the request at a place was in flight. -/
structure During (digest : String → κ) (s : Traffic κ) (events : List (Happening HttpRequest Luck ℤ)) (t : Traffic κ)
    (i : ℕ) (u : Traffic κ) : Prop where
  splits : ∃ earlier later, events = earlier ++ later ∧ Run (Enabled (gateway digest).step) s earlier u ∧
    Run (Enabled (gateway digest).step) u later t
  stands : i < u.threads.length

theorem during_of_made {exchange : Exchange (@Reply κ)} {v : Traffic κ}
    (made : Made (gateway digest) s events t i thread exchange u v) : During digest s events t i u := by
  obtain ⟨earlier, luck, later, rfl, before, called, after, -⟩ := made.run
  obtain ⟨standing, here, -, -⟩ := made.stands
  exact ⟨⟨earlier, .moves i luck :: later, rfl, before, (Run.start.step called).append after⟩,
    (List.getElem?_eq_some_iff.mp here).1⟩

/-- What the manager told a thread held in states of the run in which its request was in flight. -/
theorem learns_made {token : String} {session : Session κ} {now : ℤ} (run : Run (Enabled (gateway digest).step) s events t)
    (found : t.threads[i]? = some thread) (new : s.threads.length ≤ i)
    (learns : Learns digest token session now thread.exchanges) :
    ∃ u v, During digest s events t i u ∧ During digest s events t i v ∧
      u.shared.manager.lookup (digest token) = .ok session ∧ ¬session.isOver v.shared.manager.clock := by
  have none_yet : ∀ (exchange : Exchange (@Reply κ)) old, s.threads[i]? = some old → exchange ∉ old.exchanges := by
    intro exchange old here
    rw [List.getElem?_eq_none new] at here
    cases here
  obtain ⟨u, after, looked⟩ := exchange_made run found learns.looked (none_yet _)
  obtain ⟨v, passed, timed⟩ := exchange_made run found learns.timed (none_yet _)
  refine ⟨u, v, during_of_made looked, during_of_made timed, ?_, ?_⟩
  · obtain ⟨-, luck, -, -, -, -, -, executed⟩ := looked.run
    exact lookup_answer executed
  · obtain ⟨-, luck, -, -, -, -, -, executed⟩ := timed.run
    obtain ⟨-, clock⟩ := Prod.mk.inj (Option.some.inj executed)
    have same : v.shared.manager.clock = now := clock
    rw [same]
    exact learns.alive

theorem reached_of_run (run : Run (Enabled (gateway digest).step) s events t) (initial : s.threads = [])
    (found : t.threads[i]? = some thread) : (serve digest thread.request).Reaches thread.exchanges thread.rest :=
  threads_reach run initial thread (List.mem_of_getElem? found)

/-- A handler begins only if the store granted the request while it was in flight: the session of its cookie
stood there and was not over, and for an endpoint that can change something it came from the page's origin with the
session's token. -/
theorem change_authorized (run : Run (Enabled (gateway digest).step) s events t) (initial : s.threads = [])
    (found : t.threads[i]? = some thread) (handles : Handles thread.exchanges) :
    ∃ token session u v, thread.request.cookie = some token ∧
      During digest s events t i u ∧ u.shared.manager.lookup (digest token) = .ok session ∧
      During digest s events t i v ∧ ¬session.isOver v.shared.manager.clock ∧
      (thread.request.endpoint.changes = true → sameOrigin thread.request = true ∧
        session.csrfHash = digest thread.request.csrfToken) := by
  obtain ⟨token, session, now, cookie, learns, checked⟩ := serve_checked (reached_of_run run initial found) handles
  obtain ⟨u, v, during, timed, looked, alive⟩ := learns_made run found (by simp [initial]) learns
  exact ⟨token, session, u, v, cookie, during, looked, timed, alive, checked⟩

/-- A request that begins when the store has lost its grant is never handled. -/
theorem superseded_refused (first : Run (Enabled (gateway digest).step) s events r) (initial : s.threads = [])
    (onRecord : OnRecord s.shared) (granted : Grants digest thread.request r.shared)
    (second : Run (Enabled (gateway digest).step) r more u) (refuses : ¬Grants digest thread.request u.shared)
    (third : Run (Enabled (gateway digest).step) u most t) (later : u.threads.length ≤ i)
    (found : t.threads[i]? = some thread) : ¬Handles thread.exchanges := by
  intro handles
  have run := (first.append second).append third
  obtain ⟨token, session, now, cookie, learns, checked⟩ := serve_checked (reached_of_run run initial found) handles
  obtain ⟨w, v, during, timed, looked, alive⟩ := learns_made third found later learns
  obtain ⟨created, issued⟩ := run_grows second
  have lost := lost_of_grants (run_onRecord first onRecord) granted created issued refuses
  obtain ⟨⟨earlier, rest, -, before, -⟩, -⟩ := during
  have row := (lookup_ok looked).1
  exact (run_lost before lost).not_grants ⟨token, _, cookie, row, fun changes => (checked changes).2⟩

end Runs

section Replacement

/-- Tokens of 43 characters. -/
private def cookie : String := "AAAAAAAAAAAAAAAAAAAAAAAAAAAAAAAAAAAAAAAAAAA"

private def older : String := "EEEEEEEEEEEEEEEEEEEEEEEEEEEEEEEEEEEEEEEEEEE"

private def newer : String := "IIIIIIIIIIIIIIIIIIIIIIIIIIIIIIIIIIIIIIIIIII"

/-- The SHA-256 digests of the tokens, in hexadecimal. -/
private def sha256 (text : String) : String :=
  if text = cookie then "0f007385b6f9d4b7eeb2748605afe1a984a0a3bfa3f014d09e2a784ce9e5cd1a"
  else if text = older then "59ae66da6ed3bbc4459e26cbdb0cfff96cfb74742b386dae8bdd429dfe7b1f9c"
  else if text = newer then "4fc98cef01dc6df5903258c084662f5e8f7fb22763986c0d46aa130035736351"
  else ""

private def session : SessionRow String := ⟨"user", sha256 older, 0, 0, sessionLifetime⟩

private def opened : Traffic String where
  shared :=
    { manager :=
        { clock := 0
          users := Table.empty.upsert "user" ⟨"ana", "$argon2id$", 0⟩
          sessions := Table.empty.upsert (sha256 cookie) session
          confirmed := Table.empty
          created := Table.empty.upsert (sha256 cookie) 0 }
      issued := [sha256 older] }
  threads := []

private def pageRequest (endpoint : Endpoint) : HttpRequest where
  endpoint := endpoint
  cookie := some cookie
  csrfToken := older
  origin := some ⟨"http", false, "helio.local", "", "", ""⟩
  secure := false
  host := "helio.local"
  remoteAddr := "192.168.0.2"

/-- A request and so many calls of it. -/
private def serving (i : ℕ) (endpoint : Endpoint) (count : ℕ) : List (Happening HttpRequest Luck ℤ) :=
  .begins (pageRequest endpoint) :: List.replicate count (.moves i { random := .ok newer })

/-- The last call of a thread began a handler. -/
private def begun (t : Traffic String) (i : ℕ) : Bool := t.threads[i]?.any fun thread =>
  thread.exchanges.any fun exchange =>
    match exchange.call with
    | .handle _ => true
    | _ => false

private theorem handles_of_begun {t : Traffic String} {i : ℕ} (begins : begun t i = true) :
    ∃ thread, t.threads[i]? = some thread ∧ Handles thread.exchanges := by
  obtain ⟨thread, found, handles⟩ := (Option.any_eq_true _ _).mp begins
  obtain ⟨exchange, member, handled⟩ := List.any_eq_true.mp handles
  refine ⟨thread, found, exchange, member, ?_⟩
  split at handled
  · next endpoint called => exact ⟨endpoint, called⟩
  · cases handled

private theorem opened_onRecord : OnRecord opened.shared := by
  intro key row found
  simp only [opened, Table.find?_upsert, Table.find?_empty] at found
  split at found
  · next same =>
    subst same
    obtain rfl := Option.some.inj found
    exact ⟨by decide +kernel, by decide +kernel⟩
  · cases found

private theorem opened_grants (endpoint : Endpoint) : Grants sha256 (pageRequest endpoint) opened.shared := by
  refine ⟨cookie, session, rfl, ?_, fun _ => rfl⟩
  simp [opened]

/-- The settings are changed with the session's token. -/
theorem settings_authorized : ∃ t thread, Run (Enabled (gateway sha256).step) opened
      (serving 0 (.replace "/settings") 4) t ∧ t.threads[0]? = some thread ∧
    ∃ token session u v, thread.request.cookie = some token ∧
      During sha256 opened (serving 0 (.replace "/settings") 4) t 0 u ∧
      u.shared.manager.lookup (sha256 token) = .ok session ∧
      During sha256 opened (serving 0 (.replace "/settings") 4) t 0 v ∧ ¬session.isOver v.shared.manager.clock ∧
      (thread.request.endpoint.changes = true → sameOrigin thread.request = true ∧
        session.csrfHash = sha256 thread.request.csrfToken) := by
  have possible : ((serving 0 (.replace "/settings") 4).foldlM (gateway sha256).step opened).map (begun · 0) =
      some true := by
    decide +kernel
  obtain ⟨t, reached, begins⟩ := Option.map_eq_some_iff.mp possible
  obtain ⟨thread, found, handles⟩ := handles_of_begun begins
  exact ⟨t, thread, Run.of_foldlM reached, found, change_authorized (Run.of_foldlM reached) rfl found handles⟩

/-- The page reads its session, which replaces the token; a change with the older token is refused. -/
theorem older_token_refused : ∃ u t thread, Run (Enabled (gateway sha256).step) opened (serving 0 .session 6) u ∧
    Run (Enabled (gateway sha256).step) u (serving 1 (.replace "/settings") 3) t ∧ t.threads[1]? = some thread ∧
    ¬Handles thread.exchanges := by
  have possible : ((serving 0 .session 6).foldlM (gateway sha256).step opened).map (fun u =>
      (u.threads.length, u.shared.manager.sessions.find? (sha256 cookie) |>.map SessionRow.csrfHash,
        ((serving 1 (.replace "/settings") 3).foldlM (gateway sha256).step u).map fun t =>
          t.threads.map Thread.request)) =
      some (1, some (sha256 newer), some [pageRequest .session, pageRequest (.replace "/settings")]) := by
    decide +kernel
  obtain ⟨u, reached, standing⟩ := Option.map_eq_some_iff.mp possible
  obtain ⟨count, standing⟩ := Prod.mk.inj standing
  obtain ⟨replaced, standing⟩ := Prod.mk.inj standing
  obtain ⟨t, served, requests⟩ := Option.map_eq_some_iff.mp standing
  have asked : (t.threads.map Thread.request)[1]? = some (pageRequest (.replace "/settings")) := by
    rw [requests]
    rfl
  rw [List.getElem?_map] at asked
  obtain ⟨thread, found, same⟩ := Option.map_eq_some_iff.mp asked
  have granted : Grants sha256 thread.request opened.shared := by
    rw [same]
    exact opened_grants _
  have refuses : ¬Grants sha256 thread.request u.shared := by
    rw [same]
    rintro ⟨token, row, cookie_held, stored, held⟩
    obtain rfl := Option.some.inj cookie_held
    rw [stored] at replaced
    have older_held : row.csrfHash = sha256 older := held (by decide)
    rw [Option.map_some, older_held] at replaced
    exact absurd (Option.some.inj replaced) (by decide +kernel)
  exact ⟨u, t, thread, Run.of_foldlM reached, Run.of_foldlM served, found,
    superseded_refused .start rfl opened_onRecord granted (Run.of_foldlM reached) refuses (Run.of_foldlM served)
      (by omega) found⟩

end Replacement

end Helio.Gateway
