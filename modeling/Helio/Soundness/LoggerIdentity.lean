import Helio.Model.SettingsUpdate
import Helio.Soundness.Confirmations
import Helio.Soundness.SettingsApplication

/-! # Changing the logger

A settings request compares the logger of its document with the stored one before it takes the lock.
If another request changes the logger in between, its own commit may change it back without a
confirmation. Otherwise the logger only changes for a request that consumed a confirmation.
-/

namespace Helio.Api

open Calendar Config

variable {κ : Type} [DecidableEq κ] {env : Application.Environment} {digest : String → κ}

abbrev Requests (κ : Type) := Flight (Server κ) PutRequest (Reply (κ := κ)) Response

abbrev Put (κ : Type) := Thread PutRequest (Reply (κ := κ)) Response

/-- What identifies the logger. -/
def identity (settings : Settings) : String × String × ℤ × ℤ :=
  (settings.loggerHost, settings.loggerSerial, settings.loggerPort, settings.modbusSlave)

theorem loggerConnectionIdentityChanged_iff {current next : Settings} :
    loggerConnectionIdentityChanged current next = true ↔ identity current ≠ identity next := by
  simp only [loggerConnectionIdentityChanged, identity, Bool.or_eq_true, decide_eq_true_eq, ne_eq, Prod.mk.injEq]
  tauto

def storedIdentity (server : Server κ) : Option (String × String × ℤ × ℤ) :=
  server.app.db.settings.map fun envelope => identity envelope.settings

/-- A step changes the stored logger only for a request that consumed a confirmation of its session. -/
def Confirmed (digest : String → κ) (s : Requests κ) (event : Happening PutRequest Luck (World κ)) (t : Requests κ) :
    Prop := storedIdentity s.shared ≠ storedIdentity t.shared → ∃ i luck, event = .moves i luck ∧
  ∃ thread : Put κ, s.threads[i]? = some thread ∧ ∃ cookie, thread.request.cookie = some cookie ∧
    ⟨.consumeRecentConfirmation (digest cookie), true⟩ ∈ thread.exchanges

/-- The request is about to commit without a confirmation, and the logger is not the one it has read. -/
def overtaken (server : Server κ) (thread : Put κ) : Bool :=
  match thread.rest, thread.exchanges with
  | .call (.applySettings _ _) _, [⟨.getSettings, .ok current⟩] => storedIdentity server ≠ some (identity current)
  | _, _ => false

/-- No request that commits without a confirmation has been overtaken by a change of the logger. -/
def NotOvertaken (s : Requests κ) : Happening PutRequest Luck (World κ) → Prop
  | .moves i _ => s.threads[i]?.any (overtaken s.shared) = false
  | _ => True

instance (s : Requests κ) (event : Happening PutRequest Luck (World κ)) : Decidable (NotOvertaken s event) :=
  match event with
  | .moves _ _ => inferInstanceAs (Decidable (_ = _))
  | .begins _ | .world _ => isTrue trivial

/-- The logger of validated settings is a function of the logger of the document. -/
theorem validated_identity {zones : String → Except String Zone} {allowPublicLogger : Bool}
    {left right normalized other : Settings} (first : validateSettings zones left allowPublicLogger = .ok normalized)
    (second : validateSettings zones right allowPublicLogger = .ok other) (same : identity left = identity right) :
    identity normalized = identity other := by
  obtain ⟨address, serial, mppt, accepted, rfl⟩ := (validateSettings_ok zones).mp first
  obtain ⟨address', serial', mppt', accepted', rfl⟩ := (validateSettings_ok zones).mp second
  simp only [identity, Prod.mk.injEq] at same
  obtain ⟨host, number, port, slave⟩ := same
  have sameAddress : address = address' :=
    Except.ok.inj (accepted.address.symm.trans (host ▸ accepted'.address))
  have sameSerial : serial = serial' := Except.ok.inj (accepted.serial.symm.trans (number ▸ accepted'.serial))
  simp only [identity, Settings.normalized, Settings.withDefaults, sameAddress, sameSerial, port, slave]

/-- What is read from the store is validated as it is. -/
theorem getSettings_validated {zones : String → Except String Zone} {stored : Option Envelope}
    {allowPublicLogger : Bool} {current : Settings} (read : Config.getSettings zones stored allowPublicLogger = .ok current) :
    validateSettings zones current allowPublicLogger = .ok current := by
  unfold Config.getSettings at read
  split at read
  · cases read
  split at read
  · cases read
  split at read
  · cases read
  next normalized valid =>
  split at read
  · cases read
  next canonical =>
    cases read
    rw [ne_eq, not_not] at canonical
    rwa [canonical] at valid

omit [DecidableEq κ] in
/-- Applying is the last call of a request. -/
theorem saveSettings_at {request : PutRequest} {trace : List (Exchange (Reply (κ := κ)))} {settings validated : Settings}
    {actorUserID : String} {next : Except String Unit → Effect κ Response}
    (reached : (saveSettings request validated).Reaches trace (.call (.applySettings settings actorUserID) next)) :
    trace = [] ∧ settings = validated := by
  rw [saveSettings] at reached
  split at reached
  · obtain ⟨-, other⟩ := Program.reaches_done.mp reached
    cases other
  · simp only [Program.call_bind, Program.done_bind] at reached
    rcases Program.reaches_call.mp reached with ⟨rfl, here⟩ | ⟨answer, rest, -, later⟩
    · cases here
      exact ⟨rfl, rfl⟩
    · cases answer <;> exact nomatch (Program.reaches_done.mp later).2

omit [DecidableEq κ] in
/-- Where a request stands before it applies its settings. -/
theorem apply_at {request : PutRequest} {trace : List (Exchange (Reply (κ := κ)))} {settings : Settings}
    {actorUserID : String} {next : Except String Unit → Effect κ Response}
    (reached : (putSettings env digest request).Reaches trace (.call (.applySettings settings actorUserID) next)) :
    ∃ current, (trace = [⟨.getSettings, .ok current⟩] ∧ identity current = identity settings) ∨
      ∃ cookie, request.cookie = some cookie ∧ ⟨.consumeRecentConfirmation (digest cookie), true⟩ ∈ trace := by
  rw [putSettings] at reached
  split at reached
  · exact nomatch (Program.reaches_done.mp reached).2
  split at reached
  · exact nomatch (Program.reaches_done.mp reached).2
  next validated valid =>
  simp only [Program.call_bind, Program.done_bind] at reached
  rcases Program.reaches_call.mp reached with ⟨-, other⟩ | ⟨answer, rest, rfl, after⟩
  · cases other
  clear reached
  rcases answer with failure | current
  · exact nomatch (Program.reaches_done.mp after).2
  dsimp only at after
  refine ⟨current, ?_⟩
  split at after
  · split at after
    · exact nomatch (Program.reaches_done.mp after).2
    next cookie here =>
    rcases Program.reaches_call.mp after with ⟨-, other⟩ | ⟨confirmed, rest', rfl, later⟩
    · cases other
    cases confirmed with
    | false => exact nomatch (Program.reaches_done.mp later).2
    | true => exact Or.inr ⟨cookie, here, by simp⟩
  · next unchanged =>
    obtain ⟨rfl, rfl⟩ := saveSettings_at after
    rw [loggerConnectionIdentityChanged_iff, not_not] at unchanged
    exact Or.inl ⟨rfl, unchanged⟩

variable {s t u : Requests κ} {thread later : Put κ} {luck : Luck} {events : List (Happening PutRequest Luck (World κ))}
  {event : Happening PutRequest Luck (World κ)}

/-- The stored logger changes only when settings are applied, and is then the logger of these. -/
theorem advance_identity (advanced : (server env digest).advance s.shared thread luck = some (t.shared, later)) :
    storedIdentity t.shared = storedIdentity s.shared ∨ ∃ settings actorUserID next normalized,
      thread.rest = .call (.applySettings settings actorUserID) next ∧
        validateSettings env.zones settings env.allowPublicLogger = .ok normalized ∧
          storedIdentity t.shared = some (identity normalized) := by
  obtain ⟨c, next, answer, standing, executed, -⟩ := Interleaving.advance_cases advanced
  generalize t.shared = after at *
  change s.shared.exec env luck c = some (after, answer) at executed
  cases c
  case getSettings | consumeRecentConfirmation =>
    cases executed
    exact Or.inl rfl
  case applySettings settings actorUserID =>
    obtain ⟨⟨result, app⟩, applied, same⟩ := Option.map_eq_some_iff.mp executed
    cases same
    have committed : Application.IsConfiguration env settings app.configuration → ∃ normalized,
        validateSettings env.zones settings env.allowPublicLogger = .ok normalized ∧
          storedIdentity { s.shared with app } = some (identity normalized) := fun new => by
      obtain ⟨normalized, valid, stored⟩ := new.stored
      refine ⟨normalized, valid, ?_⟩
      change app.db.settings = _ at stored
      simp [storedIdentity, stored]
    have left : app.configuration.stored = s.shared.app.db.settings →
        storedIdentity { s.shared with app } = storedIdentity s.shared := fun same => by
      change app.db.settings = _ at same
      simp [storedIdentity, same]
    cases Application.applySettings_settles applied with
    | applied new =>
      obtain ⟨normalized, valid, stored⟩ := committed new
      exact Or.inr ⟨settings, actorUserID, next, normalized, standing, valid, stored⟩
    | kept _ same => exact Or.inl (left (congrArg Application.Configuration.stored same))
    | unstopped _ _ _ same => exact Or.inl (left (congrArg Application.Configuration.stored same))
    | unready _ _ new =>
      obtain ⟨normalized, valid, stored⟩ := committed new
      exact Or.inr ⟨settings, actorUserID, next, normalized, standing, valid, stored⟩

/-- Requests only read validated settings. -/
theorem reads_validated (run : Run (Enabled (server env digest).step) s events t) (initial : s.threads = []) :
    ∀ thread ∈ t.threads, ∀ current, ⟨.getSettings, .ok current⟩ ∈ thread.exchanges →
      validateSettings env.zones current env.allowPublicLogger = .ok current := by
  refine Interleaving.threads_keep (fun thread : Put κ => ∀ current, ⟨.getSettings, .ok current⟩ ∈ thread.exchanges →
    validateSettings env.zones current env.allowPublicLogger = .ok current) run.guard_trivially initial ?_ ?_
  · intro s request _ current member
    cases member
  · intro s t i luck thread later _ _ advanced before current member
    obtain ⟨c, next, answer, -, executed, rfl⟩ := Interleaving.advance_cases advanced
    rcases List.mem_append.mp member with old | new
    · exact before current old
    · cases List.mem_singleton.mp new
      have read := congrArg Prod.snd (Option.some.inj executed)
      dsimp only at read
      split at read
      · cases read
      · exact getSettings_validated read

/-- In a run in which no request that commits without a confirmation has been overtaken, the logger only
changes for requests that consumed a confirmation of their session. -/
theorem logger_changes_confirmed (run : Run (Guarded NotOvertaken (Enabled (server env digest).step)) s events t)
    (initial : s.threads = []) (moved : Guarded NotOvertaken (Enabled (server env digest).step) t event u) :
    Confirmed digest t event u := by
  intro changed
  obtain ⟨request, rfl, rfl⟩ | ⟨i, luck, thread, later, rfl, found, advanced, threads⟩ |
    ⟨change, rfl, happened, threads⟩ := Interleaving.step_cases moved.2
  · exact absurd rfl changed
  · rcases advance_identity advanced with same | ⟨settings, actorUserID, next, normalized, standing, valid, stored⟩
    · exact absurd same.symm changed
    have member := List.mem_of_getElem? found
    have reached := Interleaving.threads_reach run.unguard initial thread member
    rw [Interleaving.Reached, standing] at reached
    obtain ⟨current, ⟨exchanges, same⟩ | ⟨cookie, here, consumed⟩⟩ := apply_at reached
    · have current_ := reads_validated run.unguard initial thread member current (by simp [exchanges])
      have timely : storedIdentity t.shared = some (identity current) := by
        have allowed := moved.1
        rw [NotOvertaken, found, Option.any_some, overtaken, standing, exchanges] at allowed
        simpa using allowed
      rw [timely, stored, validated_identity current_ valid same] at changed
      exact absurd rfl changed
    · exact ⟨i, luck, rfl, thread, found, cookie, here, consumed⟩
  · cases change with
    | auth luck call =>
      obtain ⟨effect, -, same⟩ := Option.map_eq_some_iff.mp happened
      rw [← same] at changed
      exact absurd rfl changed
    | clock now =>
      rw [← (Option.some.inj (Option.ite_none_right_eq_some.mp happened).2)] at changed
      exact absurd rfl changed

section Household

private def cookie : String := "AAAAAAAAAAAAAAAAAAAAAAAAAAAAAAAAAAAAAAAAAAA"

private def otherCookie : String := "BBBBBBBBBBBBBBBBBBBBBBBBBBBBBBBBBBBBBBBBBBB"

/-- The SHA-256 digests of the cookies, in hexadecimal. -/
private def cookieDigest (text : String) : String :=
  if text = cookie then "0f007385b6f9d4b7eeb2748605afe1a984a0a3bfa3f014d09e2a784ce9e5cd1a"
  else if text = otherCookie then "412dc46cc9e3cb26f29f7c1415c556349af62904c5d15b0a2d8cfdc5cfa22b34"
  else ""

private def saoPaulo : Application.Environment where
  zones name := if name = "America/Sao_Paulo" then .ok Zone.brasilia else .error "unknown time zone"
  allowPublicLogger := false
  passes := 100

private def loggerAt (loggerHost : String) (panelCount : ℤ) : Settings :=
  ⟨loggerHost, "123", 8899, 1, panelCount, 610, [1], panelCount * 610, .finite (-47 / 2), .finite (-233 / 5),
    "America/Sao_Paulo", "BRL", 95, 730⟩

private def signedIn : Auth.SessionRow String := ⟨"user", "", 0, 0, Auth.sessionLifetime⟩

/-- Of two sessions one has a confirmation that can still be consumed. -/
private def confirmedOnce : Requests String where
  shared :=
    { app :=
        { db :=
            { users := ["user"]
              settings := some ⟨settingsVersion, loggerAt "10.0.0.50" 7⟩
              telemetry := ⟨Zone.brasilia, Table.empty, Table.empty, Table.empty, Table.empty⟩
              dailyAnalysis := []
              alertRuleState := Table.empty
              alerts := Table.empty
              actionAudit := AutoTable.empty }
          finance := Zone.brasilia
          runtime := ⟨true, some (loggerAt "10.0.0.50" 7), loggerAt "10.0.0.50" 7, false, "running", ""⟩
          jobs := true
          stopping := false }
      manager :=
        { clock := 0
          users := Table.empty
          sessions := (Table.empty.upsert (cookieDigest cookie) signedIn).upsert (cookieDigest otherCookie) signedIn
          confirmed := Table.empty.upsert (cookieDigest cookie) Auth.confirmationLifetime
          created := Table.empty } }
  threads := []

/-- A request of the confirmed session that moves to another logger, up to its commit. -/
private def repointing (thread : ℕ) : List (Happening PutRequest Luck (World String)) :=
  [.begins ⟨.ok (loggerAt "10.0.0.60" 7), some cookie, some "user"⟩, .moves thread {}, .moves thread {}]

/-- A request of the other session that keeps the logger has compared it, and the logger changes before
it commits. -/
private def overtakenFirst : List (Happening PutRequest Luck (World String)) :=
  [.begins ⟨.ok (loggerAt "10.0.0.50" 8), some otherCookie, some "user"⟩, .moves 0 {}] ++ repointing 1 ++ [.moves 1 {}]

theorem repointing_confirmed : ∃ s t, Confirmed cookieDigest s (.moves 0 {}) t ∧
    storedIdentity s.shared ≠ storedIdentity t.shared := by
  have possible : ((repointing 0).foldlM (fun s event =>
      if NotOvertaken s event then (server saoPaulo cookieDigest).step s event else none) confirmedOnce).bind (fun s =>
        ((server saoPaulo cookieDigest).step s (.moves 0 {})).map fun t =>
          decide (NotOvertaken s (.moves 0 {}) ∧ storedIdentity s.shared ≠ storedIdentity t.shared)) = some true := by
    decide +kernel
  obtain ⟨s, reached, rest⟩ := Option.bind_eq_some_iff.mp possible
  obtain ⟨t, moved, shown⟩ := Option.map_eq_some_iff.mp rest
  obtain ⟨allowed, changed⟩ := of_decide_eq_true shown
  exact ⟨s, t, logger_changes_confirmed (Run.of_guarded_foldlM reached) rfl ⟨allowed, moved⟩, changed⟩

private def isConsumption : Exchange (Reply (κ := String)) → Bool
  | ⟨.consumeRecentConfirmation _, _⟩ => true
  | _ => false

/-- The logger is changed back by a request that consumed nothing. -/
theorem changed_back_unconfirmed : ∃ s t, Run (Enabled (server saoPaulo cookieDigest).step) confirmedOnce overtakenFirst s ∧
    (server saoPaulo cookieDigest).step s (.moves 0 {}) = some t ∧ ¬Confirmed cookieDigest s (.moves 0 {}) t := by
  have possible : (overtakenFirst.foldlM (server saoPaulo cookieDigest).step confirmedOnce).bind (fun s =>
      ((server saoPaulo cookieDigest).step s (.moves 0 {})).map fun t =>
        decide (storedIdentity s.shared ≠ storedIdentity t.shared) &&
          s.threads[0]?.all fun thread => !thread.exchanges.any isConsumption) = some true := by
    decide +kernel
  obtain ⟨s, reached, rest⟩ := Option.bind_eq_some_iff.mp possible
  obtain ⟨t, moved, shown⟩ := Option.map_eq_some_iff.mp rest
  obtain ⟨changed, unconfirmed⟩ := Bool.and_eq_true_iff.mp shown
  refine ⟨s, t, Run.of_foldlM reached, moved, fun confirmed => ?_⟩
  obtain ⟨i, luck, same, thread, found, cookie, -, consumed⟩ := confirmed (of_decide_eq_true changed)
  cases same
  rw [found, Option.all_some, Bool.not_eq_true', List.any_eq_false] at unconfirmed
  exact unconfirmed _ consumed rfl

end Household

end Helio.Api
