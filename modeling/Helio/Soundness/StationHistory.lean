import Helio.Machine.Rights
import Helio.Model.SolarmanCloud

/-! # Whose history is read

Every query to the cloud is justified by what came before it: a token is asked for with credentials that were
saved, and a history is asked for of the only station that the cloud has listed for the credentials of the token.
What a handler has learnt stays true, since the record of queries only grows; so the handlers may overlap, and a
test may even store credentials that were replaced during it.
-/

namespace Helio.SolarmanCloud

open Calendar
open History (Frame)

section Facts

/-- Credentials that a save has admitted. -/
def Valid (credentials : Credentials) : Prop :=
  ∃ body, credentials = (normalizeSolarmanCredentials body).toCredentials ∧ validateSolarmanCredentials credentials = none

/-- The cloud has given the token for the credentials. -/
def Granted (log : List Sent) (credentials : Credentials) (token : String) : Prop :=
  ∃ reply, ⟨.token credentials, reply⟩ ∈ log ∧ readToken reply = .ok token

/-- The cloud has listed the station as the only one for the credentials. -/
def Listed (log : List Sent) (credentials : Credentials) (stationID : ℤ) : Prop :=
  ∃ token reply name, Granted log credentials token ∧ ⟨.stations token, reply⟩ ∈ log ∧
    readStations reply = .ok [⟨stationID, name⟩]

/-- What comes before a query. -/
def Justified (earlier : List Sent) : Query → Prop
  | .token credentials => Valid credentials
  | .stations token => ∃ credentials, Valid credentials ∧ Granted earlier credentials token
  | .history token stationID _ => 0 < stationID ∧
      ∃ credentials, Valid credentials ∧ Granted earlier credentials token ∧ Listed earlier credentials stationID

/-- The frame is from an answer about a history. -/
def Told (log : List Sent) (frame : Frame) : Prop :=
  ∃ token stationID day reply frames, ⟨.history token stationID day, reply⟩ ∈ log ∧ readHistory reply = .ok frames ∧
    frame ∈ frames

def Backed (log : List Sent) (saved : SavedCredentials) : Prop :=
  Valid saved.toCredentials ∧ (saved.stationID ≠ 0 → Listed log saved.toCredentials saved.stationID)

structure Sound (s : Cloud) : Prop where
  stored : ∀ saved, s.stored = some saved → Backed s.log saved
  log : ∀ later sent earlier, s.log = later ++ sent :: earlier → Justified earlier sent.query
  minutes : ∀ frame ∈ s.minutes, Told s.log frame

/-- Once true of a record, true of every longer one. -/
def Lasting (known : List Sent → Prop) : Prop := ∀ {log more}, log <:+ more → known log → known more

variable {credentials : Credentials} {token : String} {stationID : ℤ} {frame : Frame} {saved : SavedCredentials}

theorem lasting_true : Lasting fun _ => True := fun _ _ => trivial

theorem Lasting.and {known other : List Sent → Prop} (left : Lasting known) (right : Lasting other) :
    Lasting fun log => known log ∧ other log := fun grows both => ⟨left grows both.1, right grows both.2⟩

theorem lasting_granted : Lasting fun log => Granted log credentials token := by
  rintro log more grows ⟨reply, member, read⟩
  exact ⟨reply, grows.mem member, read⟩

theorem lasting_listed : Lasting fun log => Listed log credentials stationID := by
  rintro log more grows ⟨token, reply, name, granted, member, read⟩
  exact ⟨token, reply, name, lasting_granted grows granted, grows.mem member, read⟩

theorem lasting_told : Lasting fun log => Told log frame := by
  rintro log more grows ⟨token, stationID, day, reply, frames, member, read, among⟩
  exact ⟨token, stationID, day, reply, frames, grows.mem member, read, among⟩

theorem lasting_allTold {frames : List Frame} : Lasting fun log => ∀ frame ∈ frames, Told log frame :=
  fun grows told frame member => lasting_told grows (told frame member)

theorem lasting_backed : Lasting fun log => Backed log saved :=
  fun grows backed => ⟨backed.1, fun chosen => lasting_listed grows (backed.2 chosen)⟩

end Facts

section Rules

variable {host : Zone} {α β : Type} {known : List Sent → Prop} {ends : α → List Sent → Prop} {s : Cloud}

/-- The record grows, and the state stays sound. -/
abbrev record : Rights Cloud PEmpty Call := .bare (fun s t => s.log <:+ t.log) Sound

theorem lawful (host : Zone) : record.Lawful (cloud host) :=
  Rights.bare_lawful (fun s => List.suffix_refl s.log) (fun first second => first.trans second) fun sound changed => by
    obtain ⟨-, same⟩ := Option.ite_none_right_eq_some.mp changed
    cases same
    exact ⟨⟨sound.stored, sound.log, sound.minutes⟩, List.suffix_refl _⟩

/-- Whatever the other requests do, the program keeps the state sound, and its value is as it should be. -/
def Does (host : Zone) (program : Effect α) (ends : α → List Sent → Prop) (log : List Sent) : Prop :=
  ∀ (request : Request) (s : Cloud), s.log = log →
    record.Upholds (cloud host).exec request (fun _ value t => ends value t.log) ∅ program s

theorem Does.bind {program : Effect α} {rest : α → Effect β} {final : β → List Sent → Prop} {log : List Sent}
    (first : Does host program ends log) (later : ∀ value more, ends value more → Does host (rest value) final more) :
    Does host (program >>= rest) final log := fun request s same =>
  Rights.Upholds.bind (lawful host) ((first request s same).weaken fun owned value t ended => by
    rw [Subsingleton.elim owned ∅]
    exact later value t.log ended request t rfl)

theorem Does.keep {program : Effect α} {log : List Sent} (does : Does host program ends log) (lasting : Lasting known)
    (here : known log) : Does host program (fun value log => ends value log ∧ known log) log := fun request s same =>
  (does request s same).keep (fun grows knows => lasting grows knows) (same ▸ here)

theorem does_done {value : α} {log : List Sent} (lasting : Lasting known) (here : known log)
    (implied : ∀ more, known more → ends value more) : Does host (.done value) ends log := fun _ _ same =>
  Rights.Upholds.bare_done fun t _ grows => implied t.log (lasting grows (same ▸ here))

/-- The rule of a call, from what is known before it. -/
theorem does_call {c : Call} {next : Reply c → Effect α} {log : List Sent} (lasting : Lasting known) (here : known log)
    (steps : ∀ t luck u answer, known t.log → Sound t → t.exec luck c = some (u, answer) →
      Sound u ∧ t.log <:+ u.log ∧ Does host (next answer) ends u.log) :
    Does host (.call c next) ends log := fun _ _ same =>
  Rights.Upholds.bare_call fun t luck u answer grows sound executed => by
    obtain ⟨after, grown, rest⟩ := steps t luck u answer (lasting grows (same ▸ here)) sound executed
    exact ⟨after, grown, rest _ u rfl⟩

/-- The calls that neither write to the store nor go to the cloud. -/
def Call.isQuiet : Call → Bool
  | .putCredentials _ | .send _ | .saveMinute _ => false
  | _ => true

theorem exec_quiet {t u : Cloud} {luck : Luck} {c : Call} {answer : Reply c} (quiet : c.isQuiet = true)
    (executed : t.exec luck c = some (u, answer)) : u.stored = t.stored ∧ u.log = t.log ∧ u.minutes = t.minutes := by
  cases c with
  | putCredentials | send | saveMinute => cases quiet
  | getCredentials | now | billingLocation | takeTurn | rebuildSummaries =>
    cases executed
    exact ⟨rfl, rfl, rfl⟩
  | sleepUntil turn =>
    simp only [Cloud.exec] at executed
    split at executed
    · cases executed
      exact ⟨rfl, rfl, rfl⟩
    · obtain ⟨-, same⟩ := Option.ite_none_right_eq_some.mp executed
      cases same
      exact ⟨rfl, rfl, rfl⟩

theorem Sound.same {t u : Cloud} (sound : Sound t)
    (same : u.stored = t.stored ∧ u.log = t.log ∧ u.minutes = t.minutes) : Sound u where
  stored := by
    rw [same.1, same.2.1]
    exact sound.stored
  log := by
    rw [same.2.1]
    exact sound.log
  minutes := by
    rw [same.2.1, same.2.2]
    exact sound.minutes

theorem does_quiet {c : Call} {next : Reply c → Effect α} {log : List Sent} (quiet : c.isQuiet = true)
    (lasting : Lasting known) (here : known log)
    (steps : ∀ answer more, known more → Does host (next answer) ends more) :
    Does host (.call c next) ends log := by
  refine does_call lasting here fun t luck u answer knows sound executed => ?_
  have same := exec_quiet quiet executed
  rw [same.2.1]
  exact ⟨sound.same same, List.suffix_refl _, steps answer t.log knows⟩

theorem does_get {next : Reply .getCredentials → Effect α} {log : List Sent}
    (steps : ∀ answer more, (∀ saved, answer = .ok (some saved) → Backed more saved) → Does host (next answer) ends more) :
    Does host (.call .getCredentials next) ends log := by
  refine does_call lasting_true trivial fun t luck u answer _ sound executed => ?_
  cases executed
  refine ⟨sound, List.suffix_refl _, steps _ _ fun saved told => sound.stored saved ?_⟩
  split at told
  · cases told
  · exact Except.ok.inj told

theorem does_put {value : SavedCredentials} {next : Reply (.putCredentials value) → Effect α} {log : List Sent}
    (lasting : Lasting known) (here : known log) (backed : ∀ more, known more → Backed more value)
    (steps : ∀ answer more, known more → Does host (next answer) ends more) :
    Does host (.call (.putCredentials value) next) ends log := by
  refine does_call lasting here fun t luck u answer knows sound executed => ?_
  simp only [Cloud.exec] at executed
  split at executed
  · cases executed
    exact ⟨sound, List.suffix_refl _, steps _ _ knows⟩
  · cases executed
    refine ⟨⟨?_, sound.log, sound.minutes⟩, List.suffix_refl _, steps _ _ knows⟩
    intro saved same
    cases same
    exact backed t.log knows

theorem does_send {query : Query} {ends : query.Reply → List Sent → Prop} {log : List Sent} (lasting : Lasting known)
    (here : known log) (justified : ∀ more, known more → Justified more query)
    (ended : ∀ reply more, known more → ⟨query, reply⟩ ∈ more → ends reply more) : Does host (send query) ends log := by
  refine does_call lasting here fun t luck u answer knows sound executed => ?_
  cases executed
  have grows : t.log <:+ ⟨query, luck.reply query⟩ :: t.log := List.suffix_cons _ _
  refine ⟨⟨fun saved same => lasting_backed grows (sound.stored saved same), ?_, fun frame member =>
    lasting_told grows (sound.minutes frame member)⟩, grows, ?_⟩
  · intro later sent earlier same
    cases later with
    | nil =>
      obtain ⟨rfl, rfl⟩ := List.cons.inj same
      exact justified t.log knows
    | cons first rest => exact sound.log rest sent earlier (List.cons.inj same).2
  · have member : (⟨query, luck.reply query⟩ : Sent) ∈ ⟨query, luck.reply query⟩ :: t.log := List.mem_cons_self
    have both : Lasting fun more => known more ∧ ⟨query, luck.reply query⟩ ∈ more := lasting.and fun grows => grows.mem
    refine does_done both ⟨lasting grows knows, member⟩ ?_
    rintro more ⟨knows, member⟩
    exact ended _ more knows member

theorem does_saveMinute {frame : Frame} {next : Reply (.saveMinute frame) → Effect α} {log : List Sent}
    (lasting : Lasting known) (here : known log) (told : ∀ more, known more → Told more frame)
    (steps : ∀ answer more, known more → Does host (next answer) ends more) :
    Does host (.call (.saveMinute frame) next) ends log := by
  refine does_call lasting here fun t luck u answer knows sound executed => ?_
  simp only [Cloud.exec] at executed
  split at executed
  · cases executed
    exact ⟨sound, List.suffix_refl _, steps _ _ knows⟩
  · cases executed
    refine ⟨⟨sound.stored, sound.log, ?_⟩, List.suffix_refl _, steps _ _ knows⟩
    intro other member
    rcases List.mem_cons.mp member with rfl | old
    · exact told t.log knows
    · exact sound.minutes other old

end Rules

section Client

variable {host : Zone} {log : List Sent} {credentials : Credentials} {known : List Sent → Prop} {α ε : Type}

/-- What holds of a value when there is one. -/
def IfOk (holds : α → List Sent → Prop) (result : Except ε α) (log : List Sent) : Prop :=
  ∀ value, result = .ok value → holds value log

theorem does_error {holds : α → List Sent → Prop} (error : ε) :
    Does host (.done (.error error)) (IfOk holds) log := by
  refine does_done lasting_true trivial fun more _ value same => ?_
  cases same

theorem does_ok {holds : α → List Sent → Prop} {value : α} (lasting : Lasting (holds value)) (here : holds value log) :
    Does host (.done (.ok value : Except ε α)) (IfOk holds) log := by
  refine does_done lasting here fun more holds other same => ?_
  cases same
  exact holds

theorem does_waitTurn (lasting : Lasting known) (here : known log) : Does host waitTurn (fun _ => known) log := by
  apply does_quiet rfl lasting here
  intro turn more knows
  apply does_quiet rfl lasting knows
  intro answer last stays
  exact does_done lasting stays fun _ final => final

theorem does_requestToken (valid : Valid credentials) :
    Does host (requestToken credentials) (IfOk fun token log => Granted log credentials token) log := by
  unfold requestToken
  split
  · exact does_error _
  · refine (does_waitTurn lasting_true trivial).bind fun result more _ => ?_
    cases result with
    | some message => exact does_error message
    | none =>
      have sends : Does host (send (.token credentials)) (fun reply log => ⟨.token credentials, reply⟩ ∈ log) more :=
        does_send lasting_true trivial (fun _ _ => valid) fun _ _ _ member => member
      refine sends.bind fun reply last member => ?_
      have lasting : Lasting fun log => ⟨.token credentials, reply⟩ ∈ log := fun grows => grows.mem
      refine does_done lasting member ?_
      intro final member token read
      exact ⟨reply, member, read⟩

theorem does_testClient (valid : Valid credentials) :
    Does host (testClient credentials)
      (IfOk fun stations log => ∀ station, stations = [station] → Listed log credentials station.id) log := by
  refine (does_requestToken valid).bind fun result more granted => ?_
  cases result with
  | error message => exact does_error message
  | ok token =>
    refine (does_waitTurn lasting_granted (granted token rfl)).bind fun result later granted => ?_
    cases result with
    | some message => exact does_error message
    | none =>
      have sends : Does host (send (.stations token))
          (fun reply log => Granted log credentials token ∧ ⟨.stations token, reply⟩ ∈ log) later :=
        does_send lasting_granted granted (fun _ knows => ⟨credentials, valid, knows⟩) fun _ _ knows member =>
          ⟨knows, member⟩
      refine sends.bind fun reply last told => ?_
      refine does_done (lasting_granted.and fun grows => grows.mem) told ?_
      rintro final ⟨granted, member⟩ stations read station rfl
      exact ⟨token, reply, station.name, granted, member, read⟩

/-- What is known before a history is asked for. -/
def Chosen (credentials : Credentials) (token : String) (stationID : ℤ) (log : List Sent) : Prop :=
  Granted log credentials token ∧ Listed log credentials stationID

theorem lasting_chosen {token : String} {stationID : ℤ} : Lasting (Chosen credentials token stationID) :=
  lasting_granted.and lasting_listed

abbrev AllTold (frames : List Frame) (log : List Sent) : Prop := ∀ frame ∈ frames, Told log frame

theorem does_fetchDays {zone : Zone} {token : String} {stationID stop day : ℤ} {rounds : ℕ} {frames : List Frame}
    (valid : Valid credentials) (positive : 0 < stationID) (chosen : Chosen credentials token stationID log)
    (told : AllTold frames log) :
    Does host (fetchDays zone token stationID stop rounds day frames) (IfOk AllTold) log := by
  induction rounds generalizing day frames log with
  | zero => exact does_ok lasting_allTold told
  | succ rounds ih =>
    unfold fetchDays
    split
    · exact does_ok lasting_allTold told
    · have lasting : Lasting fun log => Chosen credentials token stationID log ∧ AllTold frames log :=
        lasting_chosen.and lasting_allTold
      refine (does_waitTurn lasting ⟨chosen, told⟩).bind fun result more knows => ?_
      cases result with
      | some message => exact does_error message
      | none =>
        have sends : Does host (send (.history token stationID (zone.date day)))
            (fun reply log => (Chosen credentials token stationID log ∧ AllTold frames log) ∧
              ⟨.history token stationID (zone.date day), reply⟩ ∈ log) more :=
          does_send lasting knows (fun _ knows => ⟨positive, credentials, valid, knows.1.1, knows.1.2⟩)
            fun _ _ knows member => ⟨knows, member⟩
        refine sends.bind fun reply last told => ?_
        obtain ⟨⟨chosen, old⟩, member⟩ := told
        split
        · exact does_error _
        · next new read =>
          apply ih chosen
          intro frame among
          rcases List.mem_append.mp among with past | fresh
          · exact old frame past
          · exact ⟨token, stationID, zone.date day, reply, new, member, read, fresh⟩

theorem does_fetchFrames {zone : Zone} {stationID start stop : ℤ} (valid : Valid credentials)
    (listed : Listed log credentials stationID) :
    Does host (fetchFrames zone credentials stationID start stop) (IfOk AllTold) log := by
  unfold fetchFrames
  split
  · exact does_error _
  · next positive =>
    split
    · exact does_error _
    · split
      · exact does_error _
      · refine ((does_requestToken valid).keep lasting_listed listed).bind fun result more knows => ?_
        obtain ⟨granted, listed⟩ := knows
        cases result with
        | error message => exact does_error message
        | ok token =>
          apply does_fetchDays valid (by omega) ⟨granted token rfl, listed⟩
          intro frame member
          cases member

end Client

section Handlers

variable {host : Zone} {log : List Sent} {saved : SavedCredentials} {known : List Sent → Prop}

/-- A handler keeps the state sound, whatever it answers. -/
abbrev Serves {α : Type} (host : Zone) (program : Effect α) (log : List Sent) : Prop :=
  Does host program (fun _ _ => True) log

theorem serves_done {α : Type} (value : α) : Serves host (.done value) log :=
  does_done lasting_true trivial fun _ _ => trivial

theorem serves_save (body : Credentials) : Serves host (putSolarmanCredentials body) log := by
  unfold putSolarmanCredentials
  dsimp only
  split
  · exact serves_done _
  · next valid =>
    refine does_put lasting_true trivial (fun more _ => ⟨⟨body, rfl, valid⟩, fun chosen => absurd rfl chosen⟩) ?_
    intro answer more _
    cases answer <;> exact serves_done _

theorem serves_test : Serves host testSolarman log := by
  apply does_get
  intro answer more known
  rcases answer with message | _ | saved
  · exact serves_done _
  · exact serves_done _
  · obtain ⟨valid, -⟩ := known saved rfl
    refine (does_testClient valid).bind fun result later listed => ?_
    rcases result with message | _ | ⟨station, _ | ⟨other, rest⟩⟩
    · exact serves_done _
    · exact serves_done _
    · refine does_put lasting_listed (listed _ rfl station rfl) (fun last listed => ⟨valid, fun _ => listed⟩) ?_
      intro answer last _
      exact serves_done _
    · exact serves_done _

theorem serves_saveMinutes {frames : List Frame} (told : AllTold frames log) : Serves host (saveMinutes frames) log := by
  induction frames generalizing log with
  | nil => exact serves_done _
  | cons frame rest ih =>
    refine does_saveMinute lasting_allTold told (fun more told => told frame List.mem_cons_self) ?_
    intro answer more told
    cases answer with
    | some message => exact serves_done _
    | none => exact ih fun other member => told other (List.mem_cons_of_mem _ member)

theorem serves_recoverStation {zone : Zone} {start now : ℤ} (backed : Backed log saved) (chosen : saved.stationID ≠ 0) :
    Serves host (recoverStation zone saved start now) log := by
  refine (does_fetchFrames backed.1 (backed.2 chosen)).bind fun result more told => ?_
  cases result with
  | error message => exact serves_done _
  | ok frames =>
    refine (serves_saveMinutes (told frames rfl)).bind fun failure later _ => ?_
    cases failure with
    | some message => exact serves_done _
    | none =>
      dsimp only
      split
      · exact serves_done _
      · apply does_quiet rfl lasting_true trivial
        intro answer last _
        cases answer <;> exact serves_done _

theorem serves_recover (days : ℤ) : Serves host (recoverSolarman host days) log := by
  apply does_get
  intro answer more known
  rcases answer with message | _ | saved
  · exact serves_done _
  · exact serves_done _
  · dsimp only
    split
    · exact serves_done _
    · next chosen =>
      apply does_quiet rfl lasting_backed (known saved rfl)
      intro location later backed
      apply does_quiet rfl lasting_backed backed
      intro now last backed
      exact serves_recoverStation backed chosen

theorem serves_body (request : Request) : Serves host (request.body host) log := by
  cases request with
  | save body => exact serves_save body
  | test => exact serves_test
  | sync days =>
    simp only [Request.body, syncSolarman]
    split
    · exact serves_done _
    · refine (serves_recover _).bind fun result more _ => ?_
      rcases result with (_ | message) | ⟨stored, frames⟩ <;> exact serves_done _
  | recovery => exact (serves_recover _).bind fun result more _ => serves_done _

end Handlers

/-- However requests overlap and fail: every token is asked for with credentials that were saved, every history is
of a station that the cloud has listed as the only one for the credentials of its token, and every minute that was
saved is from such a history. -/
theorem stations_match {host : Zone} {s t : Flight Cloud Request Reply Answer} {events : List (Happening Request Luck ℤ)}
    (run : Run (Enabled (cloud host).step) s events t) (fresh : s.threads = []) (sound : Sound s.shared) :
    Sound t.shared := by
  have kept : record.Kept (cloud host) (fun _ _ _ _ => True) t := by
    refine Rights.run_kept (lawful host) run.guard_trivially (Rights.bare_kept sound fresh) ?_
    intro s request _ _
    exact serves_body request request s.shared rfl
  exact kept.1

private def ana : Credentials := ⟨"2024", "6dd3", " ana@example.com ", "garden gate"⟩

private def answers : (query : Query) → query.Reply
  | .token _ => .ok { body := some { success := true, accessToken := "bearer" } }
  | .stations _ => .ok { body := some { success := true, stationList := [⟨1234, 0, "Casa"⟩] } }
  | .history _ _ _ => .ok { body := some { success := true, items := [⟨3, 1500⟩] } }

private def empty : Flight Cloud Request Reply Answer := ⟨{ clock := 0, stored := none, next := 0 }, []⟩

/-- Credentials are saved and tested, and the station's history is read. -/
private def morning : List (Happening Request Luck ℤ) :=
  [.begins (.save ana), .moves 0 {}, .begins .test, .world (2 * second)] ++
    List.replicate 5 (.moves 1 { reply := answers }) ++ [.world (4 * second)] ++
    List.replicate 3 (.moves 1 { reply := answers }) ++ [.begins (.sync 1), .world (6 * second)] ++
    List.replicate 7 (.moves 2 { reply := answers }) ++ [.world (8 * second)] ++
    List.replicate 4 (.moves 2 { reply := answers })

theorem morning_matches : ∃ t, Run (Enabled (cloud .utc).step) empty morning t ∧ t.shared.minutes.length = 1 ∧
    Sound t.shared := by
  have possible : (morning.foldlM (cloud .utc).step empty).map (fun t => t.shared.minutes.length) = some 1 := by
    decide +kernel
  obtain ⟨t, reached, saved⟩ := Option.map_eq_some_iff.mp possible
  refine ⟨t, Run.of_foldlM reached, saved, stations_match (Run.of_foldlM reached) rfl ⟨?_, ?_, ?_⟩⟩
  · intro saved stored
    cases stored
  · intro later sent earlier same
    exact absurd same.symm (List.append_ne_nil_of_right_ne_nil _ (List.cons_ne_nil _ _))
  · intro frame member
    cases member

end Helio.SolarmanCloud
