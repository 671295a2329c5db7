import Helio.Machine.Typestates
import Helio.Model.SolarmanCloud

/-! # How often the cloud is asked

A request to the cloud uses up one turn, which has come. No two turns are closer than the interval, whoever they
were given to and whether they were used. So the number of requests since the start of a process is bounded by the
time that has passed, however many handlers ask at once.
-/

namespace Helio.SolarmanCloud

open Calendar

section Programs

/-- What a thread has of a turn. -/
inductive Turn where
  | idle
  | waiting (turn : ℤ)
  | ready (turn : ℤ)
deriving DecidableEq

def Turn.slept (turn : ℤ) : Option String → Turn
  | none => .ready turn
  | some _ => .idle

/-- A turn is taken, waited for and used for one request. -/
def pacing : Turn → (c : Call) → Option (Reply c → Turn)
  | .idle, .takeTurn => some fun turn => .waiting turn
  | .waiting turn, .sleepUntil asked => if asked = turn then some (.slept turn) else none
  | .ready _, .send _ => some fun _ => .idle
  | .idle, .getCredentials | .idle, .putCredentials _ | .idle, .now | .idle, .billingLocation | .idle, .saveMinute _
  | .idle, .rebuildSummaries _ _ => some fun _ => .idle
  | _, _ => none

/-- The program keeps to its turns, and holds none at the end. -/
abbrev Paced {α : Type} (p : Effect α) : Prop := p.Obeys pacing (· = .idle) .idle

variable {host zone : Zone} {α β : Type}

theorem Paced.bind {p : Effect α} {rest : α → Effect β} (first : Paced p) (later : ∀ value, Paced (rest value)) :
    Paced (p >>= rest) :=
  Program.Obeys.bind first fun value q here => by
    rw [here]
    exact later value

theorem paced_done (value : α) : Paced (.done value : Effect α) := rfl

/-- A call that has nothing to do with turns. -/
theorem paced_call {c : Call} {next : Reply c → Effect α} (allowed : pacing .idle c = some fun _ => .idle)
    (later : ∀ answer, Paced (next answer)) : Paced (.call c next) := ⟨_, allowed, later⟩

/-- A wait, and the request that it is for. -/
theorem paced_turn {query : Query} {next : Option String → Effect α} {rest : query.Reply → Effect α}
    (refuses : ∀ message, Paced (next (some message))) (sends : next none = send query >>= rest)
    (later : ∀ reply, Paced (rest reply)) : Paced (waitTurn >>= next) := by
  refine ⟨_, rfl, fun turn => ⟨_, if_pos rfl, fun result => ?_⟩⟩
  cases result with
  | some message => exact refuses message
  | none =>
    have goes : (next none).Obeys pacing (· = .idle) (.ready turn) := by
      rw [sends]
      exact ⟨_, rfl, later⟩
    exact goes

theorem paced_requestToken (credentials : Credentials) : Paced (requestToken credentials) := by
  unfold requestToken
  split
  · exact paced_done _
  · exact paced_turn (fun _ => paced_done _) rfl fun _ => paced_done _

theorem paced_testClient (credentials : Credentials) : Paced (testClient credentials) := by
  refine (paced_requestToken credentials).bind fun result => ?_
  cases result with
  | error message => exact paced_done _
  | ok token => exact paced_turn (fun _ => paced_done _) rfl fun _ => paced_done _

theorem paced_fetchDays (token : String) (stationID stop day : ℤ) (rounds : ℕ) (frames : List History.Frame) :
    Paced (fetchDays zone token stationID stop rounds day frames) := by
  induction rounds generalizing day frames with
  | zero => exact paced_done _
  | succ rounds ih =>
    unfold fetchDays
    split
    · exact paced_done _
    · refine paced_turn (fun _ => paced_done _) rfl fun reply => ?_
      split
      · exact paced_done _
      · exact ih _ _

theorem paced_fetchFrames (credentials : Credentials) (stationID start stop : ℤ) :
    Paced (fetchFrames zone credentials stationID start stop) := by
  unfold fetchFrames
  split
  · exact paced_done _
  · split
    · exact paced_done _
    · split
      · exact paced_done _
      · refine (paced_requestToken credentials).bind fun result => ?_
        cases result with
        | error message => exact paced_done _
        | ok token => exact paced_fetchDays _ _ _ _ _ _

theorem paced_saveMinutes (frames : List History.Frame) : Paced (saveMinutes frames) := by
  induction frames with
  | nil => exact paced_done _
  | cons frame rest ih =>
    refine paced_call rfl fun answer => ?_
    cases answer with
    | some message => exact paced_done _
    | none => exact ih

theorem paced_recoverStation (saved : SavedCredentials) (start now : ℤ) :
    Paced (recoverStation zone saved start now) := by
  refine (paced_fetchFrames _ _ _ _).bind fun result => ?_
  cases result with
  | error message => exact paced_done _
  | ok frames =>
    refine (paced_saveMinutes frames).bind fun failure => ?_
    cases failure with
    | some message => exact paced_done _
    | none =>
      dsimp only
      split
      · exact paced_done _
      · refine paced_call rfl fun answer => ?_
        cases answer <;> exact paced_done _

theorem paced_recover (days : ℤ) : Paced (recoverSolarman host days) := by
  refine paced_call rfl fun answer => ?_
  rcases answer with message | _ | saved
  · exact paced_done _
  · exact paced_done _
  · dsimp only
    split
    · exact paced_done _
    · refine paced_call rfl fun location => ?_
      exact paced_call rfl fun now => paced_recoverStation _ _ _

theorem paced_save (body : Credentials) : Paced (putSolarmanCredentials body) := by
  unfold putSolarmanCredentials
  dsimp only
  split
  · exact paced_done _
  · refine paced_call rfl fun answer => ?_
    cases answer <;> exact paced_done _

theorem paced_test : Paced testSolarman := by
  refine paced_call rfl fun answer => ?_
  rcases answer with message | _ | saved
  · exact paced_done _
  · exact paced_done _
  · refine (paced_testClient _).bind fun result => ?_
    rcases result with message | _ | ⟨station, _ | ⟨other, rest⟩⟩
    · exact paced_done _
    · exact paced_done _
    · exact paced_call rfl fun _ => paced_done _
    · exact paced_done _

theorem paced_body (request : Request) : Paced (request.body host) := by
  cases request with
  | save body => exact paced_save body
  | test => exact paced_test
  | sync days =>
    simp only [Request.body, syncSolarman]
    split
    · exact paced_done _
    · refine (paced_recover _).bind fun result => ?_
      rcases result with (_ | message) | ⟨stored, frames⟩ <;> exact paced_done _
  | recovery => exact (paced_recover _).bind fun _ => paced_done _

end Programs

section Turns

/-- Turns are an interval apart, newest first. -/
def Spaced (turns : List ℤ) : Prop := turns.Pairwise fun newer older => older + interval ≤ newer

theorem interval_pos : 0 < interval := by decide

/-- So many turns do not fit into less time. -/
theorem Spaced.fit {turns : List ℤ} {start stop : ℤ} (spaced : Spaced turns) (since : ∀ turn ∈ turns, start ≤ turn)
    (until_ : ∀ turn ∈ turns, turn ≤ stop) (order : start ≤ stop) :
    turns.length * interval ≤ stop - start + interval := by
  have := interval_pos
  induction turns generalizing stop with
  | nil =>
    rw [List.length_nil]
    omega
  | cons newest rest ih =>
    obtain ⟨apart, spaced⟩ := List.pairwise_cons.mp spaced
    have last : newest ≤ stop := until_ newest List.mem_cons_self
    have first : start ≤ newest := since newest List.mem_cons_self
    cases rest with
    | nil =>
      rw [List.length_singleton]
      omega
    | cons older others =>
      have gap := apart older List.mem_cons_self
      have earlier := ih spaced (fun turn member => since turn (List.mem_cons_of_mem _ member))
        (fun turn member => le_sub_iff_add_le.mpr (apart turn member))
        (le_sub_iff_add_le.mpr (by have := since older (by simp); omega))
      rw [List.length_cons, Nat.cast_succ, add_mul, one_mul]
      omega

/-- What is left of a thread's turn. -/
def Turn.held : Turn → Option ℤ
  | .idle => none
  | .waiting turn | .ready turn => some turn

/-- The turns that were used and those that are held were all given, and the used ones have come. -/
structure Books (start : ℤ) (s : Cloud) (states : Multiset Turn) : Prop where
  since : start ≤ s.clock
  spaced : Spaced s.turns
  turns : ∀ turn ∈ s.turns, start ≤ turn ∧ turn + interval ≤ s.next
  ready : ∀ turn, .ready turn ∈ states → turn ≤ s.clock
  used : ∃ used : Multiset ℤ, used.card = s.log.length ∧ (∀ turn ∈ used, turn ≤ s.clock) ∧
    used + states.filterMap Turn.held ≤ s.turns

variable {start : ℤ} {s t : Cloud} {states : Multiset Turn}

theorem held_idle : (.idle ::ₘ states).filterMap Turn.held = states.filterMap Turn.held :=
  Multiset.filterMap_cons_none _ _ rfl

theorem books_begin (books : Books start s states) : Books start s (.idle ::ₘ states) where
  since := books.since
  spaced := books.spaced
  turns := books.turns
  ready turn member := books.ready turn ((Multiset.mem_cons.mp member).resolve_left (by simp))
  used := by
    rw [held_idle]
    exact books.used

/-- A call that changes nothing of the turns, by a thread without one. -/
theorem Books.same (books : Books start s (.idle ::ₘ states)) (clock : t.clock = s.clock) (next : t.next = s.next)
    (turns : t.turns = s.turns) (log : t.log = s.log) : Books start t (.idle ::ₘ states) where
  since := by rw [clock]; exact books.since
  spaced := by rw [turns]; exact books.spaced
  turns := by rw [turns, next]; exact books.turns
  ready := by rw [clock]; exact books.ready
  used := by rw [log, clock, turns]; exact books.used

theorem books_take {luck : Luck} {turn : ℤ} (books : Books start s (.idle ::ₘ states))
    (taken : s.exec luck .takeTurn = some (t, turn)) : Books start t (.waiting turn ::ₘ states) := by
  cases taken
  have after : s.next ≤ (if s.next < s.clock then s.clock else s.next) := by split <;> omega
  have soon : s.clock ≤ (if s.next < s.clock then s.clock else s.next) := by split <;> omega
  generalize (if s.next < s.clock then s.clock else s.next) = turn at after soon ⊢
  have := interval_pos
  have since := books.since
  refine ⟨since, ?_, ?_, ?_, ?_⟩
  · apply List.pairwise_cons.mpr ⟨fun old member => ?_, books.spaced⟩
    exact (books.turns old member).2.trans after
  · intro other member
    rcases List.mem_cons.mp member with rfl | old
    · exact ⟨since.trans soon, le_refl _⟩
    · have before := books.turns other old
      dsimp only
      omega
  · intro other member
    apply books.ready other
    exact Multiset.mem_cons_of_mem ((Multiset.mem_cons.mp member).resolve_left (by simp))
  · obtain ⟨used, count, come, given⟩ := books.used
    refine ⟨used, count, come, ?_⟩
    rw [held_idle] at given
    rw [Multiset.filterMap_cons_some Turn.held _ _ rfl, Multiset.add_cons, ← Multiset.cons_coe]
    exact Multiset.cons_le_cons turn given

theorem books_sleep {luck : Luck} {turn : ℤ} {result : Option String} (books : Books start s (.waiting turn ::ₘ states))
    (slept : s.exec luck (.sleepUntil turn) = some (t, result)) : Books start t (.slept turn result ::ₘ states) := by
  have others : ∀ other, .ready other ∈ states → other ≤ s.clock := fun other member =>
    books.ready other (Multiset.mem_cons_of_mem member)
  obtain ⟨used, count, come, given⟩ := books.used
  rw [Multiset.filterMap_cons_some Turn.held _ _ rfl] at given
  simp only [Cloud.exec] at slept
  split at slept
  · next message _ =>
    cases slept
    refine ⟨books.since, books.spaced, books.turns, ?_, used, count, come, ?_⟩
    · intro other member
      exact others other ((Multiset.mem_cons.mp member).resolve_left (by simp [Turn.slept]))
    · have gone : Turn.slept turn (some message) = .idle := rfl
      rw [gone, held_idle]
      exact (add_le_add_right (Multiset.le_cons_self _ turn) _).trans given
  · obtain ⟨come', same⟩ := Option.ite_none_right_eq_some.mp slept
    cases same
    refine ⟨books.since, books.spaced, books.turns, ?_, used, count, come, ?_⟩
    · intro other member
      rcases Multiset.mem_cons.mp member with same | old
      · cases same
        exact come'
      · exact others other old
    · rw [Multiset.filterMap_cons_some Turn.held _ _ rfl]
      exact given

theorem books_send {luck : Luck} {turn : ℤ} {query : Query} {reply : query.Reply}
    (books : Books start s (.ready turn ::ₘ states)) (sent : s.exec luck (.send query) = some (t, reply)) :
    Books start t (.idle ::ₘ states) := by
  cases sent
  have now : turn ≤ s.clock := books.ready turn (Multiset.mem_cons_self _ _)
  obtain ⟨used, count, come, given⟩ := books.used
  refine ⟨books.since, books.spaced, books.turns, ?_, turn ::ₘ used, ?_, ?_, ?_⟩
  · intro other member
    apply books.ready other
    exact Multiset.mem_cons_of_mem ((Multiset.mem_cons.mp member).resolve_left (by simp))
  · rw [Multiset.card_cons, count, List.length_cons]
  · intro other member
    rcases Multiset.mem_cons.mp member with rfl | old
    · exact now
    · exact come other old
  · rw [Multiset.filterMap_cons_some Turn.held _ _ rfl, Multiset.add_cons] at given
    rw [held_idle, Multiset.cons_add]
    exact given

/-- Every call that a thread may make in its typestate keeps the books. -/
theorem books_move {luck : Luck} {c : Call} {answer : Reply c} {turn : Turn} {next : Reply c → Turn}
    (books : Books start s (turn ::ₘ states)) (allowed : pacing turn c = some next)
    (executed : s.exec luck c = some (t, answer)) : Books start t (next answer ::ₘ states) := by
  cases turn with
  | idle =>
    cases c with
    | takeTurn =>
      cases allowed
      exact books_take books executed
    | sleepUntil | send => cases allowed
    | getCredentials | now | billingLocation | rebuildSummaries =>
      cases allowed
      cases executed
      exact books
    | putCredentials | saveMinute =>
      cases allowed
      simp only [Cloud.exec] at executed
      split at executed <;> (cases executed; exact books.same rfl rfl rfl rfl)
  | waiting turn =>
    cases c with
    | sleepUntil asked =>
      obtain ⟨rfl, same⟩ := Option.ite_none_right_eq_some.mp allowed
      cases same
      exact books_sleep books executed
    | _ => cases allowed
  | ready turn =>
    cases c with
    | send query =>
      cases allowed
      exact books_send books executed
    | _ => cases allowed

/-- The queries fit into the time that has passed. -/
theorem Books.fit (books : Books start s states) : s.log.length * interval ≤ s.clock - start + interval := by
  obtain ⟨used, count, come, given⟩ := books.used
  have among : used ≤ (s.turns.filter (· ≤ s.clock) : Multiset ℤ) := by
    rw [← Multiset.filter_coe]
    exact Multiset.le_filter.mpr ⟨(Multiset.le_add_right _ _).trans given, come⟩
  have few : s.log.length ≤ (s.turns.filter (· ≤ s.clock)).length := by
    rw [← count, ← Multiset.coe_card]
    exact Multiset.card_le_card among
  have spaced : Spaced (s.turns.filter (· ≤ s.clock)) := List.Pairwise.sublist List.filter_sublist books.spaced
  have fits := spaced.fit (fun turn member => (books.turns turn (List.mem_of_mem_filter member)).1)
    (fun turn member => by simpa using (List.mem_filter.mp member).2) books.since
  calc (s.log.length : ℤ) * interval
    _ ≤ (s.turns.filter (· ≤ s.clock)).length * interval :=
      mul_le_mul_of_nonneg_right (Int.ofNat_le.mpr few) interval_pos.le
    _ ≤ s.clock - start + interval := fits

theorem Books.tick (books : Books start s states) {clock : ℤ} (later : s.clock ≤ clock) :
    Books start { s with clock } states where
  since := books.since.trans later
  spaced := books.spaced
  turns := books.turns
  ready turn member := (books.ready turn member).trans later
  used := by
    obtain ⟨used, count, come, given⟩ := books.used
    exact ⟨used, count, fun turn member => (come turn member).trans later, given⟩

end Turns

/-- However many requests are served at once, and however their waits end: since its start a process has sent the
cloud at most one query for each interval that has passed, and one. -/
theorem queries_paced {host : Zone} {s t : Flight Cloud Request Reply Answer} {events : List (Happening Request Luck ℤ)}
    (run : Run (Enabled (cloud host).step) s events t) (fresh : s.threads = []) (given : s.shared.turns = [])
    (sent : s.shared.log = []) : t.shared.log.length * interval ≤ t.shared.clock - s.shared.clock + interval := by
  have initial : Books s.shared.clock s.shared 0 := by
    refine ⟨le_refl _, ?_, ?_, ?_, 0, ?_, ?_, Multiset.zero_le _⟩
    · rw [given]
      exact .nil
    · intro turn member
      rw [given] at member
      cases member
    · intro turn member
      cases Multiset.notMem_zero _ member
    · rw [sent]
      rfl
    · intro turn member
      cases Multiset.notMem_zero _ member
  have bodies : ∀ request, ((cloud host).body request).Obeys pacing (· = .idle) .idle := paced_body
  obtain ⟨states, -, books⟩ := Interleaving.run_typestates (Books s.shared.clock) run fresh initial bodies
    (fun _ _ => books_begin) (fun _ _ _ _ _ _ _ _ _ books allowed executed => books_move books allowed executed)
    fun shared clock after states books changed => by
      obtain ⟨later, same⟩ := Option.ite_none_right_eq_some.mp changed
      cases same
      exact books.tick later
  exact books.fit

private def configured : Flight Cloud Request Reply Answer :=
  ⟨{ clock := 0, stored := some { appID := "2024", appSecret := "6dd3", account := "ana", password := "garden gate" },
     next := 0 }, []⟩

/-- Two tests at once. -/
private def together : List (Happening Request Luck ℤ) :=
  [.begins .test, .begins .test] ++ List.replicate 4 (.moves 0 {}) ++ List.replicate 2 (.moves 1 {}) ++
    [.world interval] ++ List.replicate 2 (.moves 1 {})

/-- The second query waits for the interval to pass. -/
theorem together_paced : ∃ t, Run (Enabled (cloud .utc).step) configured together t ∧ t.shared.log.length = 2 ∧
    t.shared.log.length * interval ≤ t.shared.clock - 0 + interval := by
  have possible : (together.foldlM (cloud .utc).step configured).map (fun t => t.shared.log.length) = some 2 := by
    decide +kernel
  obtain ⟨t, reached, sent⟩ := Option.map_eq_some_iff.mp possible
  exact ⟨t, Run.of_foldlM reached, sent, queries_paced (Run.of_foldlM reached) rfl rfl rfl⟩

end Helio.SolarmanCloud
