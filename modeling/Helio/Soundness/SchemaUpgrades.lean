import Helio.Calendar.ReadTime
import Helio.Model.Migrations
import Helio.Soundness.DayTexts
import Helio.Soundness.RateTexts
import Helio.ToMathlib.TrailingRun

/-! # Upgrades of the schema

Names are sorted as texts, so versions come in their order when their numbers are padded to one width. The files of
a release extend those of the releases before it. Whatever processes open a database, of whatever releases, and
wherever they fail or end, the database has gone through the first migrations, in their order and each once.
-/

namespace Helio.Storage

open Calendar Tariffs Alerts

section Names

variable {Script : Type} {files : List (String × Script)} {migrations : List (Migration Script)}

/-- What the loader promises of the files that it has gone through. -/
structure Loaded (files : List (String × Script)) (migrations : List (Migration Script)) : Prop where
  files : migrations.map (fun migration => (migration.name, migration.sql)) = files
  numbered : ∀ migration ∈ migrations,
    parseInt (versionText migration.name) = .ok migration.version ∧ 0 < migration.version
  distinct : (migrations.map fun migration => migration.version).Nodup

theorem loadOne_loaded {file : String × Script} {after : List (Migration Script)} (loaded : Loaded files migrations)
    (step : loadOne migrations file = .ok after) : Loaded (files ++ [file]) after := by
  rw [loadOne] at step
  split at step
  · cases step
  next version read =>
  split at step
  · cases step
  next positive =>
  split at step
  · cases step
  next fresh =>
  cases step
  simp only [List.any_eq_true, decide_eq_true_eq, not_exists, not_and] at fresh
  refine ⟨by rw [List.map_append, loaded.files]; rfl, fun migration member => ?_, ?_⟩
  · rcases List.mem_append.mp member with before | last
    · exact loaded.numbered migration before
    · obtain rfl := List.mem_singleton.mp last
      exact ⟨read, not_le.mp positive⟩
  · rw [List.map_append, List.nodup_append]
    refine ⟨loaded.distinct, List.nodup_singleton _, fun other before last member same => ?_⟩
    obtain ⟨migration, inside, rfl⟩ := List.mem_map.mp before
    rw [List.map_singleton, List.mem_singleton] at member
    exact fresh migration inside (same.trans member)

theorem loadMigrations_loaded (load : loadMigrations files = .ok migrations) :
    Loaded (files.insertionSort fun left right => left.1 ≤ right.1) migrations := by
  rw [loadMigrations] at load
  generalize files.insertionSort (fun left right => left.1 ≤ right.1) = sorted at load
  induction sorted using List.reverseRecOn generalizing migrations with
  | nil =>
    cases load
    exact ⟨rfl, by simp, List.nodup_nil⟩
  | append_singleton front last ih =>
    rw [List.foldlM_append] at load
    obtain ⟨before, first, rest⟩ := Except.bind_eq_ok.mp load
    obtain ⟨after, step, same⟩ := Except.bind_eq_ok.mp rest
    cases same
    exact loadOne_loaded (ih first) step

/-- A file of `migrations/*.sql` whose number is padded to a width. -/
def IsPadded (width : ℕ) (name : String) : Prop :=
  ∃ number rest, name.toList = "migrations/".toList ++ (number ++ '_' :: rest) ∧ number.length = width ∧
    (∀ c ∈ number, c.isDigit = true) ∧ '/' ∉ rest

theorem versionText_padded {number rest : List Char} {name : String}
    (text : name.toList = "migrations/".toList ++ (number ++ '_' :: rest)) (digits : ∀ c ∈ number, c.isDigit = true)
    (slashless : '/' ∉ rest) : versionText name = number := by
  have whole : name.toList = "migrations".toList ++ '/' :: (number ++ '_' :: rest) := by rw [text]; rfl
  have clean : ∀ c ∈ number ++ '_' :: rest, (fun c => decide (c ≠ '/')) c = true := by
    intro c member
    rw [decide_eq_true_eq]
    rintro rfl
    rcases List.mem_append.mp member with inside | inside
    · exact absurd (digits _ inside) (by decide)
    · rcases List.mem_cons.mp inside with mark | inside
      · exact absurd mark (by decide)
      · exact slashless inside
  have base : baseName name.toList = number ++ '_' :: rest := by
    rw [baseName, whole]
    exact List.rtakeWhile_append_cons_of_all (by decide) clean
  rw [versionText, base]
  apply List.takeWhile_append_of_pos _ |>.trans
  · simp
  · intro c member
    rw [decide_eq_true_eq]
    rintro rfl
    exact absurd (digits _ member) (by decide)

/-- A padded number is the version. -/
theorem version_padded {width : ℕ} {name : String} {version : ℤ} (padded : IsPadded width name)
    (read : parseInt (versionText name) = .ok version) : ∃ (n : ℕ) (rest : List Char), version = n ∧ n < 10 ^ width ∧
      name.toList = "migrations/".toList ++ (digits width n ++ '_' :: rest) := by
  obtain ⟨number, rest, text, rfl, all, slashless⟩ := padded
  obtain ⟨n, -, shown, bound⟩ := digits_of_value all
  rw [versionText_padded text all slashless] at read
  obtain ⟨sign, unsigned, split, -, -, value, -, -⟩ := parseInt_ok.mp read
  have unmarked {c : Char} (mark : c.isDigit = false) (front : number = c :: unsigned) : False := by
    have digit := all c (front ▸ List.mem_cons_self)
    rw [mark] at digit
    cases digit
  cases sign with
  | minus => exact (unmarked (by decide) split).elim
  | plus => exact (unmarked (by decide) split).elim
  | none =>
    obtain rfl : number = unsigned := split
    refine ⟨n, rest, ?_, bound, by rw [shown, text]⟩
    rw [value, ← shown]
    simp only [Sign.apply, Tariffs.number, ofDigitChars_digits bound]

/-- Names that are padded alike are in the order of their versions. -/
theorem version_le {width : ℕ} {left right : String} {first second : ℤ} (leftPadded : IsPadded width left)
    (rightPadded : IsPadded width right) (readLeft : parseInt (versionText left) = .ok first)
    (readRight : parseInt (versionText right) = .ok second) (order : left ≤ right) : first ≤ second := by
  obtain ⟨m, leftRest, rfl, mFits, leftText⟩ := version_padded leftPadded readLeft
  obtain ⟨n, rightRest, rfl, nFits, rightText⟩ := version_padded rightPadded readRight
  by_contra later
  have number : n < m := by omega
  have texts : right.toList < left.toList := by
    rw [leftText, rightText]
    exact append_lt_append rfl (Or.inr ⟨rfl, field_lt mFits (Or.inl number)⟩)
  exact absurd order (not_le.mpr (String.lt_iff.mpr texts))

/-- The loader brings files whose numbers are padded alike into the order of their versions. -/
theorem loadMigrations_increasing {width : ℕ} (load : loadMigrations files = .ok migrations)
    (padded : ∀ file ∈ files, IsPadded width file.1) :
    migrations.Pairwise fun earlier later => earlier.version < later.version := by
  have loaded := loadMigrations_loaded load
  have sorted : (files.insertionSort fun left right => left.1 ≤ right.1).Pairwise fun left right => left.1 ≤ right.1 := by
    have trans : IsTrans (String × Script) fun left right => left.1 ≤ right.1 := ⟨fun a b c => le_trans⟩
    have total : Std.Total fun (left right : String × Script) => left.1 ≤ right.1 := ⟨fun a b => le_total a.1 b.1⟩
    exact List.pairwise_insertionSort _ _
  rw [← loaded.files, List.pairwise_map] at sorted
  have names : ∀ migration ∈ migrations, IsPadded width migration.name := by
    intro migration member
    have inside : (migration.name, migration.sql) ∈ files.insertionSort fun left right => left.1 ≤ right.1 := by
      rw [← loaded.files]
      exact List.mem_map_of_mem member
    exact padded _ ((List.mem_insertionSort _).mp inside)
  have distinct := List.pairwise_map.mp loaded.distinct
  apply List.Pairwise.imp_of_mem _ (sorted.and distinct)
  rintro earlier later before after ⟨order, differ⟩
  have bound := version_le (names earlier before) (names later after) (loaded.numbered earlier before).1
    (loaded.numbered later after).1 order
  exact lt_of_le_of_ne bound differ

end Names

section Statements

variable {Tables Script Write : Type} {engine : Engine Tables Script Write} {db after : Database Tables Script Write}
  {faults : Statement → Option String} {migration : Migration Script}

/-- What the transaction of a migration leaves: nothing has happened, or all of it. -/
inductive Applied (engine : Engine Tables Script Write) (db : Database Tables Script Write)
    (migration : Migration Script) : Except String Unit → Database Tables Script Write → Prop
  | failed (e : String) : Applied engine db migration (.error e) db
  | committed {tables : Tables} : engine.run migration.sql db.tables = .ok tables → migration.version ∉ db.versions →
      Applied engine db migration (.ok ())
        ⟨db.versions ++ [migration.version], tables, db.history ++ [.migration migration]⟩

theorem apply_applied (engine : Engine Tables Script Write) (db : Database Tables Script Write)
    (faults : Statement → Option String) (migration : Migration Script) :
    Applied engine db migration (exec engine db faults (.apply migration)).2
      (exec engine db faults (.apply migration)).1 := by
  rw [exec]
  dsimp only
  rcases result : (transact (applyTx engine faults migration) db).1 with e | ⟨⟩
  · rw [Tx.transact_error result]
    exact .failed e
  · have run := Tx.transact_ok result
    obtain ⟨before, s₁, begun, run⟩ := Tx.bind_ok.mp run
    obtain ⟨-, rfl, rfl⟩ := Tx.query_ok.mp begun
    obtain ⟨_, s₂, required, run⟩ := Tx.bind_ok.mp run
    obtain ⟨-, rfl⟩ := Tx.require_ok.mp required
    obtain ⟨tables, s₃, attempted, run⟩ := Tx.bind_ok.mp run
    obtain ⟨applied, rfl⟩ := Tx.attempt_ok.mp attempted
    obtain ⟨_, s₄, stored, run⟩ := Tx.bind_ok.mp run
    obtain ⟨_, s₅, recorded, run⟩ := Tx.bind_ok.mp run
    obtain ⟨-, absent, rfl⟩ := Tx.exec_ok.mp recorded
    obtain ⟨_, s₆, committed, run⟩ := Tx.bind_ok.mp run
    obtain ⟨-, rfl, rfl⟩ := Tx.query_ok.mp committed
    obtain ⟨-, same⟩ := Tx.pure_ok.mp run
    rw [← same]
    cases stored
    exact .committed applied absent

end Statements

section Positions

variable {Tables Script Write : Type} {engine : Engine Tables Script Write} {start : Tables}
  {M : List (Migration Script)} {n k : ℕ} {db after : Database Tables Script Write}

def Change.migration? : Change Script Write → Option (Migration Script)
  | .migration found => some found
  | .write _ => none

/-- What the changes make of the tables. -/
def replay (engine : Engine Tables Script Write) (tables : Tables) : Change Script Write → Except String Tables
  | .migration migration => engine.run migration.sql tables
  | .write write => .ok (engine.write write tables)

/-- The database has gone through the first `k` migrations, in their order and each once, with the writes of the
application between them. -/
structure Upgraded (engine : Engine Tables Script Write) (start : Tables) (M : List (Migration Script)) (k : ℕ)
    (db : Database Tables Script Write) : Prop where
  within : k ≤ M.length
  versions : db.versions = (M.take k).map fun migration => migration.version
  scripts : db.history.filterMap Change.migration? = M.take k
  replayed : db.history.foldlM (replay engine) start = .ok db.tables

theorem Upgraded.length (upgraded : Upgraded engine start M k db) : db.versions.length = k := by
  rw [upgraded.versions, List.length_map, List.length_take, min_eq_left upgraded.within]

theorem Upgraded.write (upgraded : Upgraded engine start M k db) (write : Write) : Upgraded engine start M k
    { db with tables := engine.write write db.tables, history := db.history ++ [.write write] } where
  within := upgraded.within
  versions := upgraded.versions
  scripts := by simp [upgraded.scripts, Change.migration?]
  replayed := by
    rw [List.foldlM_append, upgraded.replayed]
    rfl

/-- The versions of a release increase. -/
def Increasing (M : List (Migration Script)) : Prop :=
  M.Pairwise fun earlier later => earlier.version < later.version

theorem Upgraded.recorded (upgraded : Upgraded engine start M k db) (increasing : Increasing M) {j : ℕ}
    {migration : Migration Script} (found : M[j]? = some migration) (recorded : migration.version ∈ db.versions) :
    j < k := by
  rw [upgraded.versions] at recorded
  obtain ⟨other, member, same⟩ := List.mem_map.mp recorded
  obtain ⟨i, here⟩ := List.mem_iff_getElem?.mp member
  have inside := (List.getElem?_eq_some_iff.mp here).1
  rw [List.length_take] at inside
  rw [List.getElem?_take_of_lt (by omega)] at here
  by_contra behind
  obtain ⟨iBound, rfl⟩ := List.getElem?_eq_some_iff.mp here
  obtain ⟨jBound, rfl⟩ := List.getElem?_eq_some_iff.mp found
  have order := List.pairwise_iff_getElem.mp increasing i j iBound jBound (by omega)
  omega

/-- A migration that is recorded for the first time, after all before it, is the next one. -/
theorem Upgraded.apply (upgraded : Upgraded engine start M k db) {j : ℕ} (reached : j ≤ k) {migration : Migration Script}
    (found : M[j]? = some migration) {tables : Tables} (applied : engine.run migration.sql db.tables = .ok tables)
    (absent : migration.version ∉ db.versions) : Upgraded engine start M (k + 1)
      ⟨db.versions ++ [migration.version], tables, db.history ++ [.migration migration]⟩ := by
  obtain rfl : j = k := by
    by_contra behind
    refine absent ?_
    rw [upgraded.versions]
    apply List.mem_map_of_mem
    have before : (M.take k)[j]? = some migration := by rw [List.getElem?_take_of_lt (by omega), found]
    exact List.mem_of_getElem? before
  have one : M.take (j + 1) = M.take j ++ [migration] := by rw [List.take_add_one, found]; rfl
  refine ⟨?_, ?_, ?_, ?_⟩
  · have bound := (List.getElem?_eq_some_iff.mp found).1
    omega
  · rw [one, upgraded.versions, List.map_append]
    rfl
  · rw [one, List.filterMap_append, upgraded.scripts]
    rfl
  · rw [List.foldlM_append, upgraded.replayed]
    change ([Change.migration migration].foldlM (replay engine) db.tables) = _
    rw [List.foldlM_cons, replay, applied]
    rfl

/-- Where a process can stand that knows the first `n` migrations when `k` have been applied. -/
inductive Stands (M : List (Migration Script)) (n k : ℕ) :
    Program (Call Script) Reply (Except String Unit) → Prop
  | begins : Stands M n k (migrate (M.take n))
  | reads : Stands M n k (migrateFrom (M.take n))
  | checks {j : ℕ} : j ≤ k → j ≤ n → Stands M n k (migrateAll ((M.take n).drop j))
  | applies {j : ℕ} {migration : Migration Script} : j ≤ k → (M.take n)[j]? = some migration →
      Stands M n k (applyOne migration (migrateAll ((M.take n).drop (j + 1))))
  | failed (e : String) : Stands M n k (.done (.error e))

theorem Stands.later {k' : ℕ} {p : Program (Call Script) Reply (Except String Unit)} (stands : Stands M n k p)
    (order : k ≤ k') : Stands M n k' p := by
  cases stands with
  | begins => exact .begins
  | reads => exact .reads
  | checks reached within => exact .checks (reached.trans order) within
  | applies reached found => exact .applies (reached.trans order) found
  | failed e => exact .failed e

/-- A process that has succeeded has found or applied all its migrations. -/
theorem Stands.succeeded {value : Except String Unit} (stands : Stands M n k (.done value)) (known : n ≤ M.length)
    (ok : value = .ok ()) : n ≤ k := by
  generalize standing : Program.done value = p at stands
  cases stands with
  | begins => cases standing
  | reads => cases standing
  | @checks j reached within =>
    rcases left : (M.take n).drop j with _ | ⟨migration, rest⟩
    · have long := List.drop_eq_nil_iff.mp left
      rw [List.length_take, min_eq_left known] at long
      omega
    · rw [left] at standing
      cases standing
  | applies reached found => cases standing
  | failed e =>
    cases standing
    cases ok

/-- What the call of a process does to the database and to its place. -/
theorem Stands.call (increasing : Increasing M) {c : Call Script} {next : Reply c → Program (Call Script) Reply (Except String Unit)}
    (stands : Stands M n k (.call c next)) (upgraded : Upgraded engine start M k db)
    (faults : Statement → Option String) : ∃ k', k ≤ k' ∧ Upgraded engine start M k' (exec engine db faults c).1 ∧
      Stands M n k' (next (exec engine db faults c).2) := by
  generalize standing : Program.call c next = p at stands
  cases stands with
  | begins =>
    cases standing
    refine ⟨k, le_refl _, ?_⟩
    rw [exec]
    split
    · exact ⟨upgraded, .failed _⟩
    · exact ⟨upgraded, .reads⟩
  | reads =>
    cases standing
    refine ⟨k, le_refl _, ?_⟩
    rw [exec]
    split
    · exact ⟨upgraded, .failed _⟩
    · refine ⟨upgraded, ?_⟩
      dsimp only
      split
      · exact .failed _
      · exact .checks (Nat.zero_le _) (Nat.zero_le _)
  | @checks j reached within =>
    rcases left : (M.take n).drop j with _ | ⟨migration, rest⟩
    · rw [left] at standing
      cases standing
    rw [left] at standing
    cases standing
    have found : (M.take n)[j]? = some migration := by
      rw [← List.head?_drop, left]
      rfl
    have tail : (M.take n).drop (j + 1) = rest := by
      rw [← List.tail_drop, left]
      rfl
    have inside := (List.getElem?_eq_some_iff.mp found).1
    rw [List.length_take] at inside
    refine ⟨k, le_refl _, ?_⟩
    rw [exec]
    split
    · exact ⟨upgraded, .failed _⟩
    · refine ⟨upgraded, ?_⟩
      by_cases recorded : migration.version ∈ db.versions
      · simp only [recorded, decide_true]
        rw [← tail]
        have placed : M[j]? = some migration := by rwa [List.getElem?_take_of_lt (by omega)] at found
        exact .checks (upgraded.recorded increasing placed recorded) (by omega)
      · simp only [recorded, decide_false]
        rw [← tail]
        exact .applies reached found
  | @applies j migration reached found =>
    cases standing
    have applied := apply_applied engine db faults migration
    generalize exec engine db faults (.apply migration) = effect at applied
    obtain ⟨after, answer⟩ := effect
    cases applied with
    | failed e => exact ⟨k, le_refl _, upgraded, .failed _⟩
    | committed ran absent =>
      have inside := (List.getElem?_eq_some_iff.mp found).1
      rw [List.length_take] at inside
      have placed : M[j]? = some migration := by rwa [List.getElem?_take_of_lt (by omega)] at found
      exact ⟨k + 1, by omega, upgraded.apply reached placed ran absent, .checks (by omega) (by omega)⟩
  | failed e => cases standing

end Positions

section Runs

variable {Tables Script Write : Type} {engine : Engine Tables Script Write} {start : Tables}
  {files : List (String × Script)} {M : List (Migration Script)}

/-- Processes of releases up to the one with these migrations: each knows the first of them. -/
def IsRelease (M : List (Migration Script)) :
    Happening (List (String × Script)) (Statement → Option String) Write → Prop
  | .begins files => ∀ migrations, loadMigrations files = .ok migrations → migrations <+: M
  | _ => True

/-- A process that may have begun. -/
abbrev Opener (Script : Type) := Thread (List (String × Script)) (@Reply Script) (Except String Unit)

/-- Where a process stands when `k` migrations have been applied. -/
def Opener.StandsAt (M : List (Migration Script)) (k : ℕ) (opener : Opener Script) : Prop :=
  (∃ e, opener.rest = .done (.error e)) ∨
    ∃ n ≤ M.length, loadMigrations opener.request = .ok (M.take n) ∧ Stands M n k opener.rest

theorem Opener.StandsAt.later {k k' : ℕ} {opener : Opener Script} (here : opener.StandsAt M k) (order : k ≤ k') :
    opener.StandsAt M k' := by
  rcases here with failed | ⟨n, known, loaded, stands⟩
  · exact Or.inl failed
  · exact Or.inr ⟨n, known, loaded, stands.later order⟩

abbrev Opening (Tables Script Write : Type) :=
  Flight (Database Tables Script Write) (List (String × Script)) (@Reply Script) (Except String Unit)

variable {s t : Opening Tables Script Write} {events : List (Happening (List (String × Script))
  (Statement → Option String) Write)}

/-- The database as it is created, with nobody using it. -/
def unopened (tables : Tables) : Opening Tables Script Write := ⟨{ tables }, []⟩

theorem launch_stands {shared : Database Tables Script Write} {k : ℕ}
    (release : ∀ migrations, loadMigrations files = .ok migrations → migrations <+: M) :
    Opener.StandsAt M k ((opening engine).launch shared files) := by
  rcases loaded : loadMigrations files with e | migrations
  · refine Or.inl ⟨e, ?_⟩
    simp [Interleaving.launch, opening, openDatabase, loaded]
  · have front := release migrations loaded
    have same := List.prefix_iff_eq_take.mp front
    refine Or.inr ⟨migrations.length, front.length_le, ?_, ?_⟩
    · rw [← same]
      exact loaded
    · have rest : ((opening engine).launch shared files).rest = migrate (M.take migrations.length) := by
        rw [← same]
        simp [Interleaving.launch, opening, openDatabase, loaded]
      rw [rest]
      exact .begins

/-- What every process and the database keep. -/
def Sound (engine : Engine Tables Script Write) (start : Tables) (M : List (Migration Script))
    (s : Opening Tables Script Write) : Prop :=
  ∃ k, Upgraded engine start M k s.shared ∧ ∀ opener ∈ s.threads, Opener.StandsAt M k opener

theorem Sound.step (increasing : Increasing M) (sound : Sound engine start M s)
    {event : Happening (List (String × Script)) (Statement → Option String) Write} (release : IsRelease M event)
    (stepped : (opening engine).step s event = some t) :
    s.shared.versions.length ≤ t.shared.versions.length ∧ ∃ k', Upgraded engine start M k' t.shared ∧
      ∀ opener ∈ t.threads, Opener.StandsAt M k' opener := by
  obtain ⟨k, upgraded, stand⟩ := sound
  obtain ⟨files, rfl, rfl⟩ | ⟨i, luck, opener, later, rfl, found, advanced, threads⟩ |
    ⟨write, rfl, changed, threads⟩ := Interleaving.step_cases stepped
  · refine ⟨le_refl _, k, upgraded, fun opener member => ?_⟩
    rcases List.mem_append.mp member with old | new
    · exact stand opener old
    · rw [List.mem_singleton.mp new]
      exact launch_stands release
  · obtain ⟨c, next, answer, standing, executed, rfl⟩ := Interleaving.advance_cases advanced
    rcases stand opener (List.mem_of_getElem? found) with ⟨e, failed⟩ | ⟨n, known, loaded, stands⟩
    · rw [standing] at failed
      cases failed
    rw [standing] at stands
    obtain ⟨k', order, after, placed⟩ := stands.call increasing upgraded luck
    have effect : exec engine s.shared luck c = (t.shared, answer) := Option.some.inj executed
    rw [effect] at after placed
    refine ⟨by rwa [upgraded.length, after.length], k', after, fun other member => ?_⟩
    rw [threads] at member
    rcases Interleaving.mem_set_cases member with rfl | old
    · exact Or.inr ⟨n, known, loaded, placed⟩
    · exact (stand other old).later order
  · have same := Option.some.inj changed
    rw [← same]
    refine ⟨le_refl _, k, upgraded.write write, fun opener member => ?_⟩
    rw [threads] at member
    exact stand opener member

/-- A process that has not got past the version of a newer database. -/
def Opener.IsRefused (opener : Opener Script) : Prop :=
  (∀ exchange ∈ opener.exchanges, exchange.call = .createTable ∨ exchange.call = .readVersion) ∧
    opener.rest ≠ .done (.ok ())

/-- What is promised of a database after any opening. -/
structure SafelyOpened (engine : Engine Tables Script Write) (start : Tables) (M : List (Migration Script))
    (s : Opening Tables Script Write) (k : ℕ) : Prop where
  upgraded : Upgraded engine start M k s.shared
  /-- A process that has opened the database finds all migrations of its release in it. -/
  succeeded : ∀ opener ∈ s.threads, opener.rest = .done (.ok ()) →
    ∃ n ≤ k, loadMigrations opener.request = .ok (M.take n)
  /-- An older binary that begins now is refused, and changes nothing. -/
  refused : ∀ events t, Run (Guarded (fun _ => IsRelease M) (Enabled (opening engine).step)) s events t →
    ∀ i opener n, s.threads.length ≤ i → t.threads[i]? = some opener → n < k →
      loadMigrations opener.request = .ok (M.take n) → Opener.IsRefused opener

theorem run_sound (increasing : Increasing M) (sound : Sound engine start M s)
    (run : Run (Guarded (fun _ => IsRelease M) (Enabled (opening engine).step)) s events t) :
    Sound engine start M t ∧ s.shared.versions.length ≤ t.shared.versions.length := by
  refine @Run.invariant _ _ _ _ _ _ (fun t => Sound engine start M t ∧
    s.shared.versions.length ≤ t.shared.versions.length) run ⟨sound, le_refl _⟩ ?_
  rintro u event v ⟨before, order⟩ ⟨release, stepped⟩
  obtain ⟨grows, k, upgraded, stand⟩ := before.step increasing release stepped
  exact ⟨⟨k, upgraded, stand⟩, order.trans grows⟩

/-- A database beyond the migrations of a binary has a version beyond its latest. -/
theorem Upgraded.newer {k n : ℕ} {db : Database Tables Script Write} (upgraded : Upgraded engine start M k db)
    (increasing : Increasing M) (positive : ∀ migration ∈ M, 0 < migration.version) (behind : n < k) :
    latestVersion (M.take n) < db.versions.max?.getD 0 := by
  have bound : n < M.length := behind.trans_le upgraded.within
  have recorded : M[n].version ∈ db.versions := by
    rw [upgraded.versions]
    apply List.mem_map_of_mem
    exact List.mem_take_iff_getElem.mpr ⟨n, by omega, rfl⟩
  have below : latestVersion (M.take n) < M[n].version := by
    rw [latestVersion]
    split
    · exact positive _ (List.getElem_mem bound)
    · next last found =>
      obtain ⟨i, here⟩ := List.mem_iff_getElem?.mp (List.mem_of_getLast? found)
      have inside := (List.getElem?_eq_some_iff.mp here).1
      rw [List.length_take] at inside
      rw [List.getElem?_take_of_lt (by omega)] at here
      obtain ⟨within, rfl⟩ := List.getElem?_eq_some_iff.mp here
      exact List.pairwise_iff_getElem.mp increasing i n within bound (by omega)
  rcases greatest : db.versions.max? with _ | current
  · rw [List.max?_eq_none_iff] at greatest
    rw [greatest] at recorded
    cases recorded
  · have above := (List.max?_eq_some_iff.mp greatest).2 _ recorded
    exact below.trans_le above

/-- A process of an older binary in a database that has gone further. -/
def Opener.IsLate (M : List (Migration Script)) (k : ℕ) (opener : Opener Script) : Prop :=
  ∀ n < k, loadMigrations opener.request = .ok (M.take n) →
    (∀ exchange ∈ opener.exchanges, exchange.call = .createTable ∨ exchange.call = .readVersion) ∧
      (opener.rest = migrate (M.take n) ∨ opener.rest = migrateFrom (M.take n) ∨ ∃ e, opener.rest = .done (.error e))

theorem Opener.IsLate.refused {k n : ℕ} {opener : Opener Script} (late : opener.IsLate M k) (behind : n < k)
    (loaded : loadMigrations opener.request = .ok (M.take n)) : opener.IsRefused := by
  obtain ⟨exchanges, rest⟩ := late n behind loaded
  refine ⟨exchanges, fun ok => ?_⟩
  rw [ok] at rest
  rcases rest with stands | stands | ⟨e, stands⟩ <;> cases stands

theorem launch_late {shared : Database Tables Script Write} {k : ℕ} :
    Opener.IsLate M k ((opening engine).launch shared files) := by
  intro n behind loaded
  have loaded : loadMigrations files = .ok (M.take n) := loaded
  refine ⟨by simp [Interleaving.launch], Or.inl ?_⟩
  simp [Interleaving.launch, opening, openDatabase, loaded]

theorem advance_late (increasing : Increasing M) (positive : ∀ migration ∈ M, 0 < migration.version) {k k' : ℕ}
    {opener later : Opener Script} {luck : Statement → Option String} (late : opener.IsLate M k)
    (upgraded : Upgraded engine start M k' s.shared) (further : k ≤ k')
    (advanced : (opening engine).advance s.shared opener luck = some (t.shared, later)) : later.IsLate M k := by
  obtain ⟨c, next, answer, standing, executed, rfl⟩ := Interleaving.advance_cases advanced
  have effect : exec engine s.shared luck c = (t.shared, answer) := Option.some.inj executed
  intro n behind loaded
  obtain ⟨exchanges, rest⟩ := late n behind loaded
  rw [standing] at rest
  have noted (call : c = .createTable ∨ c = .readVersion) : ∀ exchange ∈ opener.exchanges ++ [⟨c, answer⟩],
      exchange.call = .createTable ∨ exchange.call = .readVersion := by
    intro exchange member
    rcases List.mem_append.mp member with old | new
    · exact exchanges exchange old
    · rw [List.mem_singleton.mp new]
      exact call
  rcases rest with stands | stands | ⟨e, stands⟩
  · cases stands
    refine ⟨noted (Or.inl rfl), ?_⟩
    cases answer with
    | error e => exact Or.inr (Or.inr ⟨_, rfl⟩)
    | ok value => exact Or.inr (Or.inl rfl)
  · cases stands
    refine ⟨noted (Or.inr rfl), Or.inr (Or.inr ?_)⟩
    cases answer with
    | error e => exact ⟨_, rfl⟩
    | ok current =>
      have newer := upgraded.newer increasing positive (behind.trans_le further)
      have read : current = s.shared.versions.max?.getD 0 := by
        rw [exec] at effect
        split at effect
        · cases (Prod.mk.inj effect).2
        · exact (Except.ok.inj (Prod.mk.inj effect).2).symm
      rw [← read] at newer
      dsimp only
      rw [if_pos newer]
      exact ⟨_, rfl⟩
  · cases stands

/-- What begins later than a state is late with respect to it. -/
theorem run_late (increasing : Increasing M) (positive : ∀ migration ∈ M, 0 < migration.version) {k : ℕ}
    (sound : Sound engine start M s) (upgraded : Upgraded engine start M k s.shared)
    (run : Run (Guarded (fun _ => IsRelease M) (Enabled (opening engine).step)) s events t) :
    ∀ i opener, s.threads.length ≤ i → t.threads[i]? = some opener → Opener.IsLate M k opener := by
  refine (@Run.reached_invariant _ _ _ _ _ _ (fun t => s.threads.length ≤ t.threads.length ∧
    ∀ i opener, s.threads.length ≤ i → t.threads[i]? = some opener → Opener.IsLate M k opener) run
    ⟨le_refl _, fun i opener long found => ?_⟩ ?_).2
  · rw [List.getElem?_eq_none long] at found
    cases found
  rintro es u event v before ⟨more, late⟩ ⟨release, stepped⟩
  obtain ⟨⟨k', further, -⟩, grown⟩ := run_sound increasing sound before
  obtain ⟨files, rfl, rfl⟩ | ⟨j, luck, opener, later, rfl, taken, advanced, threads⟩ |
    ⟨write, rfl, changed, threads⟩ := Interleaving.step_cases stepped
  · refine ⟨by rw [List.length_append]; omega, fun i opener long found => ?_⟩
    rcases Nat.lt_or_ge i u.threads.length with old | new
    · rw [List.getElem?_append_left old] at found
      exact late i opener long found
    · rw [List.getElem?_append_right new] at found
      rw [List.mem_singleton.mp (List.mem_of_getElem? found)]
      exact launch_late
  · refine ⟨by rwa [threads, List.length_set], fun i other long found => ?_⟩
    rw [threads] at found
    by_cases same : j = i
    · subst same
      rw [List.getElem?_set_self (List.getElem?_eq_some_iff.mp taken).1] at found
      cases found
      rw [upgraded.length, further.length] at grown
      exact advance_late increasing positive (late j opener long taken) further grown advanced
    · rw [List.getElem?_set_ne same] at found
      exact late i other long found
  · rw [threads]
    exact ⟨more, late⟩

/-- Whatever processes of whatever releases open a database, and wherever they fail or end: the database has gone
through the first migrations, in their order and each once. A process that succeeds finds all migrations of its
release in it, and an older binary is refused. -/
theorem schema_upgrades {width : ℕ} (load : loadMigrations files = .ok M)
    (padded : ∀ file ∈ files, IsPadded width file.1) (engine : Engine Tables Script Write) (start : Tables)
    (run : Run (Guarded (fun _ => IsRelease M) (Enabled (opening engine).step)) (unopened start) events t) :
    ∃ k, SafelyOpened engine start M t k := by
  have increasing : Increasing M := loadMigrations_increasing load padded
  have positive : ∀ migration ∈ M, 0 < migration.version := fun migration member =>
    ((loadMigrations_loaded load).numbered migration member).2
  have initial : Sound engine start M (unopened start) :=
    ⟨0, ⟨Nat.zero_le _, rfl, rfl, rfl⟩, fun opener member => by cases member⟩
  have sound := (run_sound increasing initial run).1
  have ⟨k, upgraded, stand⟩ := sound
  refine ⟨k, upgraded, fun opener member ok => ?_, fun events u more i opener n long found behind loaded => ?_⟩
  · rcases stand opener member with ⟨e, failed⟩ | ⟨n, known, loaded, stands⟩
    · rw [ok] at failed
      cases failed
    · rw [ok] at stands
      exact ⟨n, stands.succeeded known rfl, loaded⟩
  · have late := run_late increasing positive sound upgraded more i opener long found
    exact late.refused behind loaded

end Runs

section Races

/-- The first two migrations, and those of the release before. -/
private def files : List (String × ℕ) :=
  [("migrations/0002_telemetry_source_time.sql", 2), ("migrations/0001_initial.sql", 1)]

private def olderFiles : List (String × ℕ) := [("migrations/0001_initial.sql", 1)]

private def migrations : List (Migration ℕ) :=
  [⟨1, "migrations/0001_initial.sql", 1⟩, ⟨2, "migrations/0002_telemetry_source_time.sql", 2⟩]

/-- A script that cannot be run twice. -/
private def engine : Engine (List ℕ) ℕ ℕ where
  run script tables := if script ∈ tables then .error "table already exists" else .ok (tables ++ [script])
  write _ tables := tables

/-- Two processes find that the first migration is missing, and one of them applies it. Then the older binary comes. -/
private def race : List (Happening (List (String × ℕ)) (Statement → Option String) ℕ) :=
  [.begins files, .begins files] ++ [0, 0, 0, 1, 1, 1, 1, 0, 1, 1].map (fun i => .moves i fun _ => none) ++
    [.begins olderFiles, .moves 2 fun _ => none, .moves 2 fun _ => none]

theorem race_safe : ∃ t : Opening (List ℕ) ℕ ℕ, SafelyOpened engine [] migrations t 2 ∧
    t.shared.tables = [1, 2] := by
  have padded : ∀ file ∈ files, IsPadded 4 file.1 := by
    intro file member
    rcases List.mem_cons.mp member with rfl | member
    · exact ⟨"0002".toList, "telemetry_source_time.sql".toList, by decide, rfl, List.all_eq_true.mp (by decide), by decide⟩
    · rw [List.mem_singleton.mp member]
      exact ⟨"0001".toList, "initial.sql".toList, by decide, rfl, List.all_eq_true.mp (by decide), by decide⟩
  have load : loadMigrations files = .ok migrations := by decide +kernel
  have loadOlder : loadMigrations olderFiles = .ok (migrations.take 1) := by decide +kernel
  have newRelease : ∀ found, loadMigrations files = .ok found → found <+: migrations := fun found loaded => by
    rw [Except.ok.inj (loaded.symm.trans load)]
  have oldRelease : ∀ found, loadMigrations olderFiles = .ok found → found <+: migrations := fun found loaded => by
    rw [Except.ok.inj (loaded.symm.trans loadOlder)]
    exact List.take_prefix 1 migrations
  have release : ∀ event ∈ race, IsRelease migrations event := by
    simp only [race, IsRelease, List.map_cons, List.map_nil, List.cons_append, List.nil_append, List.forall_mem_cons,
      List.not_mem_nil, true_and]
    exact ⟨newRelease, newRelease, oldRelease, fun _ member => member.elim⟩
  have possible : (race.foldlM (opening engine).step (unopened [])).map (fun t =>
      (t.shared.versions.length, t.shared.tables)) = some (2, [1, 2]) := by
    decide +kernel
  obtain ⟨t, reached, shown⟩ := Option.map_eq_some_iff.mp possible
  have run := (Run.of_foldlM reached).guard_events release
  obtain ⟨k, safe⟩ := schema_upgrades load padded engine [] run
  obtain ⟨length, tables⟩ := Prod.mk.inj shown
  obtain rfl : k = 2 := safe.upgraded.length.symm.trans length
  exact ⟨t, safe, tables⟩

end Races

end Helio.Storage
