import Helio.Machine.Interleaving
import Helio.Machine.Transaction
import Helio.Model.Copel
import Mathlib.Data.List.DropRight
import Mathlib.Data.List.Sort
import Mathlib.Data.String.Basic

/-! # Migrations of the database

A binary carries the migrations of its release in files. When it opens the database it applies those that the
database has not recorded, each with its record in one transaction. Several processes may open one database at the
same time, any of them may end at any point, and statements may fail. What a script makes of the tables, and what
the application writes into them, is given. The version of a migration is the number at the front of its file's
name, and its row in `schema_migrations` is only ever inserted.
-/

namespace Helio.Storage

structure Migration (Script : Type) where
  version : ℤ
  name : String
  sql : Script
deriving DecidableEq

/-- `filepath.Base` of a path that does not end in a slash. -/
def baseName (name : List Char) : List Char := name.rtakeWhile fun c => c ≠ '/'

/-- `strings.SplitN(filepath.Base(name), "_", 2)[0]`. -/
def versionText (name : String) : List Char := (baseName name.toList).takeWhile fun c => c ≠ '_'

section Load

variable {Script : Type}

/-- One turn of the loop of `loadMigrations`. -/
def loadOne (migrations : List (Migration Script)) (file : String × Script) :
    Except String (List (Migration Script)) :=
  match Tariffs.parseInt (versionText file.1) with
  | .error _ => .error ("invalid migration filename " ++ file.1.quote)
  | .ok version =>
    if version ≤ 0 then .error ("invalid migration filename " ++ file.1.quote)
    else if migrations.any fun migration => migration.version = version then
      .error ("duplicate migration version " ++ toString version)
    else .ok (migrations ++ [⟨version, file.1, file.2⟩])

/-- The files that match `migrations/*.sql`, with their contents. -/
def loadMigrations (files : List (String × Script)) : Except String (List (Migration Script)) :=
  (files.insertionSort fun left right => left.1 ≤ right.1).foldlM loadOne []

end Load

/-- `%04d` of a positive number. -/
def fourDigits (version : ℤ) : String :=
  let digits := toString version
  String.ofList (List.replicate (4 - digits.length) '0') ++ digits

inductive Change (Script Write : Type) where
  | migration (migration : Migration Script)
  | write (write : Write)

/-- The versions in `schema_migrations`, none while there is no such table, and the other tables with all that has
changed them, oldest first. -/
structure Database (Tables Script Write : Type) where
  versions : List ℤ := []
  tables : Tables
  history : List (Change Script Write) := []

/-- The statements of the transaction of a migration. -/
inductive Statement where
  | begin | apply | record | commit
deriving DecidableEq

/-- What a script does to the tables, and what a write of the application does. -/
structure Engine (Tables Script Write : Type) where
  run : Script → Tables → Except String Tables
  write : Write → Tables → Tables

inductive Call (Script : Type) where
  | createTable
  | readVersion
  | check (version : ℤ)
  | apply (migration : Migration Script)

@[reducible] def Reply {Script : Type} : Call Script → Type
  | .createTable => Except String Unit
  | .readVersion => Except String ℤ
  | .check _ => Except String Bool
  | .apply _ => Except String Unit

section Migrate

variable {Script : Type}

/-- Applying a migration before the loop goes on. -/
def applyOne (migration : Migration Script) (next : Program (Call Script) Reply (Except String Unit)) :
    Program (Call Script) Reply (Except String Unit) :=
  .call (.apply migration) fun
  | .error e => .done (.error e)
  | .ok () => next

/-- The loop over the migrations. -/
def migrateAll : List (Migration Script) → Program (Call Script) Reply (Except String Unit)
  | [] => .done (.ok ())
  | migration :: rest => .call (.check migration.version) fun
    | .error e => .done (.error ("check migration " ++ fourDigits migration.version ++ ": " ++ e))
    | .ok true => migrateAll rest
    | .ok false => applyOne migration (migrateAll rest)

def latestVersion (migrations : List (Migration Script)) : ℤ :=
  match migrations.getLast? with
  | none => 0
  | some migration => migration.version

/-- What follows the creation of `schema_migrations`. -/
def migrateFrom (migrations : List (Migration Script)) : Program (Call Script) Reply (Except String Unit) :=
  .call .readVersion fun
  | .error e => .done (.error ("read schema version: " ++ e))
  | .ok current =>
    let latest := latestVersion migrations
    if latest < current then
      .done (.error ("database schema version " ++ toString current ++ " is newer than binary version " ++
        toString latest))
    else migrateAll migrations

def migrate (migrations : List (Migration Script)) : Program (Call Script) Reply (Except String Unit) :=
  .call .createTable fun
  | .error e => .done (.error ("create schema_migrations: " ++ e))
  | .ok () => migrateFrom migrations

/-- What a process does with the files of its binary. -/
def openDatabase (files : List (String × Script)) : Program (Call Script) Reply (Except String Unit) :=
  match loadMigrations files with
  | .error e => .done (.error e)
  | .ok migrations => migrate migrations

end Migrate

section Statements

variable {Tables Script Write : Type} (engine : Engine Tables Script Write)

/-- The transaction of a migration. -/
def applyTx (faults : Statement → Option String) (migration : Migration Script) :
    Tx (Database Tables Script Write) String Unit := do
  let label := " migration " ++ fourDigits migration.version ++ ": "
  let before ← Tx.query (fun e => "begin" ++ label ++ e) (faults .begin)
  Tx.require (faults .apply = none) ("apply" ++ label ++ (faults .apply).getD "")
  let tables ← Tx.attempt (fun e => "apply" ++ label ++ e) (engine.run migration.sql before.tables)
  set { before with tables, history := before.history ++ [Change.migration migration] }
  Tx.exec (fun e => "record" ++ label ++ e) (faults .record) (migration.version ∉ before.versions)
    fun db => { db with versions := db.versions ++ [migration.version] }
  let _ ← Tx.query (fun e => "commit" ++ label ++ e) (faults .commit)
  return ()

/-- What the statements of a call do, one of which may fail. -/
def exec (db : Database Tables Script Write) (faults : Statement → Option String) :
    (c : Call Script) → Database Tables Script Write × Reply c
  | .createTable =>
    match faults .apply with
    | some e => (db, .error e)
    | none => (db, .ok ())
  | .readVersion =>
    match faults .apply with
    | some e => (db, .error e)
    | none => (db, .ok (db.versions.max?.getD 0))
  | .check version =>
    match faults .apply with
    | some e => (db, .error e)
    | none => (db, .ok (version ∈ db.versions))
  | .apply migration =>
    let (result, after) := transact (applyTx engine faults migration) db
    (after, result)

/-- Processes that open the database, each with the files of its binary, and the application that writes. -/
def opening : Interleaving (Database Tables Script Write) (List (String × Script)) (Statement → Option String) Write
    (@Reply Script) (Except String Unit) where
  body := openDatabase
  exec db _ faults c := some (exec engine db faults c)
  world db write := some { db with tables := engine.write write db.tables, history := db.history ++ [Change.write write] }
  clock _ := 0

end Statements

end Helio.Storage
