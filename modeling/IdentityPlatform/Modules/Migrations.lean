/-
# Migrations

`runMigrations` of `migrate.ts`.  A run reads the directory, looks up which files are
applied, and sends each of the others in a transaction of its own that also records it.

The rows are those of `schema_migrations` and, for each file, one that stands for what its
SQL does: the SQL of a file takes effect as often as its row stands.  Only the records have
a key.  A run whose file cannot be read stops as one that gets no connection.
-/

import IdentityPlatform.Common.Text
import IdentityPlatform.Infrastructure.Transactions

namespace IdentityPlatform

open Interleaving Program Relational Database

/-- What migrations leave in the database. -/
inductive MigrationRow
  /-- The table `schema_migrations`. -/
  | journal
  /-- The effect of the SQL of a file. -/
  | effect (file : String)
  /-- A row of `schema_migrations`. -/
  | record (file : String)
  deriving DecidableEq, Repr

namespace Migrations

/-- `name TEXT PRIMARY KEY`. -/
def clash : MigrationRow → MigrationRow → Bool
  | .record file, .record file' => file = file'
  | _, _ => false

/-- The name a row of `schema_migrations` has. -/
def recordName : MigrationRow → Option String
  | .record file => some file
  | _ => none

/-- `readdirSync(dir).filter((f) => f.endsWith('.sql')).sort()`. -/
def sqlFiles (dir : List String) : List String :=
  sortTexts (dir.filter fun file => endsWithText file ".sql")

/-- The body of a transaction: the SQL of the file, and its record. -/
def applyFile (file : String) (tx : ℕ) : TxProg MigrationRow Unit := do
  command (.insert tx (.effect file))
  command (.insert tx (.record file))

/-- The loop of `runMigrations`. -/
def applyFiles (applied : List String) : List String → TxProg MigrationRow (List String)
  | [] => pure []
  | file :: files =>
      if file ∈ applied then applyFiles applied files
      else do
        withTransaction (applyFile file)
        let executedNow ← applyFiles applied files
        pure (file :: executedNow)

/-- `runMigrations`. -/
def runMigrations (dir : List String) : TxProg MigrationRow (List String) := do
  command (.ensure .journal)
  let files := sqlFiles dir
  let rows ← command (.select fun row => (recordName row).isSome)
  applyFiles (rows.filterMap recordName) files

/-- Runs of the migrations, each on the directory it finds.  A reply is delivered or lost. -/
def machine : Machine (txCommands MigrationRow) Err (Versioned MigrationRow) (List String)
    (List String) Bool ℕ :=
  transactions (constraints clash fun _ => none) id runMigrations

end Migrations

/-- A configuration of the runs of the migrations. -/
abbrev MigrationConfig :=
  Config (txCommands MigrationRow) Err (Versioned MigrationRow) (List String) (List String)

/-- A run of the migrations. -/
abbrev MigrationCall :=
  Call (txCommands MigrationRow) Err (Versioned MigrationRow) (List String) (List String)

/-- A command of a run. -/
abbrev MigrationEvent := Event (txCommands MigrationRow) Err (Versioned MigrationRow)

/-- The commands of a run, the newest first. -/
abbrev MigrationLog := Log (txCommands MigrationRow) Err (Versioned MigrationRow)

end IdentityPlatform
