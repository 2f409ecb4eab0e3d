import DirectoryTables.ConfigError
import DirectoryTables.Log
import DirectoryTables.Migration
import DirectoryTables.Session
import DirectoryTables.Statement.Sql

/-!
# Migrations — Run

What happens when a migration is carried out on a session: every statement is rendered, handed to
the session, recorded in the log and counted, whatever the session answers.  The first failure of
a call ends the run; a statement that fails is reported before a log that does.
-/

namespace DirectoryTables

/-- Why a run ended. -/
inductive RunError where
  /-- The documents are wrong; nothing was run. -/
  | config (cause : ConfigError)
  /-- A statement failed. -/
  | execution (sql : String) (cause : SessionError)
  /-- A question about the catalog failed. -/
  | introspection (cause : SessionError)
  /-- The log could not be written. -/
  | auditLog (cause : FileError)

/-- What is said of a failed run. -/
def RunError.message : RunError → String
  | config cause => "configuration error: " ++ cause.message
  | execution sql cause => "statement failed: " ++ sql ++ ": " ++ cause.message
  | introspection cause => "catalog introspection failed: " ++ cause.message
  | auditLog cause => "audit log error: " ++ cause.message

/-- The states of a session and a log, and the number of statements issued. -/
structure Progress (σ τ : Type) where
  session : σ
  log : τ
  issued : Nat := 0

namespace Migration

variable {σ τ α : Type}

/-- One statement. -/
def runStatement (b : Backend) (session : Session σ) (log : Log τ) (statement : Statement)
    (p : Progress σ τ) : Except RunError Unit × Progress σ τ :=
  let sql := b.render statement
  let outcome := session.execute sql statement p.session
  let recorded := log.record sql p.log
  let p := { session := outcome.2, log := recorded.2, issued := p.issued + 1 }
  match outcome.1, recorded.1 with
  | .error e, _ => (.error (.execution sql e), p)
  | .ok (), .error e => (.error (.auditLog e), p)
  | .ok (), .ok () => (.ok (), p)

/-- One question. -/
def runQuestion (ask : σ → Except SessionError α × σ) (p : Progress σ τ) :
    Except RunError α × Progress σ τ :=
  ((ask p.session).1.mapError .introspection, { p with session := (ask p.session).2 })

/-- The migration carried out: its result or why it ended, and what it left behind. -/
def run (b : Backend) (session : Session σ) (log : Log τ) :
    Migration α → Progress σ τ → Except RunError α × Progress σ τ
  | done a, p => (.ok a, p)
  | issue statement next, p =>
    match runStatement b session log statement p with
    | (.ok (), p) => next.run b session log p
    | (.error e, p) => (.error e, p)
  | askTable table next, p =>
    match runQuestion (session.tableExists table) p with
    | (.ok answer, p) => (next answer).run b session log p
    | (.error e, p) => (.error e, p)
  | askColumns table next, p =>
    match runQuestion (session.tableColumns table) p with
    | (.ok answer, p) => (next answer).run b session log p
    | (.error e, p) => (.error e, p)
  | askIndex table index next, p =>
    match runQuestion (session.indexExists table index) p with
    | (.ok answer, p) => (next answer).run b session log p
    | (.error e, p) => (.error e, p)

end Migration

end DirectoryTables
