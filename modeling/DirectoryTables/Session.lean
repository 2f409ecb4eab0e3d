import DirectoryTables.Catalog
import DirectoryTables.Version

/-!
# Sessions

A session runs statements on a database and answers questions about its catalog.  It is given by
what each call answers and how it changes a state, whatever that state is, so statements about
every database are statements about every session.

`Database` is a database held in memory; `Session.interrupted` makes any calls of a session fail
without an effect.
-/

namespace DirectoryTables

/-- The calls of a session with states in `σ`. -/
structure Session (σ : Type) where
  /-- Run a statement, given as text and as data. -/
  execute : String → Statement → σ → Except SessionError Unit × σ
  /-- Whether there is a table. -/
  tableExists : String → σ → Except SessionError Bool × σ
  /-- The columns of a table, in order. -/
  tableColumns : String → σ → Except SessionError (List String) × σ
  /-- Whether a table has an index. -/
  indexExists : (table index : String) → σ → Except SessionError Bool × σ
  /-- The version of the server, if the session can tell. -/
  serverVersion : σ → Except SessionError (Option Version) × σ := fun s => (.ok none, s)

/-! ### A database in memory -/

/-- A database held in memory: its catalog, the statements it was given, and its version. -/
structure Database where
  catalog : Catalog := .empty
  /-- The verb and the text of every statement, refused ones included. -/
  history : List (String × String) := []
  version : Option Version := none
  deriving DecidableEq, Inhabited

namespace Database

/-- A statement on the database.  It is recorded whether it is accepted or not. -/
def execute (sql : String) (statement : Statement) (db : Database) :
    Except SessionError Unit × Database :=
  let db := { db with history := db.history ++ [(statement.verb, sql)] }
  match db.catalog.apply statement with
  | .ok catalog => (.ok (), { db with catalog })
  | .error e => (.error e, db)

/-- The texts of all statements. -/
def executed (db : Database) : List String :=
  db.history.map Prod.snd

/-- How many statements were given under a verb. -/
def count (db : Database) (verb : String) : Nat :=
  (db.history.filter fun entry => entry.1 == verb).length

/-- The database without its history. -/
def forget (db : Database) : Database :=
  { db with history := [] }

/-- The session with a database in memory. -/
def session : Session Database where
  execute := execute
  tableExists table db := (.ok (db.catalog.hasTable table), db)
  tableColumns table db := (.ok (db.catalog.columns table), db)
  indexExists table index db := (.ok (db.catalog.hasIndex table index), db)
  serverVersion db := (.ok db.version, db)

end Database

/-! ### Interruptions -/

/-- A call of a session. -/
inductive Call where
  | execute (sql : String) (statement : Statement)
  | tableExists (table : String)
  | tableColumns (table : String)
  | indexExists (table index : String)
  deriving DecidableEq

/-- The table a call is about. -/
def Call.table : Call → String
  | execute _ statement => statement.table
  | tableExists table | tableColumns table | indexExists table _ => table

namespace Session

variable {σ α : Type}

/-- A call with its number, which fails without an effect where `fails` gives an error. -/
def numbered (fails : Nat → Call → Option SessionError) (call : Call)
    (answer : σ → Except SessionError α × σ) (s : σ × Nat) : Except SessionError α × (σ × Nat) :=
  match fails s.2 call with
  | some e => (.error e, (s.1, s.2 + 1))
  | none => ((answer s.1).1, ((answer s.1).2, s.2 + 1))

/-- The session in which those calls fail, without an effect, for which `fails` gives an error.
Calls are numbered from zero. -/
def interrupted (fails : Nat → Call → Option SessionError) (session : Session σ) :
    Session (σ × Nat) where
  execute sql statement := numbered fails (.execute sql statement) (session.execute sql statement)
  tableExists table := numbered fails (.tableExists table) (session.tableExists table)
  tableColumns table := numbered fails (.tableColumns table) (session.tableColumns table)
  indexExists table index :=
    numbered fails (.indexExists table index) (session.indexExists table index)

end Session

end DirectoryTables
