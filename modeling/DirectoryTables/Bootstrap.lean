import DirectoryTables.Indexing
import DirectoryTables.Migration.Run

/-!
# Bootstrap

Bringing a database up to a plan.  First the missing tables and columns, then the missing
subtables (`materialize`), then the missing indexes (`applyIndexes`); nothing is ever dropped or
changed.  `Compiler.bootstrap` does all of it for a directory, after its plan was found without an
error.
-/

namespace DirectoryTables

/-! ### Tables -/

/-- What became of one planned table: whether it was created, and the columns added to it. -/
structure TableChange where
  table : String
  created : Bool := false
  added : List String := []
  deriving DecidableEq

/-- What became of the planned tables and subtables. -/
structure SchemaReport where
  tables : List Table := []
  subtables : List Subtable := []
  /-- The tables and subtables that were created. -/
  createdTables : List String := []
  /-- The columns that were added, each with its table. -/
  addedColumns : List (String × String) := []
  deriving DecidableEq, Inhabited

namespace SchemaReport

/-- The report on a plan from what became of its parts. -/
def ofChanges (plan : Plan) (changes : List TableChange) : SchemaReport where
  tables := plan.tables
  subtables := plan.subtables
  createdTables := (changes.filter (·.created)).map TableChange.table
  addedColumns := changes.flatMap fun change => change.added.map (change.table, ·)

end SchemaReport

namespace Bootstrap

/-- Add the columns that are not among those present.  Says which they were. -/
def addMissing (table : String) (present : List String) : List Column → Migration (List String)
  | [] => return []
  | column :: columns => do
    if Text.listsName present column.name then addMissing table present columns
    else
      Migration.addColumn table column.declaration
      return column.name :: (← addMissing table present columns)

/-- Create a table, or add the columns it lacks. -/
def materializeTable (b : Backend) (c : Config) (t : Table) : Migration TableChange := do
  if ← Migration.createTableIfAbsent (t.create b c.personTable) then
    return { table := t.name, created := true }
  let present ← Migration.askColumns t.name .done
  return { table := t.name, added := ← addMissing t.name present t.columns }

/-- Create a subtable and its index, or add the column of the values if the subtable lacks it. -/
def materializeSubtable (b : Backend) (c : Config) (s : Subtable) : Migration TableChange := do
  if ← Migration.createTableIfAbsent s.create then
    let _ ← Migration.createIndexIfAbsent b (s.index b c.textPrefixLength)
    return { table := s.name, created := true }
  if ← Migration.hasColumn s.name s.valueColumn then return { table := s.name }
  Migration.addColumn s.name s.values.declaration
  return { table := s.name, added := [s.valueColumn] }

/-- Create and extend the tables of a plan, then its subtables. -/
def materialize (b : Backend) (c : Config) (plan : Plan) : Migration SchemaReport := do
  let tables ← plan.tables.mapM (materializeTable b c)
  let subtables ← plan.subtables.mapM (materializeSubtable b c)
  return .ofChanges plan (tables ++ subtables)

end Bootstrap

/-! ### Indexes -/

/-- What became of the planned indexes. -/
structure IndexReport where
  /-- The indexes that were created, under their fitted names. -/
  created : List String := []
  /-- The shadow columns that were added. -/
  shadowColumns : List String := []
  /-- How many statements were left out because their object was there. -/
  skipped : Nat := 0
  deriving DecidableEq, Inhabited

namespace IndexReport

/-- The report with one more statement, issued or left out. -/
def add (b : Backend) (r : IndexReport) (statement : Statement) (issued : Bool) : IndexReport :=
  if issued then
    match statement with
    | .createIndex index => { r with created := r.created ++ [b.fit index.name] }
    | .addColumn add => { r with shadowColumns := r.shadowColumns ++ [add.column.name] }
    | .createTable _ => r
  else { r with skipped := r.skipped + 1 }

end IndexReport

namespace Bootstrap

/-- Issue the statements whose object is not there. -/
def applyIndexes (b : Backend) (statements : List Statement) : Migration IndexReport :=
  statements.foldlM (fun report statement => do
    return report.add b statement (← Migration.applyIfAbsent b statement)) {}

end Bootstrap

/-! ### The whole run -/

/-- What a whole run did. -/
structure Report where
  schema : SchemaReport
  indexes : IndexReport
  /-- How many statements were issued. -/
  statements : Nat
  deriving DecidableEq, Inhabited

/-- A directory with the configuration and the policy to compile it by. -/
structure Compiler where
  config : Config := {}
  directory : Directory := .empty
  policy : Policy := {}
  deriving Inhabited

namespace Compiler

/-- The compiler for a known server version. -/
def withVersion (c : Compiler) (v : Version) : Compiler :=
  { c with config := c.config.withVersion v }

/-- The tables and subtables. -/
def plan (c : Compiler) : Except ConfigError Plan :=
  Plan.ofDirectory c.directory c.config

/-- The statements that index tables. -/
def indexPlan (c : Compiler) (tables : List Table) : List Statement :=
  Indexing.forTables c.directory c.config c.policy tables

/-- The stage that makes the tables of a plan. -/
def materialize (c : Compiler) (plan : Plan) : Migration SchemaReport :=
  Bootstrap.materialize c.config.backend c.config plan

/-- The stage that indexes tables. -/
def applyIndexes (c : Compiler) (tables : List Table) : Migration IndexReport :=
  Bootstrap.applyIndexes c.config.backend (c.indexPlan tables)

/-- Both stages for a plan. -/
def migration (c : Compiler) (plan : Plan) : Migration (SchemaReport × IndexReport) := do
  let schema ← c.materialize plan
  let indexes ← c.applyIndexes schema.tables
  return (schema, indexes)

/-- The whole run on a session: plan, make the tables, index them, and flush the log. -/
def bootstrap {σ τ : Type} (c : Compiler) (session : Session σ) (log : Log τ) (s : σ) (t : τ) :
    Except RunError Report × Progress σ τ :=
  let start : Progress σ τ := { session := s, log := t }
  match c.plan with
  | .error e => (.error (.config e), start)
  | .ok plan =>
    match (c.migration plan).run c.config.backend session log start with
    | (.error e, p) => (.error e, p)
    | (.ok (schema, indexes), p) =>
      let flushed := log.flush p.log
      let p := { p with log := flushed.2 }
      match flushed.1 with
      | .error e => (.error (.auditLog e), p)
      | .ok () => (.ok { schema, indexes, statements := p.issued }, p)

end Compiler

end DirectoryTables
