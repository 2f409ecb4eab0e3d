import DirectoryTables.Backend
import DirectoryTables.Statement
import DirectoryTables.Text.Joined

/-!
# Statements — SQL

The SQL text of types, columns and statements (`Backend.render`).  An index is written under its
fitted name; on the tables of MySQL and PostgreSQL a parent is a foreign key, on Spanner's the
tables are interleaved.
-/

namespace DirectoryTables

/-- The column by which rows are identified. -/
def docId : String := "doc_id"

namespace Backend

/-- The SQL text of a type. -/
def typeSql (b : Backend) : ColumnType → String
  | .varchar size =>
    (match b.dialect with
      | .spanner => "STRING("
      | .mysql | .pgsql => "VARCHAR(") ++ Text.decimal32 size ++ ")"
  | .mediumText =>
    match b.dialect with
    | .mysql => "TINYTEXT"
    | .pgsql => "TEXT"
    | .spanner => "STRING(MAX)"
  | .text =>
    match b.dialect with
    | .mysql | .pgsql => "TEXT"
    | .spanner => "STRING(MAX)"
  | .boolean =>
    match b.dialect with
    | .mysql => "SMALLINT"
    | .pgsql => "BOOLEAN"
    | .spanner => "BOOL"
  | .integer =>
    match b.dialect with
    | .mysql | .pgsql => "INT"
    | .spanner => "INT64"
  | .bigInt =>
    match b.dialect with
    | .mysql | .pgsql => "BIGINT"
    | .spanner => "INT64"
  | .json =>
    match b.dialect with
    | .mysql | .spanner => "JSON"
    | .pgsql => "JSONB"
  | .array element =>
    match b.dialect with
    | .mysql => "JSON"
    | .pgsql => "JSONB"
    | .spanner => "ARRAY<" ++ b.typeSql element ++ ">"
  | .other sql => sql

/-- A column as it is declared.  A generated column is stored, except on MySQL. -/
def columnSql (b : Backend) (c : ColumnDef) : String :=
  let generated :=
    match c.generated with
    | some expression =>
      " GENERATED ALWAYS AS (" ++ expression ++ ")" ++
        (match b.dialect with
          | .pgsql | .spanner => " STORED"
          | .mysql => "")
    | none => ""
  b.quote c.name ++ " " ++ b.typeSql c.type ++ generated ++ (if c.notNull then " NOT NULL" else "")

/-- Names in a row. -/
def nameList (b : Backend) (names : List String) : String :=
  Text.commaJoined (names.map b.quote)

/-- The text that creates a table. -/
def createTableSql (b : Backend) (t : CreateTable) : String :=
  let columns := t.columns.map b.columnSql
  match b.dialect with
  | .spanner =>
    let parent :=
      match t.parent with
      | some parent => ", INTERLEAVE IN PARENT " ++ b.quote parent ++ " ON DELETE CASCADE"
      | none => ""
    "CREATE TABLE " ++ b.quote t.name ++ " (" ++ Text.commaJoined columns ++ ") PRIMARY KEY (" ++
      b.nameList t.primaryKey ++ ")" ++ parent
  | .mysql | .pgsql =>
    let primaryKey := "PRIMARY KEY (" ++ b.nameList t.primaryKey ++ ")"
    let unique := t.unique.map fun column => "UNIQUE (" ++ b.quote column ++ ")"
    let parent :=
      match t.parent with
      | some parent =>
        ["FOREIGN KEY (" ++ b.quote docId ++ ") REFERENCES " ++ b.quote parent ++ "(" ++
          b.quote docId ++ ") ON DELETE CASCADE"]
      | none => []
    "CREATE TABLE " ++ b.quote t.name ++ " (" ++
      Text.commaJoined (columns ++ primaryKey :: unique ++ parent) ++ ")"

/-- The text that adds a column. -/
def addColumnSql (b : Backend) (a : AddColumn) : String :=
  "ALTER TABLE " ++ b.quote a.table ++ " ADD COLUMN " ++ b.columnSql a.column

/-- A column in the key of an index; only a backend that needs prefixes writes them. -/
def keyPartSql (b : Backend) (p : KeyPart) : String :=
  match p.prefixLength with
  | some length =>
    if b.needsTextPrefix then b.quote p.name ++ "(" ++ Text.decimal32 length ++ ")"
    else b.quote p.name
  | none => b.quote p.name

/-- The key of an index, as it follows the name of the table. -/
def indexKeySql (b : Backend) (kind : IndexKind) : IndexKey → String
  | .columns parts => "(" ++ Text.commaJoined (parts.map b.keyPartSql) ++ ")"
  | .expression sql =>
    match b.dialect, kind with
    | .spanner, _ => "(" ++ sql ++ ")"
    | .pgsql, .jsonPath => " USING GIN(" ++ sql ++ ")"
    | _, _ => "((" ++ sql ++ "))"

/-- The words that create an index of a kind. -/
def indexHead (b : Backend) (kind : IndexKind) : String :=
  match kind, b.dialect with
  | .unique, .spanner => "CREATE UNIQUE NULL_FILTERED INDEX "
  | .unique, _ => "CREATE UNIQUE INDEX "
  | _, _ => "CREATE INDEX "

/-- The text that creates an index, under its fitted name. -/
def createIndexSql (b : Backend) (i : CreateIndex) : String :=
  b.indexHead i.kind ++ b.quote (b.fit i.name) ++ " ON " ++ b.quote i.table ++
    b.indexKeySql i.kind i.key

/-- The SQL text of a statement. -/
def render (b : Backend) : Statement → String
  | .createTable create => b.createTableSql create
  | .addColumn add => b.addColumnSql add
  | .createIndex index => b.createIndexSql index

end Backend

end DirectoryTables
