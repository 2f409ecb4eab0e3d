import DirectoryTables.ColumnType

/-!
# Statements

The three kinds of statements that change a database: create a table, add a column, create an
index.  They are kept as data; their SQL text is written by `Backend.render`.
-/

namespace DirectoryTables

/-- A column in a statement. -/
structure ColumnDef where
  name : String
  type : ColumnType
  notNull : Bool := false
  /-- The expression that computes the column, for a generated one. -/
  generated : Option String := none
  deriving DecidableEq, Inhabited

/-- Create a table. -/
structure CreateTable where
  name : String
  columns : List ColumnDef
  primaryKey : List String
  /-- Columns declared unique in the statement. -/
  unique : List String := []
  /-- The table whose rows own the rows of this one. -/
  parent : Option String := none
  deriving DecidableEq, Inhabited

/-- Add a column to a table. -/
structure AddColumn where
  table : String
  column : ColumnDef
  deriving DecidableEq, Inhabited

/-- What an index is for. -/
inductive IndexKind where
  | plain
  | unique
  /-- An expression over a JSON column. -/
  | jsonPath
  /-- An expression given by the policy. -/
  | custom
  deriving DecidableEq, Inhabited

/-- A column as part of the key of an index. -/
structure KeyPart where
  name : String
  /-- How many characters of the column are indexed, if not all. -/
  prefixLength : Option UInt32 := none
  deriving DecidableEq, Inhabited

/-- The key of an index. -/
inductive IndexKey where
  | columns (parts : List KeyPart)
  | expression (sql : String)
  deriving DecidableEq, Inhabited

/-- Create an index on a table. -/
structure CreateIndex where
  name : String
  table : String
  key : IndexKey
  kind : IndexKind := .plain
  deriving DecidableEq, Inhabited

namespace CreateIndex

/-- An index on one column. -/
def plain (name table : String) (part : KeyPart) : CreateIndex :=
  { name, table, key := .columns [part] }

/-- A unique index on one column. -/
def unique (name table column : String) : CreateIndex :=
  { name, table, key := .columns [{ name := column }], kind := .unique }

/-- An index over an expression. -/
def expression (name table sql : String) (kind : IndexKind) : CreateIndex :=
  { name, table, key := .expression sql, kind }

end CreateIndex

/-- A statement that changes the database. -/
inductive Statement where
  | createTable (create : CreateTable)
  | addColumn (add : AddColumn)
  | createIndex (index : CreateIndex)
  deriving DecidableEq, Inhabited

namespace Statement

/-- The table a statement creates or changes. -/
def table : Statement → String
  | createTable create => create.name
  | addColumn add => add.table
  | createIndex index => index.table

/-- The words a statement is counted under. -/
def verb : Statement → String
  | createTable _ => "CREATE TABLE"
  | addColumn _ => "ALTER TABLE"
  | createIndex _ => "CREATE INDEX"

end Statement

end DirectoryTables
