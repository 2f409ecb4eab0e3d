import DirectoryTables.Statement.Sql

/-!
# Tables and subtables

What is planned for the database: a table for each object class, and a subtable for each attribute
whose values have rows of their own.  Every table starts with three columns that are no
attributes (`bookkeeping`).
-/

namespace DirectoryTables

/-- A planned column. -/
structure Column where
  name : String
  type : ColumnType
  deriving DecidableEq, Inhabited

/-- The column that numbers the rows of a subtable. -/
def rowId : String := "dict_doc_id"

/-- The column of the object classes of an entry. -/
def objectClassColumn : String := "objectClass"

/-- The column of the name of an entry. -/
def entryNameColumn : String := "dn"

/-- The attribute that is unique in the person table. -/
def uid : String := "uid"

/-- The columns every table starts with. -/
def bookkeeping : List Column :=
  [⟨docId, .varchar 64⟩, ⟨objectClassColumn, .varchar 48⟩, ⟨entryNameColumn, .varchar 128⟩]

/-- Whether a name is that of a bookkeeping column, letter case aside. -/
def isBookkeeping (name : String) : Bool :=
  Text.listsName (bookkeeping.map Column.name) name

/-- The column as it is declared: the column that identifies rows is not null. -/
def Column.declaration (c : Column) : ColumnDef :=
  { name := c.name, type := c.type, notNull := c.name == docId }

/-- A column in the key of an index: a text column by a prefix where the backend needs one. -/
def Column.keyPart (c : Column) (b : Backend) (prefixLength : UInt32) : KeyPart :=
  { name := c.name
    prefixLength := if c.type.isText && b.needsTextPrefix then some prefixLength else none }

/-- The table of an object class. -/
structure Table where
  name : String
  columns : List Column
  deriving DecidableEq, Inhabited

namespace Table

/-- The column with a name, letter case aside. -/
def column? (t : Table) (name : String) : Option Column :=
  t.columns.find? (Text.sameName ·.name name)

/-- The columns that are attributes. -/
def attributeColumns (t : Table) : List Column :=
  t.columns.filter fun c => !isBookkeeping c.name

/-- The statement that creates the table.  In the person table `uid` is unique where the backend
can declare it. -/
def create (t : Table) (b : Backend) (personTable : String) : CreateTable where
  name := t.name
  columns := t.columns.map Column.declaration
  primaryKey := [docId]
  unique :=
    if b.hasInlineUnique && t.name == personTable then
      (t.column? uid).toList.map Column.name
    else []

end Table

/-- The table of the values of an attribute, owned by the rows of another table. -/
structure Subtable where
  parent : String
  /-- The attribute; also the name of the column of the values. -/
  valueColumn : String
  valueType : ColumnType
  deriving DecidableEq, Inhabited

namespace Subtable

/-- The name of the subtable. -/
def name (s : Subtable) : String :=
  s.parent ++ "_" ++ s.valueColumn

/-- The name of the index on the values. -/
def indexName (s : Subtable) : String :=
  s.name ++ "Idx"

/-- The column of the values. -/
def values (s : Subtable) : Column :=
  ⟨s.valueColumn, s.valueType⟩

/-- The columns in order. -/
def columns (s : Subtable) : List Column :=
  [⟨docId, .varchar 64⟩, ⟨rowId, .varchar 64⟩, s.values]

/-- The index on the values. -/
def index (s : Subtable) (b : Backend) (prefixLength : UInt32) : CreateIndex :=
  .plain s.indexName s.name (s.values.keyPart b prefixLength)

/-- The statement that creates the subtable. -/
def create (s : Subtable) : CreateTable where
  name := s.name
  columns := [
    { name := docId, type := .varchar 64, notNull := true },
    { name := rowId, type := .varchar 64, notNull := true },
    s.values.declaration]
  primaryKey := [docId, rowId]
  parent := some s.parent

end Subtable

end DirectoryTables
