import DirectoryTables.Plan
import DirectoryTables.Policy

/-!
# Indexing

The statements that index a table by a policy.  A column is selected by the policy for all tables
or for this one, or because the directory indexes it and it can have several values.  A selected
column gets an index of its own; a selected JSON column gets what the backend offers for it.  The
expressions of the policy for the table follow, and at last the unique index of the person table,
where creating the table did not declare it.
-/

namespace DirectoryTables.Indexing

/-- Whether a column of a table is selected, letter case aside. -/
def isSelected (d : Directory) (c : Config) (p : DialectPolicy) (table column : String) : Bool :=
  Text.listsName p.common.fields column || Text.listsName (p.tableFields table) column ||
    Text.listsName (c.indexedAttributes.filter d.isMultivalued) column

/-! ### JSON columns -/

/-- One index for each template of the policy. -/
def functionalIndexes (b : Backend) (p : DialectPolicy) (table column : String) :
    List Statement :=
  p.common.json.zipIdx.map fun (template, position) =>
    .createIndex (.expression
      (table ++ "_" ++ column ++ "_json_" ++ Text.decimal (position + 1)) table
      (Policy.fillTemplate template (b.quote column)) .jsonPath)

/-- The name of a shadow column. -/
def shadowName (column : String) (position : Nat) : String :=
  column ++ "_mem_idx_" ++ Text.decimal position

/-- The generated column that holds one position of an array. -/
def shadowColumn (b : Backend) (c : Config) (column : String) (position : Nat) : ColumnDef where
  name := shadowName column position
  type := .varchar c.shadowSize
  generated := some
    (b.quote column ++ "->>'" ++ c.jsonArrayPath ++ "[" ++ Text.decimal position ++ "]'")

/-- A generated column for each of the first positions, each followed by its index. -/
def shadowIndexes (b : Backend) (c : Config) (table column : String) : List Statement :=
  (List.range c.shadowPositions.toNat).flatMap fun position =>
    let shadow := shadowName column position
    [.addColumn { table, column := shadowColumn b c column position },
      .createIndex (.plain (table ++ "_" ++ shadow) table { name := shadow })]

/-- What indexes a JSON column. -/
def jsonIndexes (b : Backend) (c : Config) (p : DialectPolicy) (table column : String) :
    List Statement :=
  match b.jsonIndexing with
  | .functional => functionalIndexes b p table column
  | .shadowColumns => shadowIndexes b c table column
  | .unsupported => []

/-! ### Tables -/

/-- What indexes a column. -/
def columnIndexes (d : Directory) (c : Config) (p : DialectPolicy) (table : String)
    (column : Column) : List Statement :=
  if column.name = docId || !isSelected d c p table column.name then []
  else if column.type.isJsonCapable then jsonIndexes c.backend c p table column.name
  else [.createIndex (.plain (table ++ "_" ++ column.name ++ "Idx") table
    (column.keyPart c.backend c.textPrefixLength))]

/-- The indexes over the expressions of the policy for a table. -/
def customIndexes (p : DialectPolicy) (table : String) : List Statement :=
  (p.custom table).zipIdx.map fun (sql, position) =>
    .createIndex (.expression (table ++ "_CustomIdx" ++ Text.decimal (position + 1)) table sql
      .custom)

/-- The unique index of the person table, on a backend that cannot declare it inline. -/
def uniqueIndexes (c : Config) (t : Table) : List Statement :=
  if !c.backend.hasInlineUnique && t.name == c.personTable then
    (t.column? uid).toList.map fun column =>
      .createIndex (.unique (t.name ++ "_unique_uuid") t.name column.name)
  else []

/-- The statements that index a table. -/
def forTable (d : Directory) (c : Config) (policy : Policy) (t : Table) : List Statement :=
  let p := policy.forDialect c.dialect
  t.columns.flatMap (columnIndexes d c p t.name) ++ customIndexes p t.name ++ uniqueIndexes c t

/-- The statements that index several tables. -/
def forTables (d : Directory) (c : Config) (policy : Policy) (tables : List Table) :
    List Statement :=
  tables.flatMap (forTable d c policy)

end DirectoryTables.Indexing
