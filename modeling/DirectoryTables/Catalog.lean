import DirectoryTables.Dict
import DirectoryTables.Statement
import DirectoryTables.Text.Case

/-!
# Catalogs

What a database knows of its tables: their columns in order and the names of their indexes.
`Catalog.apply` carries out a statement, or refuses it the way a server would; a refused statement
changes nothing.
-/

namespace DirectoryTables

/-- Why a database refuses to answer. -/
inductive SessionError where
  /-- The object to create is there already. -/
  | duplicate (object : String)
  | noSuchTable (table : String)
  /-- The database reports an error. -/
  | database (reason : String)
  /-- The connection to the database fails. -/
  | backend (reason : String)
  deriving DecidableEq

/-- What is said of a session error. -/
def SessionError.message : SessionError → String
  | duplicate object => "duplicate object: " ++ object
  | noSuchTable table => "no such table: " ++ table
  | database reason => "database error: " ++ reason
  | backend reason => reason

/-- A table as the catalog knows it. -/
structure CatalogTable where
  columns : List String := []
  /-- The names of the indexes. -/
  indexes : Dict Unit := .empty
  deriving DecidableEq, Inhabited

namespace CatalogTable

/-- Whether the table has a column, letter case aside. -/
def hasColumn (t : CatalogTable) (name : String) : Bool :=
  Text.listsName t.columns name

/-- Whether the table has an index of exactly this name. -/
def hasIndex (t : CatalogTable) (name : String) : Bool :=
  t.indexes.contains name

/-- The table with an index. -/
def withIndex (t : CatalogTable) (name : String) : CatalogTable :=
  { t with indexes := t.indexes.insert name () }

/-- The first column of a key that the table lacks. -/
def missingPart? (t : CatalogTable) : IndexKey → Option KeyPart
  | .columns parts => parts.find? fun p => !t.hasColumn p.name
  | .expression _ => none

end CatalogTable

/-- The tables of a database, by name. -/
structure Catalog where
  tables : Dict CatalogTable
  deriving DecidableEq, Inhabited

namespace Catalog

/-- The catalog without tables. -/
def empty : Catalog := ⟨.empty⟩

/-- The table with a name. -/
def table? (c : Catalog) (name : String) : Option CatalogTable :=
  c.tables.get? name

/-- The catalog with a table under a name. -/
def set (c : Catalog) (name : String) (t : CatalogTable) : Catalog :=
  ⟨c.tables.insert name t⟩

/-- Whether there is a table with a name. -/
def hasTable (c : Catalog) (name : String) : Bool :=
  (c.table? name).isSome

/-- The columns of a table; none for one that is not there. -/
def columns (c : Catalog) (name : String) : List String :=
  ((c.table? name).map CatalogTable.columns).getD []

/-- Whether a table has an index. -/
def hasIndex (c : Catalog) (table index : String) : Bool :=
  (c.table? table).any (·.hasIndex index)

/-- The names of the indexes of a table, in ascending order. -/
def indexes (c : Catalog) (name : String) : List String :=
  ((c.table? name).map fun t => t.indexes.keys).getD []

/-! ### Seeding -/

/-- The catalog with further columns in a table, which is made if need be. -/
def withTable (c : Catalog) (name : String) (columns : List String) : Catalog :=
  let t := (c.table? name).getD {}
  c.set name { t with columns := t.columns ++ columns }

/-- The catalog with an index on a table; nothing changes without the table. -/
def withIndex (c : Catalog) (table index : String) : Catalog :=
  match c.table? table with
  | some t => c.set table (t.withIndex index)
  | none => c

/-! ### Statements -/

/-- The catalog with a table created: its name is new and its parent is there. -/
def createTable (c : Catalog) (t : CreateTable) : Except SessionError Catalog :=
  if c.hasTable t.name then .error (.duplicate t.name)
  else
    match t.parent.filter fun parent => !c.hasTable parent with
    | some parent => .error (.noSuchTable parent)
    | none => .ok (c.set t.name { columns := t.columns.map ColumnDef.name })

/-- The catalog with a column added at the end of a table that lacks it. -/
def addColumn (c : Catalog) (a : AddColumn) : Except SessionError Catalog :=
  match c.table? a.table with
  | none => .error (.noSuchTable a.table)
  | some t =>
    if t.hasColumn a.column.name then .error (.duplicate (a.table ++ "." ++ a.column.name))
    else .ok (c.set a.table { t with columns := t.columns ++ [a.column.name] })

/-- The catalog with an index on a table that lacks it and has the columns of its key. -/
def createIndex (c : Catalog) (i : CreateIndex) : Except SessionError Catalog :=
  match c.table? i.table with
  | none => .error (.noSuchTable i.table)
  | some t =>
    if t.hasIndex i.name then .error (.duplicate i.name)
    else
      match t.missingPart? i.key with
      | some part => .error (.database ("unknown column " ++ part.name ++ " in " ++ i.table))
      | none => .ok (c.set i.table (t.withIndex i.name))

/-- The catalog after a statement. -/
def apply (c : Catalog) : Statement → Except SessionError Catalog
  | .createTable create => c.createTable create
  | .addColumn add => c.addColumn add
  | .createIndex index => c.createIndex index

end Catalog

end DirectoryTables
