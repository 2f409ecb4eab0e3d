import DirectoryTables.Catalog
import DirectoryTables.Document.Schema

/-!
# Documents — Catalogs

The JSON form of the tables that a database has: the names of their columns, by the names of the
tables.
-/

namespace DirectoryTables.Catalog

/-- The catalog with the given tables, which have no indexes. -/
def ofTables (tables : Dict (List String)) : Catalog :=
  tables.entries.foldl (fun c (name, columns) => c.withTable name columns) empty

/-- The catalog that a text writes. -/
def ofText (text : String) : Except Json.Failure Catalog :=
  (Json.Decoder.names.dict.map ofTables).document text

end DirectoryTables.Catalog
