import DirectoryTables.Json.Printer
import DirectoryTables.Plan

/-!
# Plans — Listings

A plan as it is shown to a person, with a line for every column (`Plan.listing`), and as a JSON
document (`Plan.document`).  Types are written as the backend writes them.
-/

namespace DirectoryTables

namespace Column

/-- The line of a column. -/
def listing (b : Backend) (c : Column) : String :=
  "  " ++ c.name ++ " " ++ b.typeSql c.type ++ "\n"

/-- The JSON form of a column. -/
def document (b : Backend) (c : Column) : Json.Value :=
  .object [("name", .string c.name), ("type", .string (b.typeSql c.type))]

end Column

namespace Plan

/-- A heading with the lines of columns below it. -/
def block (b : Backend) (heading : String) (columns : List Column) : String :=
  heading ++ "\n" ++ String.join (columns.map (Column.listing b))

/-- The tables and then the subtables, each with its columns. -/
def listing (b : Backend) (p : Plan) : String :=
  String.join (p.tables.map fun t => block b t.name t.columns) ++
    String.join (p.subtables.map fun s =>
      block b (s.name ++ " (subtable of " ++ s.parent ++ ")") s.columns)

/-- The JSON form of columns. -/
def columnsDocument (b : Backend) (columns : List Column) : Json.Value :=
  .list (columns.map (Column.document b))

/-- The JSON form of a plan; the keys of every object are in ascending order. -/
def document (b : Backend) (p : Plan) : Json.Value :=
  .object [
    ("dialect", .string b.dialect.name),
    ("subtables", .list (p.subtables.map fun s =>
      .object [("columns", columnsDocument b s.columns), ("name", .string s.name),
        ("parent", .string s.parent)])),
    ("tables", .list (p.tables.map fun t =>
      .object [("columns", columnsDocument b t.columns), ("name", .string t.name)]))]

end Plan

end DirectoryTables
