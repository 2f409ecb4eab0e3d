import DirectoryTables.Json.Decoder
import DirectoryTables.TypeEntry

/-!
# Documents — Types

The JSON form of type entries and of the types of the dialects.
-/

namespace DirectoryTables

open Json (Decoder Field Record)

namespace TypeEntry

/-- The shape of an entry, given a reader for the entries of single tables. -/
def record (tables : Decoder (Dict TypeEntry)) : Record TypeEntry where
  name := "TypeEntry"
  start := plain ""
  fields := [
    { name := "type", read := Decoder.string.map fun s e => mk s e.size e.tables },
    { name := "size", read := Decoder.word.optional.map fun n e => mk e.typeName n e.tables },
    { name := "tables", read := tables.map fun ts e => mk e.typeName e.size ts }]

/-- Entries in entries to a given number of levels. -/
def nested : Nat → Decoder TypeEntry
  | 0 => fun _ _ => Json.fault .tooDeep
  | levels + 1 => (record (nested levels).dict).decoder

/-- A type entry.  An entry inside an entry opens two objects, so there are fewer levels of them
than may be open. -/
def decoder : Decoder TypeEntry :=
  nested (Json.maxDepth + 1)

end TypeEntry

namespace DialectTypes

/-- The shape of the types of the dialects. -/
def record : Record DialectTypes where
  name := "DialectTypes"
  start := {}
  fields := [
    { name := "mysql", read := TypeEntry.decoder.optional.map fun e t => { t with mysql := e } },
    { name := "pgsql", read := TypeEntry.decoder.optional.map fun e t => { t with pgsql := e } },
    { name := "spanner",
      read := TypeEntry.decoder.optional.map fun e t => { t with spanner := e } }]

/-- The types of the dialects. -/
def decoder : Decoder DialectTypes :=
  record.decoder

end DialectTypes

end DirectoryTables
