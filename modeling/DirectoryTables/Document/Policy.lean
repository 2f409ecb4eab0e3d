import DirectoryTables.ConfigError
import DirectoryTables.Document.Schema
import DirectoryTables.Json.Value
import DirectoryTables.Policy

/-!
# Documents — Index policies

The JSON form of index policies.  In the section of a dialect the key `__common__` holds what
applies to all tables, and every other key is the name of a table.  The values of the tables are
kept as they are until the section ends, and looked at in their order after that.
-/

namespace DirectoryTables

open Json (Decoder Field Record)

/-- The shape of a section for all tables. -/
def CommonPolicy.record : Record CommonPolicy where
  name := "CommonIndexPolicy"
  start := {}
  fields := [
    { name := "fields", read := Decoder.names.map fun fs p => { p with fields := fs } },
    { name := "json", aliases := ["JSON"],
      read := Decoder.names.map fun ts p => { p with json := ts } }]

namespace TablePolicy

/-- A section with one more member, given the members seen before it. -/
def addMember (state : TablePolicy × List String) (member : String × Json.Value) :
    Except Json.Failure (TablePolicy × List String) := do
  let (p, seen) := state
  let (key, value) := member
  if key ∈ seen then Json.mismatch (.duplicateField key)
  else if key = "fields" then return ({ p with fields := ← value.strings? }, key :: seen)
  else if key = "custom" then return ({ p with custom := ← value.strings? }, key :: seen)
  else return (p, seen)

/-- The section for a table that a value holds: an object, or a list of the fields and the
expressions. -/
def ofValue : Json.Value → Except Json.Failure TablePolicy
  | .object members => (·.1) <$> members.foldlM addMember ({}, [])
  | .list [] => return {}
  | .list [fields] => return { fields := ← fields.strings? }
  | .list (fields :: custom :: further) => do
    let p : TablePolicy := { fields := ← fields.strings?, custom := ← custom.strings? }
    if further = [] then return p else Json.mismatch (.tooLong (2 + further.length) 2)
  | v => Json.mismatch (.wrongType v.found (.record "TableIndexPolicy"))

end TablePolicy

namespace DialectPolicy

/-- The key of the section for all tables. -/
def commonKey : String := "__common__"

/-- The part of a section that has been read: what applies to all tables, and the values of single
tables. -/
structure Partial where
  common : Option CommonPolicy := none
  tables : List (String × Json.Value) := []

/-- A section with one more member. -/
def addMember (depth : Nat) (p : Partial) (key : String) (cs : List Char) :
    Except Json.Failure (Partial × List Char) :=
  if key = commonKey then
    if p.common.isSome then Json.mismatch (.duplicateField commonKey)
    else do
      let (common, cs) ← CommonPolicy.record.decoder depth (← Decoder.afterColon cs)
      return ({ p with common := some common }, cs)
  else do
    let (value, cs) ← Json.Value.decoder depth (← Decoder.afterColon cs)
    return ({ p with tables := p.tables ++ [(key, value)] }, cs)

/-- The section for a dialect, which has to be an object. -/
def decoder : Decoder DialectPolicy := fun depth cs =>
  match Json.skipSpace cs with
  | '\x7b' :: rest =>
    Decoder.deeper (fun depth => do
      let (p, cs) ← Decoder.members (addMember depth) (rest.length + 1) true {} rest
      let tables ← p.tables.mapM fun (table, value) => do
        return (table, ← TablePolicy.ofValue value)
      return ({ common := p.common.getD {}, tables := .ofPairs tables }, cs)) depth
  | cs => Json.wrongType (.record "DialectIndexPolicy") cs

end DialectPolicy

namespace Policy

/-- The shape of an index policy. -/
def record : Record Policy where
  name := "IndexPolicy"
  start := {}
  fields := [
    { name := "mysql", read := DialectPolicy.decoder.map fun s p => { p with mysql := s } },
    { name := "pgsql", aliases := ["postgres", "postgresql"],
      read := DialectPolicy.decoder.map fun s p => { p with pgsql := s } },
    { name := "spanner", read := DialectPolicy.decoder.map fun s p => { p with spanner := s } }]

/-- The index policy that a text writes. -/
def ofText (text : String) : Except ConfigError Policy :=
  (record.decoder.document text).mapError (.malformed "index policy")

end Policy

end DirectoryTables
