import DirectoryTables.Config
import DirectoryTables.ConfigError
import DirectoryTables.Document.Schema

/-!
# Documents — Configuration

The JSON form of the configuration.  A dialect is a name, or an object whose one key is the name
and whose value is `null`; a server version is a text.
-/

namespace DirectoryTables

open Json (Decoder Field Record)

namespace Dialect

/-- All names of dialects, in ascending order. -/
def names : List String :=
  ["mysql", "pg", "pgsql", "postgres", "postgresql", "spanner"]

/-- The dialect with an exact name. -/
def named (name : String) : Except Json.Failure Dialect :=
  match ofName? name with
  | some d => .ok d
  | none => Json.mismatch (.unknownVariant name names)

/-- The name of a variant, as the one key of an object. -/
def variantKey (cs : List Char) : Except Json.Failure (String × List Char) :=
  match Json.skipSpace cs with
  | [] => Json.fault .endInObject
  | c :: rest =>
    if c = '\x22' then Json.orFault (Json.readString rest)
    else if c = '\x7d' then Json.fault .expectedValue
    else Json.fault .keyNotString

/-- A dialect. -/
def decoder : Decoder Dialect := fun depth cs =>
  match Json.skipSpace cs with
  | [] => Json.fault .endInValue
  | c :: rest =>
    if c = '\x22' then do
      let (name, rest) ← Json.orFault (Json.readString rest)
      return (← named name, rest)
    else if c = '\x7b' then
      Decoder.deeper (fun depth => do
        let (name, rest) ← variantKey rest
        let d ← named name
        let (_, rest) ← Decoder.unit depth (← Decoder.afterColon rest)
        match Json.skipSpace rest with
        | [] => Json.fault .endInObject
        | c :: rest => if c = '\x7d' then return (d, rest) else Json.fault .expectedValue) depth
    else Json.fault .expectedValue

end Dialect

namespace Version

/-- A server version. -/
def decoder : Decoder Version := fun depth cs => do
  let (text, cs) ← Decoder.string depth cs
  match parse? text with
  | some v => return (v, cs)
  | none => Json.mismatch (.refused (invalidVersionMessage text))

end Version

namespace Config

/-- The shape of a configuration. -/
def record : Record Config where
  name := "SchemaCompilerConfig"
  start := {}
  fields := [
    { name := "dialect", read := Dialect.decoder.map fun d c => { c with dialect := d } },
    { name := "server_version",
      read := Version.decoder.optional.map fun v c => { c with version := v } },
    { name := "person_table", read := Decoder.string.map fun t c => { c with personTable := t } },
    { name := "root_object_classes",
      read := Decoder.names.map fun ns c => { c with rootClasses := ns } },
    { name := "type_overrides",
      read := DialectTypes.decoder.dict.map fun ts c => { c with typeOverrides := ts } },
    { name := "syntax_types",
      read := DialectTypes.decoder.dict.map fun ts c => { c with syntaxTypes := ts } },
    { name := "directory_indexed_attributes",
      read := Decoder.names.map fun ns c => { c with indexedAttributes := ns } },
    { name := "text_index_prefix",
      read := Decoder.word.map fun n c => { c with textPrefixLength := n } },
    { name := "shadow_positions",
      read := Decoder.word.map fun n c => { c with shadowPositions := n } },
    { name := "shadow_column_size",
      read := Decoder.word.map fun n c => { c with shadowSize := n } },
    { name := "json_array_path",
      read := Decoder.string.map fun s c => { c with jsonArrayPath := s } }]

/-- The configuration that a text writes. -/
def ofText (text : String) : Except ConfigError Config :=
  (record.decoder.document text).mapError (.malformed "compiler configuration")

end Config

end DirectoryTables
