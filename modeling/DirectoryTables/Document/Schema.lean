import DirectoryTables.Directory
import DirectoryTables.Document.Types

/-!
# Documents — Schemas

The JSON form of schema documents.
-/

namespace DirectoryTables

open Json (Decoder Field Record)

/-- A list of names. -/
def Json.Decoder.names : Decoder (List String) :=
  Decoder.string.list

namespace Attribute

/-- The shape of an attribute. -/
def record : Record Attribute where
  name := "AttributeDef"
  start := {}
  fields := [
    { name := "names", required := true,
      read := Decoder.names.map fun ns a => { a with names := ns } },
    { name := "syntax", read := Decoder.string.optional.map fun s a => { a with syntaxId := s } },
    { name := "size", read := Decoder.word.optional.map fun n a => { a with size := n } },
    { name := "multivalued", read := Decoder.boolean.map fun b a => { a with multivalued := b } },
    { name := "sql", read := DialectTypes.decoder.optional.map fun t a => { a with sql := t } },
    { name := "addToTables", read := Decoder.names.map fun ts a => { a with alwaysIn := ts } },
    { name := "subtables", read := Decoder.names.map fun ts a => { a with subtables := ts } }]

end Attribute

namespace ObjectClass

/-- The shape of an object class. -/
def record : Record ObjectClass where
  name := "ObjectClassDef"
  start := {}
  fields := [
    { name := "names", required := true,
      read := Decoder.names.map fun ns c => { c with names := ns } },
    { name := "parents", aliases := ["sup"],
      read := Decoder.names.map fun ps c => { c with parents := ps } },
    { name := "merge", read := Decoder.names.map fun ms c => { c with merged := ms } },
    { name := "may", read := Decoder.names.map fun ms c => { c with may := ms } },
    { name := "include", read := Decoder.names.map fun is c => { c with included := is } },
    { name := "ignore", read := Decoder.boolean.map fun b c => { c with ignored := b } }]

end ObjectClass

namespace SchemaDocument

/-- The shape of a schema document. -/
def record : Record SchemaDocument where
  name := "SchemaDocument"
  start := {}
  fields := [
    { name := "attributeTypes",
      read := Attribute.record.decoder.list.map fun as d => { d with attributes := as } },
    { name := "objectClasses",
      read := ObjectClass.record.decoder.list.map fun cs d => { d with classes := cs } }]

/-- The schema document that a text writes; `source` is what an error calls it. -/
def read (source text : String) : Except ConfigError SchemaDocument :=
  (record.decoder.document text).mapError (.malformed source)

/-- The schema document that a text writes. -/
def ofText (text : String) : Except ConfigError SchemaDocument :=
  read "schema document" text

end SchemaDocument

end DirectoryTables
