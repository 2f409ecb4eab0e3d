import DirectoryTables.Bootstrap
import DirectoryTables.Document.Config
import DirectoryTables.Document.Policy

/-!
# Documents — Compiler

A compiler from the texts of its documents.  They are read in a fixed order, and the first one that
cannot be read or merged is reported: the configuration, the schema documents in turn, all of them
merged, the policy.
-/

namespace DirectoryTables

/-- The texts of the documents; what is not given has its defaults. -/
structure DocumentTexts where
  config : Option String := none
  schemas : List String := []
  policy : Option String := none
  /-- A server version known from elsewhere. -/
  version : Option Version := none

namespace DocumentTexts

/-- The configuration. -/
def readConfig (t : DocumentTexts) : Except ConfigError Config := do
  let config ← match t.config with
    | some text => Config.ofText text
    | none => pure {}
  return { config with version := t.version <|> config.version }

/-- The directory. -/
def readDirectory (t : DocumentTexts) : Except ConfigError Directory := do
  Directory.ofDocuments (← t.schemas.mapM SchemaDocument.ofText)

/-- The policy. -/
def readPolicy (t : DocumentTexts) : Except ConfigError Policy :=
  match t.policy with
  | some text => Policy.ofText text
  | none => .ok {}

/-- The compiler. -/
def compiler (t : DocumentTexts) : Except ConfigError Compiler := do
  let config ← t.readConfig
  let directory ← t.readDirectory
  let policy ← t.readPolicy
  return { config, directory, policy }

end DocumentTexts

end DirectoryTables
