import DirectoryTables.Document.Compiler
import DirectoryTables.Files

/-!
# Documents — Paths

A compiler from documents in files, which are read in the same order as documents given as texts.
In an error a schema document goes by its path.
-/

namespace DirectoryTables

variable {m : Type → Type} [Monad m]

/-- The text of a document in a file. -/
def Files.document (files : Files m) (path : String) : ExceptT ConfigError m String := do
  match ← files.read path with
  | .ok text => return text
  | .error cause => throw (.unreadable path cause)

/-- Where the documents are; without a configuration its defaults hold. -/
structure DocumentPaths where
  config : Option String := none
  schemas : List String := []
  policy : String

namespace DocumentPaths

/-- The configuration. -/
def readConfig (p : DocumentPaths) (files : Files m) : ExceptT ConfigError m Config :=
  match p.config with
  | some path => do
    let text ← files.document path
    ExceptT.mk (pure (Config.ofText text))
  | none => return {}

/-- The schema document in a file. -/
def readSchema (files : Files m) (path : String) : ExceptT ConfigError m SchemaDocument := do
  let text ← files.document path
  ExceptT.mk (pure (SchemaDocument.read path text))

/-- The compiler. -/
def compiler (p : DocumentPaths) (files : Files m) : ExceptT ConfigError m Compiler := do
  let config ← p.readConfig files
  let schemas ← p.schemas.mapM (readSchema files)
  let directory ← ExceptT.mk (pure (Directory.ofDocuments schemas))
  let policyText ← files.document p.policy
  let policy ← ExceptT.mk (pure (Policy.ofText policyText))
  return { config, directory, policy }

end DocumentPaths

end DirectoryTables
