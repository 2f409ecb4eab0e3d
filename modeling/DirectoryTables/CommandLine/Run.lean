import DirectoryTables.CommandLine.Invocation
import DirectoryTables.Document.Catalog
import DirectoryTables.Plan.Listing

/-!
# Command line — Runs

What the program prints for its arguments, and why it fails.  Statements are planned by a run on a
database held in memory, so no command changes anything but the log file it is told to append to.
-/

namespace DirectoryTables.CommandLine

/-- Why the program fails. -/
inductive ProgramError where
  | usage (cause : UsageError)
  | config (cause : ConfigError)
  | run (cause : RunError)
  | file (cause : FileError)
  /-- The document of the existing tables cannot be read. -/
  | existing (cause : Json.Failure)

/-- What is said of a failed program. -/
def ProgramError.message : ProgramError → String
  | usage cause => cause.message
  | config cause => cause.message
  | run cause => cause.message
  | file cause => cause.message
  | existing cause => cause.message

/-- What the program prints, and why it failed if it did. -/
structure Outcome where
  output : String := ""
  failure : Option ProgramError := none

namespace Outcome

/-- A failure with nothing printed. -/
def failed (e : ProgramError) : Outcome := { failure := some e }

/-- The number the program ends with. -/
def exitCode (o : Outcome) : UInt8 :=
  match o.failure with
  | none => 0
  | some (.usage _) => 2
  | some _ => 1

/-- The line that reports a failure. -/
def report (o : Outcome) : String :=
  match o.failure with
  | none => ""
  | some e => "Error: " ++ e.message ++ "\n"

end Outcome

/-! ### Tables -/

/-- The planned tables in a format. -/
def listing (c : Compiler) (plan : Plan) : Format → String
  | .text => plan.listing c.config.backend
  | .json => (plan.document c.config.backend).pretty 0 ++ "\n"

/-- The command that lists tables. -/
def tables (c : Compiler) (format : Format) : Outcome :=
  match c.plan with
  | .ok plan => { output := listing c plan format }
  | .error e => .failed (.config e)

/-! ### Statements -/

/-- The statements of a run on a database with the given tables. -/
def statements (c : Compiler) (catalog : Catalog) : Except RunError (List String) :=
  let start : Database := { catalog }
  let (outcome, reached) := c.bootstrap Database.session Log.memory start []
  outcome.map fun _ => reached.log

variable {m : Type → Type} [Monad m]

/-- The catalog that a document describes; without one there are no tables. -/
def readCatalog (files : Files m) : Option String → ExceptT ProgramError m Catalog
  | none => return .empty
  | some path => do
    match ← files.read path with
    | .error e => throw (.file e)
    | .ok text =>
      match Catalog.ofText text with
      | .error e => throw (.existing e)
      | .ok catalog => return catalog

/-- Print statements, and append each of them to a log file, which is kept at the end. -/
def printLogged (files : Files m) (log : String) : List String → m Outcome
  | [] => do
    match ← files.sync log with
    | .error e => return .failed (.file e)
    | .ok () => return {}
  | statement :: rest => do
    let printed := statement ++ ";\n"
    match ← files.append log (Log.line statement) with
    | .error e => return { output := printed, failure := some (.file e) }
    | .ok () =>
      let further ← printLogged files log rest
      return { further with output := printed ++ further.output }

/-- Print statements, and append them to a log file if there is one. -/
def printStatements (files : Files m) (statements : List String) : Option String → m Outcome
  | none => return { output := String.join (statements.map (· ++ ";\n")) }
  | some log => do
    match ← files.openAppend log with
    | .error e => return .failed (.file e)
    | .ok () => printLogged files log statements

/-- The command that plans statements. -/
def plan (files : Files m) (c : Compiler) (options : PlanOptions) : m Outcome := do
  match ← (readCatalog files options.existing).run with
  | .error e => return .failed e
  | .ok catalog =>
    match statements c catalog with
    | .error e => return .failed (.run e)
    | .ok statements => printStatements files statements options.log

/-! ### The program -/

/-- The line that names the program and its version. -/
def versionLine : String := "dirsql 0.1.0\n"

/-- What an invocation does. -/
def Invocation.run (files : Files m) (i : Invocation) : m Outcome := do
  match ← (i.paths.compiler files).run with
  | .error e => return .failed (.config e)
  | .ok c =>
    let c := { c with config := i.overrides.apply c.config }
    match i.command with
    | .plan options => plan files c options
    | .tables format => return tables c format

/-- What the program does with its arguments. -/
def run (files : Files m) (arguments : List String) : m Outcome :=
  match Invocation.ofArguments arguments with
  | .error .versionAsked => return { output := versionLine }
  | .error (.wrong e) => return .failed (.usage e)
  | .ok i => i.run files

end DirectoryTables.CommandLine
