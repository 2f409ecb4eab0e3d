import DirectoryTables.CommandLine.Options
import DirectoryTables.Document.Paths

/-!
# Command line — Invocations

What the program is told to do: where its documents are, what is to replace parts of the
configuration, and a command.
-/

namespace DirectoryTables.CommandLine

/-- The form in which a plan is listed. -/
inductive Format where
  | text
  | json
  deriving DecidableEq

/-- The format with a name. -/
def Format.ofName? (name : String) : Option Format :=
  if name = "text" then some text else if name = "json" then some json else none

/-- The options of the command that plans statements. -/
structure PlanOptions where
  /-- The document of the tables that are there. -/
  existing : Option String := none
  /-- The file to which the statements are appended. -/
  log : Option String := none
  deriving DecidableEq

/-- What is to be printed. -/
inductive Command where
  /-- The statements of a run on a database with certain tables. -/
  | plan (options : PlanOptions)
  /-- The planned tables and subtables. -/
  | tables (format : Format)
  deriving DecidableEq

/-- What replaces parts of the configuration. -/
structure Overrides where
  dialect : Option Dialect := none
  version : Option Version := none
  personTable : Option String := none
  deriving DecidableEq

/-- A configuration with parts of it replaced. -/
def Overrides.apply (o : Overrides) (c : Config) : Config :=
  { c with
    dialect := o.dialect.getD c.dialect
    version := o.version <|> c.version
    personTable := o.personTable.getD c.personTable }

/-- The options before the command. -/
structure Options where
  schemas : List String := []
  policy : Option String := none
  config : Option String := none
  overrides : Overrides := {}
  deriving DecidableEq

/-- What the program is told to do. -/
structure Invocation where
  paths : DocumentPaths
  overrides : Overrides
  command : Command

/-! ### Known options -/

/-- A path, which is not empty. -/
def path? (value : String) : Option String :=
  if value.isEmpty then none else some value

/-- The option for a schema document, which can be given several times. -/
def schemaSetting : Setting Options where
  letter := some 's'
  name := "schema"
  purpose := .value fun value o =>
    match path? value with
    | some path => .ok { o with schemas := o.schemas ++ [path] }
    | none => .error (.valueRefused "schema" value)

/-- The options before the command. -/
def settings : List (Setting Options) := [
  { letter := some 'V', name := "version", purpose := .version },
  schemaSetting,
  .once (some 'i') "index-policy" path? Options.policy fun p o => { o with policy := some p },
  .once (some 'c') "config" path? Options.config fun p o => { o with config := some p },
  .once (some 'd') "dialect" Dialect.parse? (·.overrides.dialect)
    fun d o => { o with overrides := { o.overrides with dialect := some d } },
  .once none "server-version" Version.parse? (·.overrides.version)
    fun v o => { o with overrides := { o.overrides with version := some v } },
  .once none "person-table" some (·.overrides.personTable)
    fun t o => { o with overrides := { o.overrides with personTable := some t } }]

/-- The options of the command that plans statements. -/
def planSettings : List (Setting PlanOptions) := [
  .once none "existing" path? PlanOptions.existing fun p o => { o with existing := some p },
  .once none "log" path? PlanOptions.log fun p o => { o with log := some p }]

/-- The options of the command that lists tables. -/
def tablesSettings : List (Setting (Option Format)) := [
  .once none "format" Format.ofName? id fun f _ => some f]

/-! ### Reading arguments -/

/-- Nothing but the mark that ends the options may be left. -/
def nothingLeft : List String → Except Stop Unit
  | [] | ["--"] => .ok ()
  | "--" :: argument :: _ | argument :: _ => refuse (.unexpected argument)

/-- The command with its options. -/
def Command.ofArguments : List String → Except Stop Command
  | [] => refuse .commandMissing
  | name :: rest =>
    if name = "plan" then do
      let (options, rest) ← readOptions planSettings {} rest
      nothingLeft rest
      return plan options
    else if name = "tables" then do
      let (format, rest) ← readOptions tablesSettings none rest
      nothingLeft rest
      return tables (format.getD .text)
    else refuse (.unexpected name)

/-- What arguments tell the program to do. -/
def Invocation.ofArguments (arguments : List String) : Except Stop Invocation := do
  let (options, rest) ← readOptions settings {} arguments
  let command ← Command.ofArguments rest
  if options.schemas = [] then refuse (.optionMissing "schema")
  match options.policy with
  | some policy =>
    return {
      paths := { config := options.config, schemas := options.schemas, policy }
      overrides := options.overrides
      command }
  | none => refuse (.optionMissing "index-policy")

end DirectoryTables.CommandLine
