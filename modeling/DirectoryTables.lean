import DirectoryTables.Main
import DirectoryTables.Proofs.Catalog.Growth
import DirectoryTables.Proofs.Migration.Course
import DirectoryTables.Proofs.Bootstrap.Steps
import DirectoryTables.Proofs.Bootstrap.Pass
import DirectoryTables.Proofs.Bootstrap.Planned
import DirectoryTables.Proofs.Bootstrap.Course
import DirectoryTables.Proofs.Bootstrap.Convergence
import DirectoryTables.Proofs.Bootstrap.Interruption
import DirectoryTables.Proofs.Bootstrap.Resumption
import DirectoryTables.Proofs.Backend.Fitting
import DirectoryTables.Proofs.Bootstrap.Checks
import DirectoryTables.Proofs.Bootstrap.Failure
import DirectoryTables.Proofs.Bootstrap.Additive
import DirectoryTables.Proofs.Plan.Tables
import DirectoryTables.Proofs.Plan.Coverage
import DirectoryTables.Proofs.Directory.Documents
import DirectoryTables.Proofs.Registry.Places
import DirectoryTables.Proofs.Directory.Attributes
import DirectoryTables.Proofs.Directory.Classes
import DirectoryTables.Proofs.Plan.References
import DirectoryTables.Proofs.Plan.Routing
import DirectoryTables.Proofs.Plan.Naming
import DirectoryTables.Proofs.Registry.Latest
import DirectoryTables.Proofs.Directory.OwnNames
import DirectoryTables.Proofs.Plan.OwnNames
import DirectoryTables.Proofs.Migration.Audit
import DirectoryTables.Proofs.Bootstrap.Audit
import DirectoryTables.Proofs.Text.Lines
import DirectoryTables.Proofs.Statement.Lines
import DirectoryTables.Proofs.Typing.Lines
import DirectoryTables.Proofs.Plan.Lines
import DirectoryTables.Proofs.Bootstrap.Lines
import DirectoryTables.Proofs.Plan.Outline
import DirectoryTables.Proofs.Catalog.Agreement
import DirectoryTables.Proofs.Bootstrap.Independence
import DirectoryTables.Proofs.Catalog.Changes
import DirectoryTables.Proofs.Bootstrap.Report
import DirectoryTables.Proofs.Plan.UniqueIndex
import DirectoryTables.Proofs.Bootstrap.Unique
import DirectoryTables.Proofs.Plan.IndexClashes
import DirectoryTables.Proofs.Plan.IndexPlan
import DirectoryTables.Proofs.Plan.ShadowColumns
import DirectoryTables.Proofs.Bootstrap.Objects
import DirectoryTables.Proofs.Bootstrap.Fresh
import DirectoryTables.Proofs.Migration.Statements
import DirectoryTables.Proofs.Plan.IndexKeys
import DirectoryTables.Proofs.Bootstrap.Statements
import DirectoryTables.Proofs.Bootstrap.Keys
import DirectoryTables.Proofs.Plan.IndexedAttributes
import DirectoryTables.Proofs.Plan.IndexGrowth
import DirectoryTables.Proofs.Typing.Precedence
import DirectoryTables.Proofs.Typing.Syntaxes
import DirectoryTables.Proofs.Typing.Values
import DirectoryTables.Proofs.Plan.Aliases
import DirectoryTables.Proofs.Text.Values
import DirectoryTables.Proofs.Statement.Types
import DirectoryTables.Proofs.Bootstrap.Columns
import DirectoryTables.Proofs.Bootstrap.Names
import DirectoryTables.Proofs.Backend.Collisions
import DirectoryTables.Proofs.Backend.Boundaries
import DirectoryTables.Proofs.Bootstrap.Fitted
import DirectoryTables.Proofs.Catalog.Refusal
import DirectoryTables.Proofs.Migration.Absence
import DirectoryTables.Proofs.Version.Reading
import DirectoryTables.Proofs.Backend.Quoting
