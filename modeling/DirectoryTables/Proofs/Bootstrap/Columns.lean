import DirectoryTables.Proofs.Bootstrap.Statements
import DirectoryTables.Proofs.Plan.Coverage
import DirectoryTables.Proofs.Plan.Naming

/-!
# Bootstrap — Columns

Whether the columns that a table is created with have distinct names, letter case aside.

The columns of a table are bookkeeping columns and attributes, and the attributes are looked at for
the names of bookkeeping columns.  Those of a subtable are the two columns of its key and that of
its values, which has the name of an attribute, whatever it is.

* `CreateTable.HasDistinctColumns`: the columns of a created table are distinct.
* `Subtable.hasDistinctColumns_create_iff`: those of a subtable are so unless the values are kept
  under a name of the key.
* `Compiler.created_columns_distinct_iff`: all that a bootstrap can create are so exactly if no
  attribute with subtables has such a name.
-/

namespace DirectoryTables

/-- No two columns of the created table have the same name, letter case aside. -/
def CreateTable.HasDistinctColumns (t : CreateTable) : Prop :=
  (t.columns.map fun column => Text.lower column.name).Nodup

instance (t : CreateTable) : Decidable t.HasDistinctColumns :=
  inferInstanceAs (Decidable (List.Nodup _))

/-- A table is created with the columns that are planned. -/
theorem Table.hasDistinctColumns_create_iff {t : Table} {b : Backend} {personTable : String} :
    (t.create b personTable).HasDistinctColumns ↔ t.HasDistinctColumns := by
  rw [CreateTable.HasDistinctColumns, create, List.map_map]
  rfl

/-- The columns of the key of a subtable are distinct, so only that of the values can clash. -/
theorem Subtable.hasDistinctColumns_create_iff {s : Subtable} :
    s.create.HasDistinctColumns ↔ Text.listsName [docId, rowId] s.valueColumn = false := by
  have hnames : s.create.columns.map (fun column => Text.lower column.name) =
      ([docId, rowId].map Text.lower).concat (Text.lower s.valueColumn) := rfl
  have hkey : ([docId, rowId].map Text.lower).Nodup := by decide
  rw [CreateTable.HasDistinctColumns, hnames, List.nodup_concat, and_iff_left hkey,
    Text.listsName_eq_false_iff]

namespace Compiler

variable {c : Compiler} {plan : Plan}

/-- The tables that a bootstrap can create: those of the plan and the subtables. -/
theorem issues_createTable_iff {create : CreateTable} :
    (∃ columns, c.Issues plan columns (.createTable create)) ↔
      (∃ t ∈ plan.tables, t.create c.config.backend c.config.personTable = create) ∨
        ∃ s ∈ plan.subtables, s.create = create := by
  constructor
  · rintro ⟨columns, h⟩
    generalize hstatement : Statement.createTable create = statement at h
    cases h with
    | table ht => exact .inl ⟨_, ht, (Statement.createTable.inj hstatement).symm⟩
    | subtable hs => exact .inr ⟨_, hs, (Statement.createTable.inj hstatement).symm⟩
    | column | values | valueIndex => cases hstatement
    | @index t statement ht h =>
      have hindexes := Indexing.indexes_of_mem_forTable h
      cases statement with
      | createTable => exact hindexes.elim
      | addColumn | createIndex => cases hstatement
  · rintro (⟨t, ht, rfl⟩ | ⟨s, hs, rfl⟩)
    · exact ⟨_, .table ht⟩
    · exact ⟨_, .subtable hs⟩

/-- **When created columns are distinct.**  The columns that a planned subtable is created with have
distinct names exactly if its values are not kept under a name of its key, letter case aside.  So
those of all tables that some session is told to create have distinct names exactly if no attribute
with subtables is named like a column of their key; the tables of classes always have. -/
theorem created_columns_distinct_iff (hplan : c.plan = .ok plan) :
    (∀ s ∈ plan.subtables, s.create.HasDistinctColumns ↔
      Text.listsName [docId, rowId] s.valueColumn = false) ∧
    ((∀ (σ τ : Type) (session : Session σ) (log : Log τ) (s : σ) (t : τ) (create : CreateTable),
        .createTable create ∈ c.issued session log s t → create.HasDistinctColumns) ↔
      ∀ a ∈ c.directory.attributes.items, a.subtables ≠ [] →
        Text.listsName [docId, rowId] a.name = false) := by
  refine ⟨fun s _ => Subtable.hasDistinctColumns_create_iff, ?_, ?_⟩
  · intro h a ha hroutes
    obtain ⟨parent, hparent⟩ := List.exists_mem_of_ne_nil _ hroutes
    obtain ⟨s, hs, -, hvalues⟩ :=
      Plan.exists_subtable_of_route hplan (Plan.mem_routes_iff.mpr ⟨ha, hparent⟩)
    -- Some session is told to create the subtable of the route.
    obtain ⟨σ, τ, session, log, start, t, hissued⟩ := (issues_iff hplan).mp ⟨_, .subtable hs⟩
    rw [← hvalues, ← Subtable.hasDistinctColumns_create_iff]
    exact h σ τ session log start t s.create hissued
  · intro h σ τ session log start t create hissued
    have hissues := (issues_iff hplan).mpr ⟨σ, τ, session, log, start, t, hissued⟩
    obtain ⟨t, ht, rfl⟩ | ⟨s, hs, rfl⟩ := issues_createTable_iff.mp hissues
    · exact Table.hasDistinctColumns_create_iff.mpr (Plan.hasDistinctColumns_of_planned hplan ht)
    · obtain ⟨a, ha, hparent, hname, -⟩ := Plan.exists_route_of_subtable hplan hs
      rw [Subtable.hasDistinctColumns_create_iff, hname]
      exact h a ha (List.ne_nil_of_mem hparent)

theorem created_columns_distinct_iff_sharedMail :
    sharedMail.plan = .ok Plan.sharedMailPlan ∧
      ∀ (σ τ : Type) (session : Session σ) (log : Log τ) (s : σ) (t : τ) (create : CreateTable),
        .createTable create ∈ sharedMail.issued session log s t → create.HasDistinctColumns := by
  have hplan : sharedMail.plan = .ok Plan.sharedMailPlan := rfl
  exact ⟨hplan, (created_columns_distinct_iff hplan).2.mpr (by decide)⟩

/-- A document with an attribute that has subtables and the name of a column of their key. -/
def numberedRows (name : String) : SchemaDocument where
  attributes := [{ names := [name], subtables := ["person"] }]
  classes := [{ names := ["person"] }]

/-- A subtable can be created with two columns of one name, here in different letter case. -/
theorem not_created_columns_distinct :
    ¬ ∀ docs (c : Compiler) plan, Directory.ofDocuments docs = .ok c.directory →
      c.plan = .ok plan → ∀ s ∈ plan.subtables, s.create.HasDistinctColumns := by
  intro h
  have hdistinct := h [numberedRows "DOC_ID"] { directory := _ } _ rfl rfl
    { parent := "person", valueColumn := "DOC_ID", valueType := .text } (List.mem_singleton_self _)
  exact absurd hdistinct (by decide)

end Compiler

end DirectoryTables
