import DirectoryTables.Proofs.Bootstrap.Unique
import DirectoryTables.Proofs.Migration.Statements

/-!
# Bootstrap — Statements

The statements that a bootstrap can issue from a plan, with the columns that the plan has for the
table each of them is about (`Compiler.Issues`): tables and subtables are created or extended, the
values of a subtable are indexed when it is created, and the index plan is applied under fitted
names.

These are exactly the statements that some session is handed (`Compiler.issues_iff`).
-/

namespace DirectoryTables

/-- A bootstrap by the plan can issue the statement, for a table that is planned with the
columns. -/
inductive Compiler.Issues (c : Compiler) (plan : Plan) : List Column → Statement → Prop
  | table {t : Table} (ht : t ∈ plan.tables) :
      Issues c plan t.columns (.createTable (t.create c.config.backend c.config.personTable))
  | column {t : Table} {column : Column} (ht : t ∈ plan.tables) (hcolumn : column ∈ t.columns) :
      Issues c plan t.columns (.addColumn { table := t.name, column := column.declaration })
  | subtable {s : Subtable} (hs : s ∈ plan.subtables) :
      Issues c plan s.columns (.createTable s.create)
  | values {s : Subtable} (hs : s ∈ plan.subtables) :
      Issues c plan s.columns (.addColumn { table := s.name, column := s.values.declaration })
  | valueIndex {s : Subtable} (hs : s ∈ plan.subtables) :
      Issues c plan s.columns
        ((Statement.createIndex (s.index c.config.backend c.config.textPrefixLength)).fitted
          c.config.backend)
  | index {t : Table} {statement : Statement} (ht : t ∈ plan.tables)
      (h : statement ∈ Indexing.forTable c.directory c.config c.policy t) :
      Issues c plan t.columns (statement.fitted c.config.backend)

/-- What holds of all statements for a plan, said of each planned object. -/
theorem Compiler.forall_issues_iff {c : Compiler} {plan : Plan}
    {P : List Column → Statement → Prop} :
    (∀ columns statement, c.Issues plan columns statement → P columns statement) ↔
      (∀ t ∈ plan.tables,
        P t.columns (.createTable (t.create c.config.backend c.config.personTable)) ∧
        (∀ column ∈ t.columns,
          P t.columns (.addColumn { table := t.name, column := column.declaration })) ∧
        ∀ statement ∈ Indexing.forTable c.directory c.config c.policy t,
          P t.columns (statement.fitted c.config.backend)) ∧
      ∀ s ∈ plan.subtables,
        P s.columns (.createTable s.create) ∧
        P s.columns (.addColumn { table := s.name, column := s.values.declaration }) ∧
        P s.columns ((Statement.createIndex
          (s.index c.config.backend c.config.textPrefixLength)).fitted c.config.backend) := by
  constructor
  · intro h
    refine ⟨fun t ht => ⟨h _ _ (.table ht), fun column hcolumn => h _ _ (.column ht hcolumn),
      fun statement hs => h _ _ (.index ht hs)⟩, fun s hs => ?_⟩
    exact ⟨h _ _ (.subtable hs), h _ _ (.values hs), h _ _ (.valueIndex hs)⟩
  · rintro ⟨htables, hsubtables⟩ columns statement h
    cases h with
    | table ht => exact (htables _ ht).1
    | column ht hcolumn => exact (htables _ ht).2.1 _ hcolumn
    | index ht h => exact (htables _ ht).2.2 _ h
    | subtable hs => exact (hsubtables _ hs).1
    | values hs => exact (hsubtables _ hs).2.1
    | valueIndex hs => exact (hsubtables _ hs).2.2

namespace Bootstrap

open Migration

variable {b : Backend} {c : Config} {statement : Statement}

/-! ### Single objects -/

theorem canIssue_createTableIfAbsent {t : CreateTable} :
    (createTableIfAbsent t).CanIssue statement ↔ .createTable t = statement := by
  simp [createTableIfAbsent, CanIssue]

theorem canReturn_createTableIfAbsent (t : CreateTable) (created : Bool) :
    (createTableIfAbsent t).CanReturn created := by
  refine ⟨!created, ?_⟩
  cases created <;> rfl

theorem canIssue_createIndexIfAbsent {i : CreateIndex} :
    (createIndexIfAbsent b i).CanIssue statement ↔
      (Statement.createIndex i).fitted b = statement := by
  simp [createIndexIfAbsent, CanIssue, Statement.fitted]

/-- Whether a table has a column is for the session to say. -/
theorem canIssue_hasColumn_bind {α : Type} {table column : String} {k : Bool → Migration α} :
    (Migration.hasColumn table column >>= k).CanIssue statement ↔
      (k false).CanIssue statement ∨ (k true).CanIssue statement := by
  have hreturn : ∀ present, (Migration.hasColumn table column).CanReturn present := by
    intro present
    cases present with
    | true => exact ⟨[column], by simp [CanReturn, Text.listsName]⟩
    | false => exact ⟨[], rfl⟩
  have hissue : ¬ (Migration.hasColumn table column).CanIssue statement := by
    rintro ⟨columns, h⟩
    exact h
  simp [canIssue_bind, hissue, hreturn]

theorem canIssue_addColumn {table : String} {column : ColumnDef} :
    (Migration.addColumn table column).CanIssue statement ↔
      .addColumn { table, column } = statement := by
  simp [Migration.addColumn, CanIssue]

/-- A statement is issued under its fitted name, if at all. -/
theorem canIssue_applyIfAbsent {s : Statement} :
    (applyIfAbsent b s).CanIssue statement ↔ s.fitted b = statement := by
  cases s with
  | createTable t => exact canIssue_createTableIfAbsent
  | createIndex i => exact canIssue_createIndexIfAbsent
  | addColumn a =>
    rw [applyIfAbsent, canIssue_hasColumn_bind, if_pos rfl, if_neg Bool.false_ne_true,
      canIssue_bind_pure, canIssue_addColumn, or_iff_left (not_canIssue_pure _)]
    rfl

/-! ### Tables and subtables -/

theorem canIssue_addMissing {table : String} {present : List String} {columns : List Column} :
    (addMissing table present columns).CanIssue statement ↔
      ∃ column ∈ columns, Text.listsName present column.name = false ∧
        .addColumn { table, column := column.declaration } = statement := by
  induction columns with
  | nil => simp [addMissing, not_canIssue_pure]
  | cons column columns ih =>
    rw [addMissing, List.exists_mem_cons_iff, ← ih]
    cases h : Text.listsName present column.name with
    | true => simp
    | false =>
      rw [if_neg Bool.false_ne_true, canIssue_bind_of_forall fun _ => canIssue_bind_pure,
        canIssue_addColumn]
      simp

/-- What follows the question whether a table is there issues the same as after both answers. -/
theorem canIssue_createTableIfAbsent_bind {α : Type} {t : CreateTable} {k : Bool → Migration α} :
    (createTableIfAbsent t >>= k).CanIssue statement ↔
      .createTable t = statement ∨ (k false).CanIssue statement ∨ (k true).CanIssue statement := by
  simp [canIssue_bind, canIssue_createTableIfAbsent, canReturn_createTableIfAbsent]

/-- The columns of a table can be added where the session lists none. -/
theorem canIssue_materializeTable {t : Table} :
    (materializeTable b c t).CanIssue statement ↔
      .createTable (t.create b c.personTable) = statement ∨
        ∃ column ∈ t.columns,
          .addColumn { table := t.name, column := column.declaration } = statement := by
  rw [materializeTable, canIssue_createTableIfAbsent_bind, if_neg Bool.false_ne_true, if_pos rfl,
    or_iff_left (not_canIssue_pure _)]
  refine or_congr_right ⟨?_, ?_⟩
  · rintro ⟨present, h⟩
    obtain ⟨column, hcolumn, -, rfl⟩ := canIssue_addMissing.mp (canIssue_bind_pure.mp h)
    exact ⟨column, hcolumn, rfl⟩
  · rintro ⟨column, hcolumn, rfl⟩
    exact ⟨[], canIssue_bind_pure.mpr (canIssue_addMissing.mpr ⟨column, hcolumn, rfl, rfl⟩)⟩

theorem canIssue_materializeSubtable {s : Subtable} :
    (materializeSubtable b c s).CanIssue statement ↔
      .createTable s.create = statement ∨
        .addColumn { table := s.name, column := s.values.declaration } = statement ∨
        (Statement.createIndex (s.index b c.textPrefixLength)).fitted b = statement := by
  rw [materializeSubtable, canIssue_createTableIfAbsent_bind, if_neg Bool.false_ne_true,
    if_pos rfl, canIssue_hasColumn_bind, if_neg Bool.false_ne_true, if_pos rfl,
    or_iff_left (not_canIssue_pure _), canIssue_bind_pure, canIssue_addColumn, canIssue_bind_pure,
    canIssue_createIndexIfAbsent]

end Bootstrap

namespace Compiler

open Bootstrap Migration

variable {c : Compiler} {plan : Plan} {statement : Statement}

/-- The first stage reports on the tables of the plan, whatever it is answered. -/
theorem tables_eq_of_canReturn {schema : SchemaReport}
    (h : (c.materialize plan).CanReturn schema) : schema.tables = plan.tables := by
  rw [materialize, Bootstrap.materialize, canReturn_bind] at h
  obtain ⟨tables, -, h⟩ := h
  obtain ⟨subtables, -, h⟩ := canReturn_bind.mp h
  rw [← canReturn_pure.mp h]
  rfl

theorem canIssue_materialize :
    (c.materialize plan).CanIssue statement ↔
      (∃ t ∈ plan.tables,
        (materializeTable c.config.backend c.config t).CanIssue statement) ∨
      ∃ s ∈ plan.subtables,
        (materializeSubtable c.config.backend c.config s).CanIssue statement := by
  rw [materialize, Bootstrap.materialize,
    canIssue_bind_of_forall fun _ => canIssue_bind_pure, canIssue_mapM, canIssue_mapM]

theorem canIssue_applyIndexes {tables : List Table} :
    (c.applyIndexes tables).CanIssue statement ↔
      ∃ s ∈ c.indexPlan tables, s.fitted c.config.backend = statement := by
  refine canIssue_foldlM (P := fun s : Statement => s.fitted c.config.backend = statement) ?_ _
  exact fun _ _ => canIssue_bind_pure.trans canIssue_applyIfAbsent

theorem canIssue_migration :
    (c.migration plan).CanIssue statement ↔ ∃ columns, c.Issues plan columns statement := by
  rw [migration, canIssue_bind, canIssue_materialize]
  constructor
  · rintro ((⟨t, ht, h⟩ | ⟨s, hs, h⟩) | ⟨schema, hschema, h⟩)
    · obtain rfl | ⟨column, hcolumn, rfl⟩ := canIssue_materializeTable.mp h
      · exact ⟨_, .table ht⟩
      · exact ⟨_, .column ht hcolumn⟩
    · obtain rfl | rfl | rfl := canIssue_materializeSubtable.mp h
      · exact ⟨_, .subtable hs⟩
      · exact ⟨_, .values hs⟩
      · exact ⟨_, .valueIndex hs⟩
    · rw [canIssue_bind_pure, canIssue_applyIndexes, tables_eq_of_canReturn hschema] at h
      obtain ⟨s, hs, rfl⟩ := h
      obtain ⟨t, ht, hs⟩ := List.mem_flatMap.mp hs
      exact ⟨_, .index ht hs⟩
  · rintro ⟨columns, h⟩
    cases h with
    | table ht => exact .inl (.inl ⟨_, ht, canIssue_materializeTable.mpr (.inl rfl)⟩)
    | column ht hcolumn =>
      exact .inl (.inl ⟨_, ht, canIssue_materializeTable.mpr (.inr ⟨_, hcolumn, rfl⟩)⟩)
    | subtable hs => exact .inl (.inr ⟨_, hs, canIssue_materializeSubtable.mpr (.inl rfl)⟩)
    | values hs => exact .inl (.inr ⟨_, hs, canIssue_materializeSubtable.mpr (.inr (.inl rfl))⟩)
    | valueIndex hs =>
      exact .inl (.inr ⟨_, hs, canIssue_materializeSubtable.mpr (.inr (.inr rfl))⟩)
    | index ht h =>
      obtain ⟨schema, hschema⟩ := exists_canReturn (c.materialize plan)
      refine .inr ⟨schema, hschema, ?_⟩
      rw [canIssue_bind_pure, canIssue_applyIndexes, tables_eq_of_canReturn hschema]
      exact ⟨_, List.mem_flatMap.mpr ⟨_, ht, h⟩, rfl⟩

/-- **The statements of a bootstrap.**  Some session is handed a statement in a bootstrap by the
plan exactly if the plan gives rise to it. -/
theorem issues_iff (hplan : c.plan = .ok plan) :
    (∃ columns, c.Issues plan columns statement) ↔
      ∃ (σ τ : Type) (session : Session σ) (log : Log τ) (s : σ) (t : τ),
        statement ∈ c.issued session log s t := by
  rw [← canIssue_migration]
  constructor
  · intro h
    obtain ⟨answers, hrun⟩ := exists_executed_of_canIssue h c.config.backend
    refine ⟨_, _, .scripted, .memory, answers, [], ?_⟩
    rw [issued, trace, bootstrap_session hplan]
    have hexecuted := hrun { session := (answers, []), log := [] } rfl
    exact List.mem_map.mpr ⟨_, List.mem_filterMap.mpr ⟨_, hexecuted, rfl⟩, rfl⟩
  · rintro ⟨σ, τ, session, log, s, t, h⟩
    obtain ⟨⟨sql, _⟩, hhanded, rfl⟩ := List.mem_map.mp h
    obtain ⟨event, hevent, e⟩ := List.mem_filterMap.mp hhanded
    rw [trace, bootstrap_session hplan] at hevent
    cases event with
    | executed sql statement answer =>
      cases e
      exact canIssue_of_executed rfl hevent
    | askedTable | askedColumns | askedIndex => cases e

end Compiler

end DirectoryTables
