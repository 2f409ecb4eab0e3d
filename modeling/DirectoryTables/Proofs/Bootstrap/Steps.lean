import DirectoryTables.Bootstrap
import DirectoryTables.Proofs.Migration.Course
import DirectoryTables.Proofs.Plan.Columns

/-!
# Bootstrap — Steps

A bootstrap is a list of steps, one for each planned table, each planned subtable and each
statement of the index plan.  What a step issues is a function of the catalog it meets
(`Step.statements`), so the effect of a bootstrap on a catalog is that of its steps in turn
(`Pass`), and the course of the migration is its pass (`course_of_pass`).

* A step is *settled* on a catalog that has all it is for; it then issues nothing
  (`Step.statements_of_settled`), and stays settled as the catalog grows.
* A step is *ready* on a catalog that has what its statements rely on; they are then accepted, and
  leave it settled (`Step.exists_applyAll`).
-/

namespace DirectoryTables

/-- The statement with the name of an index fitted. -/
def Statement.fitted (b : Backend) : Statement → Statement
  | .createIndex index => .createIndex { index with name := b.fit index.name }
  | s => s

namespace Catalog

/-- Whether the tables and columns a statement relies on are there. -/
def Supports (c : Catalog) : Statement → Prop
  | .createTable t => ∀ parent, t.parent = some parent → c.hasTable parent = true
  | .addColumn a => c.hasTable a.table = true
  | .createIndex i => c.hasTable i.table = true ∧
      ∀ parts, i.key = .columns parts → ∀ p ∈ parts, c.hasColumn i.table p.name = true

theorem supports_plain {c : Catalog} {name table : String} {part : KeyPart}
    (h : c.hasColumn table part.name = true) :
    c.Supports (.createIndex (.plain name table part)) :=
  ⟨hasTable_of_hasColumn h, fun parts e p hp => by
    cases e
    obtain rfl := List.mem_singleton.mp hp
    exact h⟩

theorem supports_unique {c : Catalog} {name table column : String}
    (h : c.hasColumn table column = true) :
    c.Supports (.createIndex (.unique name table column)) :=
  ⟨hasTable_of_hasColumn h, fun parts e p hp => by
    cases e
    obtain rfl := List.mem_singleton.mp hp
    exact h⟩

theorem supports_expression {c : Catalog} {name table sql : String} {kind : IndexKind}
    (h : c.hasTable table = true) : c.Supports (.createIndex (.expression name table sql kind)) :=
  ⟨h, fun parts e => by cases e⟩

/-- A table that is not there, and whose parent is, can be created. -/
theorem exists_apply_createTable {c : Catalog} {t : CreateTable} (h : c.hasTable t.name = false)
    (hp : ∀ parent, t.parent = some parent → c.hasTable parent = true) :
    ∃ c', c.apply (.createTable t) = .ok c' ∧
      c'.table? t.name = some { columns := t.columns.map ColumnDef.name } :=
  ⟨_, createTable_eq_ok_iff.mpr ⟨h, hp, rfl⟩, table?_set_self _ _ _⟩

/-- A supported statement whose object is not there is accepted under its fitted name, and then
its object is there. -/
theorem exists_apply_fitted {b : Backend} {c : Catalog} {s : Statement} (hs : c.Supports s)
    (hb : c.holds b s = false) : ∃ c', c.apply (s.fitted b) = .ok c' ∧ c'.holds b s = true := by
  cases s with
  | createTable t =>
    obtain ⟨c', happ, ht⟩ := exists_apply_createTable hb hs
    exact ⟨c', happ, hasTable_of_table? ht⟩
  | addColumn a =>
    obtain ⟨t, ht⟩ := hasTable_iff.mp hs
    rw [holds, hasColumn_of_table? ht] at hb
    refine ⟨_, addColumn_eq_ok_iff.mpr ⟨t, ht, hb, rfl⟩, ?_⟩
    rw [holds, hasColumn_of_table? (table?_set_self _ _ _), CatalogTable.hasColumn,
      Text.listsName_iff_mem]
    simp
  | createIndex i =>
    obtain ⟨t, ht⟩ := hasTable_iff.mp hs.1
    rw [holds, hasIndex_of_table? ht] at hb
    have hkey : t.missingPart? i.key = none := CatalogTable.missingPart?_eq_none_iff.mpr
      fun parts hparts p hp => hasColumn_of_table? ht p.name ▸ hs.2 parts hparts p hp
    refine ⟨_, createIndex_eq_ok_iff.mpr ⟨t, ht, hb, hkey, rfl⟩, ?_⟩
    rw [holds, hasIndex_of_table? (table?_set_self _ _ _), CatalogTable.hasIndex_withIndex]
    simp

/-! ### Several columns of one table -/

/-- The statements that add columns to a table. -/
def additions (table : String) (columns : List Column) : List Statement :=
  columns.map fun column => .addColumn { table, column := column.declaration }

/-- Columns with different names that a table lacks can be added to it. -/
theorem applyAll_additions {table : String} {columns : List Column} {c : Catalog}
    {t : CatalogTable} (ht : c.table? table = some t)
    (hd : (columns.map fun column => Text.lower column.name).Nodup)
    (hn : ∀ column ∈ columns, t.hasColumn column.name = false) :
    ∃ c', c.applyAll (additions table columns) = .ok c' ∧
      c'.table? table = some { t with columns := t.columns ++ columns.map Column.name } := by
  induction columns generalizing c t with
  | nil => exact ⟨c, rfl, by simpa using ht⟩
  | cons column columns ih =>
    rw [List.map_cons, List.nodup_cons] at hd
    have hc : t.hasColumn column.declaration.name = false := hn column List.mem_cons_self
    obtain ⟨c', happ, ht'⟩ := ih (t := { t with columns := t.columns ++ [column.name] })
      (c := c.set table { t with columns := t.columns ++ [column.name] })
      (table?_set_self _ _ _) hd.2 fun other ho => by
        -- still missing: its name is not that of the column that was added
        have := hn other (List.mem_cons_of_mem _ ho)
        rw [CatalogTable.hasColumn, Text.listsName_eq_false_iff] at this ⊢
        simp only [List.map_append, List.map_cons, List.map_nil, List.mem_append,
          List.mem_singleton, not_or]
        exact ⟨this, fun e => hd.1 (List.mem_map.mpr ⟨other, ho, e⟩)⟩
    refine ⟨c', applyAll_cons_eq_ok_iff.mpr ⟨_, addColumn_eq_ok_iff.mpr ⟨t, ht, hc, rfl⟩, happ⟩, ?_⟩
    simpa using ht'

/-- The columns that a table lacks, letter case aside. -/
def missing (c : Catalog) (table : String) (columns : List Column) : List Column :=
  columns.filter fun column => !c.hasColumn table column.name

theorem missing_eq_nil_iff {c : Catalog} {table : String} {columns : List Column} :
    c.missing table columns = [] ↔ ∀ column ∈ columns, c.hasColumn table column.name = true := by
  simp [missing, List.filter_eq_nil_iff]

/-- The columns that a table lacks can be added to it, and then it has them all. -/
theorem exists_applyAll_missing {table : String} (columns : List Column) {c : Catalog}
    (h : c.hasTable table = true) (hd : (columns.map fun column => Text.lower column.name).Nodup) :
    ∃ c', c.applyAll (additions table (c.missing table columns)) = .ok c' ∧
      ∀ column ∈ columns, c'.hasColumn table column.name = true := by
  obtain ⟨t, ht⟩ := hasTable_iff.mp h
  have hd' : ((c.missing table columns).map fun column => Text.lower column.name).Nodup :=
    hd.sublist (List.filter_sublist.map _)
  have hn : ∀ column ∈ c.missing table columns, t.hasColumn column.name = false := by
    intro column hcolumn
    have := (List.mem_filter.mp hcolumn).2
    rwa [hasColumn_of_table? ht, Bool.not_eq_true'] at this
  obtain ⟨c', happ, ht'⟩ := applyAll_additions ht hd' hn
  refine ⟨c', happ, fun column hcolumn => ?_⟩
  by_cases hc : c.hasColumn table column.name = true
  · exact (grows_of_applyAll happ).hasColumn hc
  · have hm : column ∈ c.missing table columns :=
      List.mem_filter.mpr ⟨hcolumn, by simp [hc]⟩
    rw [hasColumn_of_table? ht', CatalogTable.hasColumn, Text.listsName_iff_mem]
    exact List.mem_map_of_mem (List.mem_append_right _ (List.mem_map_of_mem hm))

end Catalog

namespace Bootstrap

/-! ### Steps -/

/-- A part of a bootstrap: a planned table, a planned subtable, or a statement of the index
plan. -/
inductive Step where
  | table (t : Table)
  | subtable (s : Subtable)
  | index (statement : Statement)

namespace Step

variable {b : Backend} {cfg : Config}

/-- The table a step is about. -/
def target : Step → String
  | table t => t.name
  | subtable s => s.name
  | index statement => statement.table

/-- The catalog has all that the step is for: the table with every planned column, the subtable
with the column of its values, or the object of the statement. -/
def Settled (b : Backend) (c : Catalog) : Step → Prop
  | table t => c.hasTable t.name = true ∧
      ∀ column ∈ t.columns, c.hasColumn t.name column.name = true
  | subtable s => c.hasColumn s.name s.valueColumn = true
  | index statement => c.holds b statement = true

/-- The catalog has what the statements of the step rely on. -/
def Ready (c : Catalog) : Step → Prop
  | table t => t.HasDistinctColumns
  | subtable s => c.hasTable s.parent = true
  | index statement => c.Supports statement

/-- What the step issues on a catalog. -/
def statements (b : Backend) (cfg : Config) (c : Catalog) : Step → List Statement
  | table t =>
    if c.hasTable t.name then Catalog.additions t.name (c.missing t.name t.columns)
    else [.createTable (t.create b cfg.personTable)]
  | subtable s =>
    if c.hasTable s.name then Catalog.additions s.name (c.missing s.name [s.values])
    else [.createTable s.create, (Statement.createIndex (s.index b cfg.textPrefixLength)).fitted b]
  | index statement => if c.holds b statement then [] else [statement.fitted b]

section Inversion

/-! The statements of a step, one case for each kind of step, with what the catalog must hold for
them to be issued. -/

variable {c : Catalog} {issued : Statement}

theorem mem_statements_table {t : Table} : issued ∈ (table t).statements b cfg c ↔
    (c.hasTable t.name = true ∧ ∃ column ∈ c.missing t.name t.columns,
      issued = .addColumn { table := t.name, column := column.declaration }) ∨
    (c.hasTable t.name = false ∧ issued = .createTable (t.create b cfg.personTable)) := by
  cases h : c.hasTable t.name <;> simp [statements, h, Catalog.additions, eq_comm]

theorem mem_statements_subtable {s : Subtable} : issued ∈ (subtable s).statements b cfg c ↔
    (c.hasTable s.name = true ∧ ∃ column ∈ c.missing s.name [s.values],
      issued = .addColumn { table := s.name, column := column.declaration }) ∨
    (c.hasTable s.name = false ∧ (issued = .createTable s.create ∨
      issued = (Statement.createIndex (s.index b cfg.textPrefixLength)).fitted b)) := by
  cases h : c.hasTable s.name <;> simp [statements, h, Catalog.additions, eq_comm]

theorem mem_statements_index {statement : Statement} :
    issued ∈ (index statement).statements b cfg c ↔
      c.holds b statement = false ∧ issued = statement.fitted b := by
  cases h : c.holds b statement <;> simp [statements, h]

end Inversion

/-- A settled step stays settled as the catalog grows. -/
theorem Settled.mono {c c' : Catalog} {x : Step} (h : x.Settled b c) (g : c.Grows c') :
    x.Settled b c' := by
  cases x with
  | table t => exact ⟨g.hasTable h.1, fun column hc => g.hasColumn (h.2 column hc)⟩
  | subtable s => exact g.hasColumn h
  | index statement => exact g.holds h

/-- A settled step issues nothing. -/
theorem statements_of_settled {c : Catalog} {x : Step} (h : x.Settled b c) :
    x.statements b cfg c = [] := by
  cases x with
  | table t =>
    rw [statements, if_pos h.1, Catalog.missing_eq_nil_iff.mpr h.2]
    rfl
  | subtable s =>
    have hm : c.missing s.name [s.values] = [] :=
      Catalog.missing_eq_nil_iff.mpr fun column hc => by
        obtain rfl := List.mem_singleton.mp hc
        exact h
    rw [statements, if_pos (Catalog.hasTable_of_hasColumn h), hm]
    rfl
  | index statement => exact if_pos h

/-- A planned table that is not there can be created, with every planned column. -/
theorem exists_apply_create {c : Catalog} {t : Table} (b : Backend) (personTable : String)
    (h : c.hasTable t.name = false) :
    ∃ c', c.apply (.createTable (t.create b personTable)) = .ok c' ∧ (table t).Settled b c' := by
  have hparent : ∀ parent, (t.create b personTable).parent = some parent →
      c.hasTable parent = true := fun parent hp => by cases hp
  obtain ⟨c', happ, ht⟩ := Catalog.exists_apply_createTable h hparent
  have ht : c'.table? t.name = _ := ht
  refine ⟨c', happ, Catalog.hasTable_of_table? ht, fun column hcolumn => ?_⟩
  rw [Catalog.hasColumn_of_table? ht, CatalogTable.hasColumn, Text.listsName_iff_mem]
  exact List.mem_map_of_mem (List.mem_map_of_mem (List.mem_map_of_mem hcolumn))

/-- A planned subtable that is not there can be created once its parent is there; it then has the
column of its values, and no index. -/
theorem exists_apply_subtable {c : Catalog} {s : Subtable} (h : c.hasTable s.name = false)
    (hp : c.hasTable s.parent = true) :
    ∃ c', c.apply (.createTable s.create) = .ok c' ∧ (subtable s).Settled b c' ∧
      ∀ name, c'.hasIndex s.name name = false := by
  have hparent : ∀ parent, s.create.parent = some parent → c.hasTable parent = true :=
    fun parent e => by cases e; exact hp
  obtain ⟨c', happ, ht⟩ := Catalog.exists_apply_createTable h hparent
  have ht : c'.table? s.name = _ := ht
  refine ⟨c', happ, ?_, fun name => Catalog.hasIndex_of_table? ht name⟩
  rw [Settled, Catalog.hasColumn_of_table? ht, CatalogTable.hasColumn, Text.listsName_iff_mem]
  simp [Subtable.create, Subtable.values, Column.declaration]

/-- The statements of a step that is ready are accepted, and leave it settled. -/
theorem exists_applyAll (b : Backend) (cfg : Config) {c : Catalog} {x : Step} (h : x.Ready c) :
    ∃ c', c.applyAll (x.statements b cfg c) = .ok c' ∧ x.Settled b c' := by
  cases x with
  | table t =>
    cases ht : c.hasTable t.name with
    | true =>
      obtain ⟨c', happ, hc'⟩ := Catalog.exists_applyAll_missing t.columns ht h
      refine ⟨c', ?_, (Catalog.grows_of_applyAll happ).hasTable ht, hc'⟩
      rwa [statements, if_pos ht]
    | false =>
      obtain ⟨c', happ, hc'⟩ := exists_apply_create b cfg.personTable ht
      refine ⟨c', ?_, hc'⟩
      rwa [statements, if_neg (by simp [ht]), Catalog.applyAll_singleton]
  | subtable s =>
    cases hs : c.hasTable s.name with
    | true =>
      obtain ⟨c', happ, hc'⟩ := Catalog.exists_applyAll_missing [s.values] hs
        (List.nodup_singleton _)
      refine ⟨c', ?_, hc' s.values List.mem_cons_self⟩
      rwa [statements, if_pos hs]
    | false =>
      -- the new table has no index yet, and the column that its index needs
      obtain ⟨c₁, h₁, hset, hno⟩ := exists_apply_subtable (b := b) hs h
      have hsup : c₁.Supports (.createIndex (s.index b cfg.textPrefixLength)) :=
        Catalog.supports_plain hset
      obtain ⟨c', h₂, -⟩ := Catalog.exists_apply_fitted (b := b) hsup (hno _)
      refine ⟨c', ?_, (Catalog.grows_of_apply h₂).hasColumn hset⟩
      rw [statements, if_neg (by simp [hs]), Catalog.applyAll_cons_eq_ok_iff]
      exact ⟨c₁, h₁, by rwa [Catalog.applyAll_singleton]⟩
  | index statement =>
    cases hb : c.holds b statement with
    | true =>
      refine ⟨c, ?_, hb⟩
      rw [statements, if_pos hb]
      rfl
    | false =>
      obtain ⟨c', happ, hc'⟩ := Catalog.exists_apply_fitted h hb
      refine ⟨c', ?_, hc'⟩
      rwa [statements, if_neg (by simp [hb]), Catalog.applyAll_singleton]

/-- What a step that is ready has issued leaves it settled. -/
theorem settled_of_applyAll {c c' : Catalog} {x : Step} (hx : x.Ready c)
    (h : c.applyAll (x.statements b cfg c) = .ok c') : x.Settled b c' := by
  obtain ⟨c₁, happ, hset⟩ := exists_applyAll b cfg hx
  cases h.symm.trans happ
  exact hset

/-- Settled steps stay so while one more is settled. -/
theorem settled_cons {c c' : Catalog} {x : Step} {steps : List Step} (hx : x.Settled b c')
    (h : ∀ y ∈ steps, y.Settled b c) (g : c.Grows c') : ∀ y ∈ x :: steps, y.Settled b c' := by
  intro y hy
  obtain rfl | hy := List.mem_cons.mp hy
  · exact hx
  · exact (h y hy).mono g

end Step

end Bootstrap

end DirectoryTables
