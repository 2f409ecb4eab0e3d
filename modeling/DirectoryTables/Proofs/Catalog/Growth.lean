import DirectoryTables.Backend
import DirectoryTables.Catalog

/-!
# Catalogs — Growth

What an accepted statement does to a catalog, said by what is looked up in it afterwards.

* `createTable_eq_ok_iff`, `addColumn_eq_ok_iff`, `createIndex_eq_ok_iff`: when a statement of each
  kind is accepted, and the catalog it leaves.
* `Grows c c'`: every table of `c` is in `c'`, its columns before any further ones and its indexes
  among those of `c'`.  A catalog only grows (`grows_of_apply`, `grows_of_applyAll`), so an object
  that is there stays there (`Grows.holds`).
-/

namespace DirectoryTables

/-! ### Tables that grow -/

/-- `t'` has the columns of `t`, perhaps followed by others, and the indexes of `t`. -/
structure CatalogTable.Grows (t t' : CatalogTable) : Prop where
  columns : t.columns <+: t'.columns
  indexes : ∀ name, t.hasIndex name = true → t'.hasIndex name = true

namespace CatalogTable

theorem Grows.refl (t : CatalogTable) : t.Grows t := ⟨List.prefix_refl _, fun _ h => h⟩

theorem Grows.trans {t₁ t₂ t₃ : CatalogTable} (h : t₁.Grows t₂) (h' : t₂.Grows t₃) : t₁.Grows t₃ :=
  ⟨h.columns.trans h'.columns, fun name hi => h'.indexes name (h.indexes name hi)⟩

theorem hasIndex_withIndex (t : CatalogTable) (name other : String) :
    (t.withIndex name).hasIndex other = (decide (other = name) || t.hasIndex other) := by
  by_cases h : other = name <;>
    simp [hasIndex, withIndex, Dict.contains, Dict.get?_insert, h]

theorem grows_withIndex (t : CatalogTable) (name : String) : t.Grows (t.withIndex name) :=
  ⟨List.prefix_refl _, fun other h => by rw [hasIndex_withIndex, h, Bool.or_true]⟩

theorem grows_addColumn (t : CatalogTable) (name : String) :
    t.Grows { t with columns := t.columns ++ [name] } :=
  ⟨List.prefix_append _ _, fun _ h => h⟩

/-- A key has no missing part when the table has each of its columns. -/
theorem missingPart?_eq_none_iff {t : CatalogTable} {key : IndexKey} :
    t.missingPart? key = none ↔
      ∀ parts, key = .columns parts → ∀ p ∈ parts, t.hasColumn p.name = true := by
  cases key with
  | columns parts =>
    simp only [missingPart?, List.find?_eq_none, Bool.not_eq_true', Bool.not_eq_false]
    exact ⟨fun h _ e => by cases e; exact h, fun h => h parts rfl⟩
  | expression sql => simp [missingPart?]

end CatalogTable

namespace Catalog

/-! ### Looking up after setting -/

theorem table?_set (c : Catalog) (name other : String) (t : CatalogTable) :
    (c.set name t).table? other = if other = name then some t else c.table? other :=
  Dict.get?_insert c.tables name other t

@[simp] theorem table?_set_self (c : Catalog) (name : String) (t : CatalogTable) :
    (c.set name t).table? name = some t := by
  rw [table?_set, if_pos rfl]

theorem table?_set_of_ne (c : Catalog) {name other : String} (t : CatalogTable)
    (h : other ≠ name) : (c.set name t).table? other = c.table? other := by
  rw [table?_set, if_neg h]

/-- Whether a table has a column, letter case aside. -/
def hasColumn (c : Catalog) (table name : String) : Bool :=
  Text.listsName (c.columns table) name

/-- Whether the object that a statement makes is there: the table, the column letter case aside,
or the index under its fitted name. -/
def holds (b : Backend) (c : Catalog) : Statement → Bool
  | .createTable create => c.hasTable create.name
  | .addColumn add => c.hasColumn add.table add.column.name
  | .createIndex index => c.hasIndex index.table (b.fit index.name)

theorem hasTable_iff {c : Catalog} {name : String} :
    c.hasTable name = true ↔ ∃ t, c.table? name = some t :=
  Option.isSome_iff_exists

theorem hasTable_of_table? {c : Catalog} {name : String} {t : CatalogTable}
    (h : c.table? name = some t) : c.hasTable name = true :=
  hasTable_iff.mpr ⟨t, h⟩

theorem columns_of_table? {c : Catalog} {name : String} {t : CatalogTable}
    (h : c.table? name = some t) : c.columns name = t.columns := by
  simp [columns, h]

theorem hasColumn_of_table? {c : Catalog} {table : String} {t : CatalogTable}
    (h : c.table? table = some t) (name : String) : c.hasColumn table name = t.hasColumn name := by
  rw [hasColumn, columns_of_table? h, CatalogTable.hasColumn]

theorem hasIndex_of_table? {c : Catalog} {table : String} {t : CatalogTable}
    (h : c.table? table = some t) (name : String) : c.hasIndex table name = t.hasIndex name := by
  simp [hasIndex, h]

/-- Only a table that is there has a column. -/
theorem hasTable_of_hasColumn {c : Catalog} {table name : String}
    (h : c.hasColumn table name = true) : c.hasTable table = true := by
  cases e : c.table? table with
  | none => simp [hasColumn, columns, e, Text.listsName] at h
  | some t => exact hasTable_of_table? e

/-! ### What an accepted statement does -/

theorem createTable_eq_ok_iff {c c' : Catalog} {t : CreateTable} :
    c.apply (.createTable t) = .ok c' ↔
      c.hasTable t.name = false ∧ (∀ parent, t.parent = some parent → c.hasTable parent = true) ∧
        c' = c.set t.name { columns := t.columns.map ColumnDef.name } := by
  simp only [apply, createTable]
  cases hn : c.hasTable t.name with
  | true => simp
  | false =>
    cases hp : t.parent with
    | none => simp [@eq_comm _ c']
    | some parent => cases hq : c.hasTable parent <;>
      simp [Option.filter_some, hq, @eq_comm _ c']

theorem addColumn_eq_ok_iff {c c' : Catalog} {a : AddColumn} :
    c.apply (.addColumn a) = .ok c' ↔
      ∃ t, c.table? a.table = some t ∧ t.hasColumn a.column.name = false ∧
        c' = c.set a.table { t with columns := t.columns ++ [a.column.name] } := by
  simp only [apply, addColumn]
  cases ht : c.table? a.table with
  | none => simp
  | some t => cases hc : t.hasColumn a.column.name <;> simp [hc, @eq_comm _ c']

theorem createIndex_eq_ok_iff {c c' : Catalog} {i : CreateIndex} :
    c.apply (.createIndex i) = .ok c' ↔
      ∃ t, c.table? i.table = some t ∧ t.hasIndex i.name = false ∧ t.missingPart? i.key = none ∧
        c' = c.set i.table (t.withIndex i.name) := by
  simp only [apply, createIndex]
  cases ht : c.table? i.table with
  | none => simp
  | some t =>
    cases hi : t.hasIndex i.name <;> cases hm : t.missingPart? i.key <;>
      simp [hi, hm, @eq_comm _ c']

/-- A statement changes its own table only. -/
theorem table?_of_apply {c c' : Catalog} {s : Statement} (h : c.apply s = .ok c') {name : String}
    (hne : name ≠ s.table) : c'.table? name = c.table? name := by
  cases s with
  | createTable t =>
    obtain ⟨-, -, rfl⟩ := createTable_eq_ok_iff.mp h
    exact table?_set_of_ne c _ hne
  | addColumn a =>
    obtain ⟨t, -, -, rfl⟩ := addColumn_eq_ok_iff.mp h
    exact table?_set_of_ne c _ hne
  | createIndex i =>
    obtain ⟨t, -, -, -, rfl⟩ := createIndex_eq_ok_iff.mp h
    exact table?_set_of_ne c _ hne

/-! ### Growth -/

/-- Every table of `c` is in `c'` and has grown. -/
def Grows (c c' : Catalog) : Prop :=
  ∀ name t, c.table? name = some t → ∃ t', c'.table? name = some t' ∧ t.Grows t'

theorem Grows.refl (c : Catalog) : c.Grows c := fun _ t h => ⟨t, h, .refl t⟩

theorem Grows.trans {c₁ c₂ c₃ : Catalog} (h : c₁.Grows c₂) (h' : c₂.Grows c₃) : c₁.Grows c₃ := by
  intro name t ht
  obtain ⟨t', ht', g⟩ := h name t ht
  obtain ⟨t'', ht'', g'⟩ := h' name t' ht'
  exact ⟨t'', ht'', g.trans g'⟩

theorem grows_set {c : Catalog} {name : String} {t' : CatalogTable}
    (h : ∀ t, c.table? name = some t → t.Grows t') : c.Grows (c.set name t') := by
  intro other t ht
  by_cases e : other = name
  · subst e
    exact ⟨t', table?_set_self _ _ _, h t ht⟩
  · exact ⟨t, by rw [table?_set_of_ne c t' e, ht], .refl t⟩

/-- A statement that is accepted takes nothing away. -/
theorem grows_of_apply {c c' : Catalog} {s : Statement} (h : c.apply s = .ok c') : c.Grows c' := by
  cases s with
  | createTable t =>
    obtain ⟨hn, -, rfl⟩ := createTable_eq_ok_iff.mp h
    exact grows_set fun u hu => by simp [hasTable_of_table? hu] at hn
  | addColumn a =>
    obtain ⟨t, ht, -, rfl⟩ := addColumn_eq_ok_iff.mp h
    exact grows_set fun u hu => by cases ht.symm.trans hu; exact t.grows_addColumn _
  | createIndex i =>
    obtain ⟨t, ht, -, -, rfl⟩ := createIndex_eq_ok_iff.mp h
    exact grows_set fun u hu => by cases ht.symm.trans hu; exact t.grows_withIndex _

theorem Grows.hasTable {c c' : Catalog} (g : c.Grows c') {name : String}
    (h : c.hasTable name = true) : c'.hasTable name = true := by
  obtain ⟨t, ht⟩ := hasTable_iff.mp h
  obtain ⟨t', ht', -⟩ := g name t ht
  exact hasTable_of_table? ht'

theorem Grows.hasTable_eq_false {c c' : Catalog} (g : c.Grows c') {name : String}
    (h : c'.hasTable name = false) : c.hasTable name = false :=
  Bool.eq_false_iff.mpr fun ht => by rw [g.hasTable ht] at h; cases h

theorem Grows.hasColumn {c c' : Catalog} (g : c.Grows c') {table name : String}
    (h : c.hasColumn table name = true) : c'.hasColumn table name = true := by
  obtain ⟨t, ht⟩ := hasTable_iff.mp (hasTable_of_hasColumn h)
  obtain ⟨t', ht', gt⟩ := g table t ht
  rw [hasColumn_of_table? ht, CatalogTable.hasColumn, Text.listsName_iff] at h
  rw [hasColumn_of_table? ht', CatalogTable.hasColumn, Text.listsName_iff]
  obtain ⟨n, hn, e⟩ := h
  exact ⟨n, gt.columns.subset hn, e⟩

theorem Grows.hasIndex {c c' : Catalog} (g : c.Grows c') {table name : String}
    (h : c.hasIndex table name = true) : c'.hasIndex table name = true := by
  cases ht : c.table? table with
  | none => simp [Catalog.hasIndex, ht] at h
  | some t =>
    obtain ⟨t', ht', gt⟩ := g table t ht
    rw [hasIndex_of_table? ht] at h
    rw [hasIndex_of_table? ht']
    exact gt.indexes name h

/-- An object that is there stays there. -/
theorem Grows.holds {b : Backend} {c c' : Catalog} (g : c.Grows c') {s : Statement}
    (h : c.holds b s = true) : c'.holds b s = true := by
  cases s with
  | createTable t => exact g.hasTable h
  | addColumn a => exact g.hasColumn h
  | createIndex i => exact g.hasIndex h

/-! ### Several statements -/

/-- The catalog after several statements, up to the first that is refused. -/
def applyAll (c : Catalog) (statements : List Statement) : Except SessionError Catalog :=
  statements.foldlM apply c

@[simp] theorem applyAll_nil (c : Catalog) : c.applyAll [] = .ok c := rfl

@[simp] theorem applyAll_singleton (c : Catalog) (s : Statement) :
    c.applyAll [s] = c.apply s := by
  rw [applyAll, List.foldlM_cons]
  cases c.apply s <;> rfl

theorem applyAll_cons_eq_ok_iff {c c' : Catalog} {s : Statement} {statements : List Statement} :
    c.applyAll (s :: statements) = .ok c' ↔
      ∃ c₁, c.apply s = .ok c₁ ∧ c₁.applyAll statements = .ok c' := by
  simp only [applyAll, List.foldlM_cons]
  cases h : c.apply s with
  | error e => simp [bind, Except.bind]
  | ok c₁ => simp [bind, Except.bind]

theorem applyAll_append_eq_ok_iff {c c' : Catalog} {s₁ s₂ : List Statement} :
    c.applyAll (s₁ ++ s₂) = .ok c' ↔
      ∃ c₁, c.applyAll s₁ = .ok c₁ ∧ c₁.applyAll s₂ = .ok c' := by
  induction s₁ generalizing c with
  | nil => simp
  | cons s s₁ ih =>
    simp only [List.cons_append, applyAll_cons_eq_ok_iff, ih]
    exact ⟨fun ⟨c₁, h₁, c₂, h₂, h₃⟩ => ⟨c₂, ⟨c₁, h₁, h₂⟩, h₃⟩,
      fun ⟨c₂, ⟨c₁, h₁, h₂⟩, h₃⟩ => ⟨c₁, h₁, c₂, h₂, h₃⟩⟩

theorem grows_of_applyAll {c c' : Catalog} {statements : List Statement}
    (h : c.applyAll statements = .ok c') : c.Grows c' := by
  induction statements generalizing c with
  | nil => cases h; exact .refl _
  | cons s statements ih =>
    obtain ⟨c₁, h₁, h₂⟩ := applyAll_cons_eq_ok_iff.mp h
    exact (grows_of_apply h₁).trans (ih h₂)

theorem table?_of_applyAll {c c' : Catalog} {statements : List Statement} {name : String}
    (h : c.applyAll statements = .ok c') (hne : ∀ s ∈ statements, name ≠ s.table) :
    c'.table? name = c.table? name := by
  induction statements generalizing c with
  | nil => cases h; rfl
  | cons s statements ih =>
    obtain ⟨c₁, h₁, h₂⟩ := applyAll_cons_eq_ok_iff.mp h
    rw [ih h₂ fun s' hs' => hne s' (List.mem_cons_of_mem s hs'),
      table?_of_apply h₁ (hne s List.mem_cons_self)]

end Catalog

end DirectoryTables
