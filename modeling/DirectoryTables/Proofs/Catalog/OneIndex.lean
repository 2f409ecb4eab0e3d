import DirectoryTables.Proofs.Catalog.Growth

/-!
# Catalogs — One index

Two catalogs that differ by one index (`AddsIndex`).  A statement that creates no index on its
table is accepted on both or on neither, and they still differ by that index
(`AddsIndex.exists_apply`); such a statement leaves the indexes of the table as they are
(`hasIndex_of_apply`).
-/

namespace DirectoryTables

/-- The statement creates no index on the table. -/
def Statement.SparesIndexes (table : String) : Statement → Prop
  | createIndex index => index.table ≠ table
  | _ => True

namespace Catalog

variable {c c' m : Catalog} {table index : String} {s : Statement}

/-! ### The indexes of a table -/

/-- A table that is there keeps its indexes when no index is created on it. -/
theorem hasIndex_of_apply (h : c.apply s = .ok c') (hs : s.SparesIndexes table)
    (ht : c.hasTable table = true) (index : String) :
    c'.hasIndex table index = c.hasIndex table index := by
  cases s with
  | createTable create =>
    obtain ⟨hno, -, rfl⟩ := createTable_eq_ok_iff.mp h
    have hne : table ≠ create.name := by rintro rfl; rw [hno] at ht; cases ht
    rw [hasIndex, hasIndex, table?_set_of_ne _ _ hne]
  | addColumn add =>
    obtain ⟨t, hadd, -, rfl⟩ := addColumn_eq_ok_iff.mp h
    by_cases e : table = add.table
    · subst e
      rw [hasIndex_of_table? hadd, hasIndex_of_table? (table?_set_self _ _ _)]
      rfl
    · rw [hasIndex, hasIndex, table?_set_of_ne _ _ e]
  | createIndex create =>
    obtain ⟨t, -, -, -, rfl⟩ := createIndex_eq_ok_iff.mp h
    rw [hasIndex, hasIndex, table?_set_of_ne _ _ (Ne.symm hs)]

theorem hasIndex_of_applyAll {ss : List Statement} (h : c.applyAll ss = .ok c')
    (hs : ∀ s ∈ ss, s.SparesIndexes table) (ht : c.hasTable table = true) (index : String) :
    c'.hasIndex table index = c.hasIndex table index := by
  induction ss generalizing c with
  | nil => cases h; rfl
  | cons s ss ih =>
    obtain ⟨c₁, h₁, h₂⟩ := applyAll_cons_eq_ok_iff.mp h
    rw [ih h₂ (fun s' h' => hs s' (List.mem_cons_of_mem s h')) ((grows_of_apply h₁).hasTable ht),
      hasIndex_of_apply h₁ (hs s List.mem_cons_self) ht]

/-! ### One more index -/

/-- `c` is `m` with one more index on a table. -/
structure AddsIndex (table index : String) (m c : Catalog) : Prop where
  others : ∀ name, name ≠ table → c.table? name = m.table? name
  there : ∃ t t', m.table? table = some t ∧ c.table? table = some t' ∧
    t'.columns = t.columns ∧ t.hasIndex index = false ∧
    ∀ name, t'.hasIndex name = (decide (name = index) || t.hasIndex name)

namespace AddsIndex

theorem of_createIndex {create : CreateIndex} (h : m.apply (.createIndex create) = .ok c) :
    AddsIndex create.table create.name m c := by
  obtain ⟨t, ht, hno, -, rfl⟩ := createIndex_eq_ok_iff.mp h
  refine ⟨fun name hne => table?_set_of_ne _ _ hne, t, t.withIndex create.name, ht,
    table?_set_self _ _ _, rfl, hno, fun name => ?_⟩
  exact CatalogTable.hasIndex_withIndex t create.name name

theorem hasTable_table (h : AddsIndex table index m c) : m.hasTable table = true := by
  obtain ⟨-, t, -, ht, -⟩ := h
  exact hasTable_of_table? ht

theorem hasTable (h : AddsIndex table index m c) (name : String) :
    m.hasTable name = c.hasTable name := by
  by_cases e : name = table
  · subst e
    obtain ⟨-, t, t', ht, ht', -⟩ := h
    rw [hasTable_of_table? ht, hasTable_of_table? ht']
  · rw [Catalog.hasTable, Catalog.hasTable, h.others name e]

theorem columns (h : AddsIndex table index m c) (name : String) :
    m.columns name = c.columns name := by
  by_cases e : name = table
  · subst e
    obtain ⟨-, t, t', ht, ht', hcolumns, -⟩ := h
    rw [columns_of_table? ht, columns_of_table? ht', hcolumns]
  · rw [Catalog.columns, Catalog.columns, h.others name e]

theorem hasColumn (h : AddsIndex table index m c) (name column : String) :
    m.hasColumn name column = c.hasColumn name column := by
  rw [Catalog.hasColumn, Catalog.hasColumn, h.columns]

theorem hasIndex_iff (h : AddsIndex table index m c) (name other : String) :
    m.hasIndex name other = true ↔
      c.hasIndex name other = true ∧ ¬ (name = table ∧ other = index) := by
  by_cases e : name = table
  · subst e
    obtain ⟨-, t, t', ht, ht', -, hno, hindex⟩ := h
    rw [hasIndex_of_table? ht, hasIndex_of_table? ht', hindex]
    by_cases ei : other = index
    · subst ei
      simp [hno]
    · simp [ei]
  · rw [Catalog.hasIndex, Catalog.hasIndex, h.others name e]
    simp [e]

/-- Setting a table of another name. -/
theorem set_of_ne (h : AddsIndex table index m c) {name : String} (t : CatalogTable)
    (hne : name ≠ table) : AddsIndex table index (m.set name t) (c.set name t) := by
  obtain ⟨hothers, t₁, t₂, h₁, h₂, hrest⟩ := h
  refine ⟨fun other ho => ?_, t₁, t₂, ?_, ?_, hrest⟩
  · rw [table?_set, table?_set, hothers other ho]
  · rw [table?_set_of_ne _ _ hne.symm, h₁]
  · rw [table?_set_of_ne _ _ hne.symm, h₂]

/-- A statement that creates no index on the table is accepted on the smaller catalog when it is
on the greater one. -/
theorem exists_apply (h : AddsIndex table index m c) (hs : s.SparesIndexes table)
    (happ : c.apply s = .ok c') :
    ∃ m', m.apply s = .ok m' ∧ AddsIndex table index m' c' := by
  cases s with
  | createTable create =>
    obtain ⟨hno, hparent, rfl⟩ := createTable_eq_ok_iff.mp happ
    rw [← h.hasTable] at hno
    have hne : create.name ≠ table := by
      intro e
      rw [e, h.hasTable_table] at hno
      cases hno
    have hparent' : ∀ parent, create.parent = some parent → m.hasTable parent = true :=
      fun parent hp => (h.hasTable parent).trans (hparent parent hp)
    exact ⟨_, createTable_eq_ok_iff.mpr ⟨hno, hparent', rfl⟩, h.set_of_ne _ hne⟩
  | addColumn add =>
    obtain ⟨t, ht, hno, rfl⟩ := addColumn_eq_ok_iff.mp happ
    -- on the table itself the columns are the same; elsewhere the tables are
    by_cases e : add.table = table
    · subst e
      obtain ⟨hothers, t₁, t₂, h₁, h₂, hcolumns, hindex, hindexes⟩ := h
      cases h₂.symm.trans ht
      have hno₁ : t₁.hasColumn add.column.name = false := by
        rw [CatalogTable.hasColumn, ← hcolumns]
        exact hno
      refine ⟨_, addColumn_eq_ok_iff.mpr ⟨t₁, h₁, hno₁, rfl⟩, fun other ho => ?_, _, _,
        table?_set_self _ _ _, table?_set_self _ _ _, ?_, hindex, hindexes⟩
      · rw [table?_set_of_ne _ _ ho, table?_set_of_ne _ _ ho, hothers other ho]
      · rw [hcolumns]
    · rw [h.others _ e] at ht
      exact ⟨_, addColumn_eq_ok_iff.mpr ⟨t, ht, hno, rfl⟩, h.set_of_ne _ e⟩
  | createIndex create =>
    obtain ⟨t, ht, hno, hkey, rfl⟩ := createIndex_eq_ok_iff.mp happ
    rw [h.others _ hs] at ht
    exact ⟨_, createIndex_eq_ok_iff.mpr ⟨t, ht, hno, hkey, rfl⟩, h.set_of_ne _ hs⟩

theorem exists_applyAll {ss : List Statement} (h : AddsIndex table index m c)
    (hs : ∀ s ∈ ss, s.SparesIndexes table) (happ : c.applyAll ss = .ok c') :
    ∃ m', m.applyAll ss = .ok m' ∧ AddsIndex table index m' c' := by
  induction ss generalizing m c with
  | nil => cases happ; exact ⟨m, rfl, h⟩
  | cons s ss ih =>
    obtain ⟨c₁, h₁, h₂⟩ := applyAll_cons_eq_ok_iff.mp happ
    obtain ⟨m₁, hm₁, hadds⟩ := h.exists_apply (hs s List.mem_cons_self) h₁
    obtain ⟨m', hm₂, hadds'⟩ := ih hadds (fun s' h' => hs s' (List.mem_cons_of_mem s h')) h₂
    exact ⟨m', applyAll_cons_eq_ok_iff.mpr ⟨m₁, hm₁, hm₂⟩, hadds'⟩

end AddsIndex

end Catalog

end DirectoryTables
