import DirectoryTables.Proofs.Catalog.Growth

/-!
# Catalogs — Changes

What statements change, read off the statements.  Each of them creates a table, adds a column, or
creates an index (`Statement.createdTable?`, `addedColumn?`, `createdIndex?`), so together these
count all statements (`length_eq`).  Where statements are accepted one after another, they are
exactly what changed in the catalog:

* `mem_created_iff`, `nodup_created`: the created tables are those that were absent and are present,
  and no table is created twice.
* `columns_of_applyAll`: a table that was there has its columns, followed by those added to it.
* `hasColumn_of_applyAll_iff`, `hasIndex_of_applyAll_iff`: a table has the columns and the indexes it
  had, and those that were made for it.
-/

namespace DirectoryTables

namespace Statement

/-- The table that the statement creates. -/
def createdTable? : Statement → Option String
  | createTable t => some t.name
  | addColumn _ => none
  | createIndex _ => none

/-- The column that the statement adds, with its table. -/
def addedColumn? : Statement → Option (String × String)
  | createTable _ => none
  | addColumn a => some (a.table, a.column.name)
  | createIndex _ => none

/-- The index that the statement creates. -/
def createdIndex? : Statement → Option String
  | createTable _ => none
  | addColumn _ => none
  | createIndex i => some i.name

theorem table_of_createdTable? {s : Statement} {name : String} (h : s.createdTable? = some name) :
    s.table = name := by
  cases s with
  | createTable t => exact Option.some.inj h
  | addColumn => cases h
  | createIndex => cases h

/-- Each statement makes one object. -/
theorem length_eq (ss : List Statement) :
    ss.length = (ss.filterMap createdTable?).length + (ss.filterMap addedColumn?).length +
      (ss.filterMap createdIndex?).length := by
  induction ss with
  | nil => rfl
  | cons s ss ih =>
    cases s <;> simp only [List.filterMap_cons, createdTable?, addedColumn?, createdIndex?,
      List.length_cons] <;> omega

/-- The columns that statements add to a table, in order. -/
def addedTo (table : String) (ss : List Statement) : List String :=
  ((ss.filterMap addedColumn?).filter (·.1 == table)).map Prod.snd

/-- The statement makes a column of the table with the name, letter case aside: it adds the column,
or creates the table with it. -/
def MakesColumn (table column : String) : Statement → Prop
  | createTable t => t.name = table ∧ ∃ made ∈ t.columns, Text.lower made.name = Text.lower column
  | addColumn a => a.table = table ∧ Text.lower a.column.name = Text.lower column
  | createIndex _ => False

theorem MakesColumn.table_eq {table column : String} {s : Statement}
    (h : s.MakesColumn table column) : s.table = table := by
  cases s with
  | createTable => exact h.1
  | addColumn => exact h.1
  | createIndex => exact h.elim

theorem mem_addedTo_iff {table column : String} {ss : List Statement} :
    column ∈ addedTo table ss ↔ (table, column) ∈ ss.filterMap addedColumn? := by
  simp [addedTo]

end Statement

namespace Catalog

open Statement

variable {c c' : Catalog} {s : Statement} {ss : List Statement} {name : String}

/-! ### One statement -/

/-- A table that a statement creates was absent. -/
theorem hasTable_of_created (h : c.apply s = .ok c') (hs : s.createdTable? = some name) :
    c.hasTable name = false := by
  cases s with
  | createTable t =>
    cases hs
    exact (createTable_eq_ok_iff.mp h).1
  | addColumn => cases hs
  | createIndex => cases hs

/-- A table that is there can be replaced without making any other present. -/
theorem hasTable_set {table : String} {t t' : CatalogTable} (ht : c.table? table = some t) :
    (c.set table t').hasTable name = c.hasTable name := by
  rw [hasTable, hasTable, table?_set]
  split
  case isTrue e => rw [e, ht]; rfl
  case isFalse => rfl

/-- The tables that are present after a statement were present before it, or it created them. -/
theorem hasTable_of_apply (h : c.apply s = .ok c') :
    c'.hasTable name = true ↔ c.hasTable name = true ∨ s.createdTable? = some name := by
  cases s with
  | createTable t =>
    obtain ⟨-, -, rfl⟩ := createTable_eq_ok_iff.mp h
    rw [createdTable?, Option.some_inj, hasTable, table?_set]
    split
    case isTrue e => exact iff_of_true rfl (.inr e.symm)
    case isFalse e => exact (or_iff_left (Ne.symm e)).symm
  | addColumn a =>
    obtain ⟨t, ht, -, rfl⟩ := addColumn_eq_ok_iff.mp h
    rw [hasTable_set ht]
    exact (or_iff_left nofun).symm
  | createIndex i =>
    obtain ⟨t, ht, -, -, rfl⟩ := createIndex_eq_ok_iff.mp h
    rw [hasTable_set ht]
    exact (or_iff_left nofun).symm

/-- The columns of a table after a statement are those before it, and one that it added. -/
theorem columns_of_apply (h : c.apply s = .ok c') (hname : c.hasTable name = true) :
    c'.columns name = c.columns name ++ addedTo name [s] := by
  by_cases e : name = s.table
  · subst e
    cases s with
    | createTable t =>
      obtain ⟨habsent, -, -⟩ := createTable_eq_ok_iff.mp h
      cases habsent.symm.trans hname
    | addColumn a =>
      obtain ⟨t, ht, -, rfl⟩ := addColumn_eq_ok_iff.mp h
      rw [table, columns_of_table? (table?_set_self _ _ _), columns_of_table? ht]
      simp [addedTo, addedColumn?]
    | createIndex i =>
      obtain ⟨t, ht, -, -, rfl⟩ := createIndex_eq_ok_iff.mp h
      rw [table, columns_of_table? (table?_set_self _ _ _), columns_of_table? ht]
      simp [addedTo, addedColumn?, CatalogTable.withIndex]
  · have hnone : addedTo name [s] = [] := by
      cases s <;> simp [addedTo, addedColumn?]
      exact Ne.symm e
    rw [hnone, List.append_nil, columns, columns, table?_of_apply h e]

/-- A table has a column after a statement if it had it, or if the statement made it. -/
theorem hasColumn_of_apply_iff {column : String} (h : c.apply s = .ok c') :
    c'.hasColumn name column = true ↔
      c.hasColumn name column = true ∨ s.MakesColumn name column := by
  by_cases e : s.table = name
  · subst e
    cases s with
    | createTable t =>
      -- a table that was just created had no columns before
      obtain ⟨habsent, -, rfl⟩ := createTable_eq_ok_iff.mp h
      have hnone : ¬ c.hasColumn t.name column = true := fun hc => by
        rw [hasTable_of_hasColumn hc] at habsent
        cases habsent
      rw [table, or_iff_right hnone, hasColumn_of_table? (table?_set_self _ _ _),
        CatalogTable.hasColumn, Text.listsName_iff]
      constructor
      · rintro ⟨n, hn, e⟩
        obtain ⟨made, hmade, rfl⟩ := List.mem_map.mp hn
        exact ⟨rfl, made, hmade, e⟩
      · rintro ⟨-, made, hmade, e⟩
        exact ⟨made.name, List.mem_map_of_mem hmade, e⟩
    | addColumn a =>
      obtain ⟨t, ht, -, rfl⟩ := addColumn_eq_ok_iff.mp h
      rw [table, hasColumn_of_table? (table?_set_self _ _ _), hasColumn_of_table? ht,
        CatalogTable.hasColumn, CatalogTable.hasColumn, Text.listsName_iff, Text.listsName_iff]
      simp [MakesColumn, or_and_right, exists_or]
    | createIndex i =>
      obtain ⟨t, ht, -, -, rfl⟩ := createIndex_eq_ok_iff.mp h
      rw [table, hasColumn_of_table? (table?_set_self _ _ _), hasColumn_of_table? ht]
      exact (or_iff_left id).symm
  · rw [hasColumn, hasColumn, columns, columns, table?_of_apply h (Ne.symm e)]
    exact (or_iff_left fun hs => e hs.table_eq).symm

/-- A table has an index after a statement if it had it, or if the statement created it. -/
theorem hasIndex_of_apply_iff {index : String} (h : c.apply s = .ok c') :
    c'.hasIndex name index = true ↔ c.hasIndex name index = true ∨
      ∃ i, s = .createIndex i ∧ i.table = name ∧ i.name = index := by
  by_cases e : name = s.table
  · subst e
    cases s with
    | createTable t =>
      -- a table that was just created has no index, and had none
      obtain ⟨habsent, -, rfl⟩ := createTable_eq_ok_iff.mp h
      have hnone : c.table? t.name = none := by
        simpa [hasTable] using habsent
      rw [table, hasIndex_of_table? (table?_set_self _ _ _), hasIndex, hnone]
      simp [CatalogTable.hasIndex, Dict.contains]
    | addColumn a =>
      obtain ⟨t, ht, -, rfl⟩ := addColumn_eq_ok_iff.mp h
      rw [table, hasIndex_of_table? (table?_set_self _ _ _), hasIndex_of_table? ht]
      refine (or_iff_left ?_).symm
      rintro ⟨i, e, -⟩
      cases e
    | createIndex i =>
      obtain ⟨t, ht, -, -, rfl⟩ := createIndex_eq_ok_iff.mp h
      rw [table, hasIndex_of_table? (table?_set_self _ _ _), hasIndex_of_table? ht,
        CatalogTable.hasIndex_withIndex, Bool.or_eq_true, decide_eq_true_iff, or_comm]
      refine or_congr_right ⟨fun e => ⟨i, rfl, rfl, e.symm⟩, ?_⟩
      rintro ⟨i', e, -, rfl⟩
      cases e
      rfl
  · rw [hasIndex, hasIndex, table?_of_apply h e]
    refine (or_iff_left ?_).symm
    rintro ⟨i, rfl, hi, -⟩
    exact e hi.symm

/-! ### Several statements -/

/-- **Created tables** are those that were absent and are present. -/
theorem mem_created_iff (h : c.applyAll ss = .ok c') :
    name ∈ ss.filterMap createdTable? ↔ c.hasTable name = false ∧ c'.hasTable name = true := by
  induction ss generalizing c with
  | nil =>
    cases h
    simp
  | cons s ss ih =>
    obtain ⟨c₁, h₁, h₂⟩ := applyAll_cons_eq_ok_iff.mp h
    have hmem : name ∈ (s :: ss).filterMap createdTable? ↔
        s.createdTable? = some name ∨ name ∈ ss.filterMap createdTable? := by
      simp [List.mem_filterMap]
    have hstep : c₁.hasTable name = true ↔
        c.hasTable name = true ∨ s.createdTable? = some name := hasTable_of_apply h₁
    rw [hmem, ih h₂]
    constructor
    · rintro (hs | ⟨h₁false, h'⟩)
      · exact ⟨hasTable_of_created h₁ hs,
          (grows_of_applyAll h₂).hasTable (hstep.mpr (.inr hs))⟩
      · exact ⟨(grows_of_apply h₁).hasTable_eq_false h₁false, h'⟩
    · rintro ⟨hfalse, h'⟩
      cases hc₁ : c₁.hasTable name with
      | false => exact .inr ⟨rfl, h'⟩
      | true => exact .inl ((hstep.mp hc₁).resolve_left (by simp [hfalse]))

/-- **No table is created twice.** -/
theorem nodup_created (h : c.applyAll ss = .ok c') : (ss.filterMap createdTable?).Nodup := by
  induction ss generalizing c with
  | nil => exact List.nodup_nil
  | cons s ss ih =>
    obtain ⟨c₁, h₁, h₂⟩ := applyAll_cons_eq_ok_iff.mp h
    rw [List.filterMap_cons]
    cases hs : s.createdTable? with
    | none => exact ih h₂
    | some name =>
      refine List.nodup_cons.mpr ⟨fun hmem => ?_, ih h₂⟩
      -- it was present already when it was created again
      have habsent := ((mem_created_iff h₂).mp hmem).1
      rw [(hasTable_of_apply h₁).mpr (.inr hs)] at habsent
      cases habsent

/-- **Added columns** follow those that a table had. -/
theorem columns_of_applyAll (h : c.applyAll ss = .ok c') (hname : c.hasTable name = true) :
    c'.columns name = c.columns name ++ addedTo name ss := by
  induction ss generalizing c with
  | nil =>
    cases h
    exact (List.append_nil _).symm
  | cons s ss ih =>
    obtain ⟨c₁, h₁, h₂⟩ := applyAll_cons_eq_ok_iff.mp h
    have happend : addedTo name (s :: ss) = addedTo name [s] ++ addedTo name ss := by
      rw [addedTo, addedTo, addedTo, ← List.map_append, ← List.filter_append,
        ← List.filterMap_append, List.singleton_append]
    rw [ih h₂ ((grows_of_apply h₁).hasTable hname), columns_of_apply h₁ hname, happend,
      List.append_assoc]

/-- **Made columns** join those that a table had. -/
theorem hasColumn_of_applyAll_iff {column : String} (h : c.applyAll ss = .ok c') :
    c'.hasColumn name column = true ↔
      c.hasColumn name column = true ∨ ∃ s ∈ ss, s.MakesColumn name column := by
  induction ss generalizing c with
  | nil =>
    cases h
    simp
  | cons s ss ih =>
    obtain ⟨c₁, h₁, h₂⟩ := applyAll_cons_eq_ok_iff.mp h
    rw [ih h₂, hasColumn_of_apply_iff h₁, or_assoc]
    simp only [List.mem_cons, or_and_right, exists_or, exists_eq_left]

/-- **Created indexes** join those that a table had. -/
theorem hasIndex_of_applyAll_iff {index : String} (h : c.applyAll ss = .ok c') :
    c'.hasIndex name index = true ↔ c.hasIndex name index = true ∨
      ∃ i, .createIndex i ∈ ss ∧ i.table = name ∧ i.name = index := by
  induction ss generalizing c with
  | nil =>
    cases h
    simp
  | cons s ss ih =>
    obtain ⟨c₁, h₁, h₂⟩ := applyAll_cons_eq_ok_iff.mp h
    rw [ih h₂, hasIndex_of_apply_iff h₁, or_assoc]
    refine or_congr_right ?_
    simp only [List.mem_cons, or_and_right, exists_or, eq_comm (a := s)]

end Catalog

end DirectoryTables
