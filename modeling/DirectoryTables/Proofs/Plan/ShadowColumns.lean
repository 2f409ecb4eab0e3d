import DirectoryTables.Proofs.Plan.IndexNames
import DirectoryTables.Proofs.Plan.IndexPlan

/-!
# Plans — Shadow columns

The columns that the index plan of a table adds to it (`Indexing.shadowNames`): some for each
selected column with JSON, on a backend that needs them (`Indexing.mem_shadowNames_iff_selects`).
Their names are different, letter case aside, as those of the columns they are made for are: each is
the name of its column and a mark, and a mark can be read off the end of a name in any letter case.
-/

namespace DirectoryTables.Indexing

open Statement

variable {d : Directory} {c : Config} {policy : Policy} {p : DialectPolicy} {t : Table}

/-- The names of the columns that the index plan of a table adds to it. -/
def shadowNames (d : Directory) (c : Config) (policy : Policy) (t : Table) : List String :=
  ((forTable d c policy t).filterMap addedColumn?).map Prod.snd

theorem mem_shadowNames_iff {name : String} :
    name ∈ shadowNames d c policy t ↔
      ∃ a, .addColumn a ∈ forTable d c policy t ∧ a.column.name = name := by
  simp only [shadowNames, List.mem_map, List.mem_filterMap]
  constructor
  · rintro ⟨_, ⟨s, hs, hadded⟩, rfl⟩
    cases s with
    | addColumn a =>
      cases hadded
      exact ⟨a, hs, rfl⟩
    | createTable | createIndex => cases hadded
  · rintro ⟨a, ha, rfl⟩
    exact ⟨_, ⟨_, ha, rfl⟩, rfl⟩

theorem shadowName_eq (column : String) (n : Nat) :
    shadowName column n = column ++ (IndexMark.shadow n).text :=
  String.append_assoc

/-- Two shadow columns have the same name, letter case aside, only if they are made for columns of
the same name and for the same position. -/
theorem lower_shadowName_eq_iff {column column' : String} {n n' : Nat} :
    Text.lower (shadowName column n) = Text.lower (shadowName column' n') ↔
      Text.lower column = Text.lower column' ∧ n = n' := by
  rw [shadowName_eq, shadowName_eq, IndexMark.lower_append_text_eq_iff, IndexMark.shadow.injEq]

theorem addedColumns_shadowIndexes (b : Backend) (c : Config) (table column : String) :
    ((shadowIndexes b c table column).filterMap addedColumn?).map Prod.snd =
      (List.range c.shadowPositions.toNat).map (shadowName column) := by
  rw [shadowIndexes, List.filterMap_flatMap, List.map_flatMap, List.map_eq_flatMap]
  rfl

/-- The shadow columns of a column have different numbers. -/
theorem exists_numbers_columnIndexes (d : Directory) (c : Config) (p : DialectPolicy)
    (table : String) (column : Column) :
    ∃ numbers : List Nat, numbers.Nodup ∧
      ((columnIndexes d c p table column).filterMap addedColumn?).map Prod.snd =
        numbers.map (shadowName column.name) := by
  rw [columnIndexes]
  split
  · exact ⟨[], List.nodup_nil, rfl⟩
  · split
    · rw [jsonIndexes]
      split
      · refine ⟨[], List.nodup_nil, ?_⟩
        rw [List.map_nil, List.map_eq_nil_iff, functionalIndexes, List.filterMap_map]
        exact List.filterMap_eq_nil_iff.mpr fun _ _ => rfl
      · exact ⟨List.range c.shadowPositions.toNat, List.nodup_range,
          addedColumns_shadowIndexes c.backend c table column.name⟩
      · exact ⟨[], List.nodup_nil, rfl⟩
    · exact ⟨[], List.nodup_nil, rfl⟩

theorem shadowNames_eq (d : Directory) (c : Config) (policy : Policy) (t : Table) :
    shadowNames d c policy t = t.columns.flatMap fun column =>
      ((columnIndexes d c (policy.forDialect c.dialect) t.name column).filterMap
        addedColumn?).map Prod.snd := by
  have hcustom : (customIndexes (policy.forDialect c.dialect) t.name).filterMap addedColumn? =
      [] := by
    rw [customIndexes, List.filterMap_map]
    exact List.filterMap_eq_nil_iff.mpr fun _ _ => rfl
  have hunique : (uniqueIndexes c t).filterMap addedColumn? = [] := by
    rw [uniqueIndexes]
    split
    · rw [List.filterMap_map]
      exact List.filterMap_eq_nil_iff.mpr fun _ _ => rfl
    · rfl
  rw [shadowNames, forTable, List.filterMap_append, List.filterMap_append, hcustom, hunique,
    List.append_nil, List.append_nil, List.filterMap_flatMap, List.map_flatMap]

theorem mem_addedColumns_columnIndexes {table name : String} {column : Column} :
    name ∈ ((columnIndexes d c p table column).filterMap addedColumn?).map Prod.snd ↔
      c.NeedsShadows ∧ Selects d c p table column.name ∧ column.type.isJsonCapable = true ∧
        ∃ n < c.shadowPositions.toNat, shadowName column.name n = name := by
  rw [selects_iff, columnIndexes, ← Config.jsonIndexing_eq_shadowColumns_iff]
  split
  · next h => simp [h]
  · next h =>
    split
    · next htype =>
      rw [jsonIndexes]
      split
      · next e => simp [e, functionalIndexes, addedColumn?]
      · next e => rw [addedColumns_shadowIndexes, List.mem_map]; simp [e, h, htype]
      · next e => simp [e]
    · next htype => simp [htype, addedColumn?]

/-- **The shadow columns of a table** are those for the first positions of its selected columns with
JSON, if the backend needs them. -/
theorem mem_shadowNames_iff_selects {name : String} :
    name ∈ shadowNames d c policy t ↔ c.NeedsShadows ∧
      ∃ column ∈ t.columns, Selects d c (policy.forDialect c.dialect) t.name column.name ∧
        column.type.isJsonCapable = true ∧
          ∃ n < c.shadowPositions.toNat, shadowName column.name n = name := by
  simp only [shadowNames_eq, List.mem_flatMap, mem_addedColumns_columnIndexes]
  constructor
  · rintro ⟨column, hcolumn, hneeds, h⟩
    exact ⟨hneeds, column, hcolumn, h⟩
  · rintro ⟨hneeds, column, hcolumn, h⟩
    exact ⟨column, hcolumn, hneeds, h⟩

/-- The shadow columns of columns with different names have different names, letter case aside. -/
theorem disjoint_shadowNames {table : String} {column column' : Column}
    (h : Text.lower column.name ≠ Text.lower column'.name) :
    ((((columnIndexes d c p table column).filterMap addedColumn?).map Prod.snd).map
      Text.lower).Disjoint
      ((((columnIndexes d c p table column').filterMap addedColumn?).map Prod.snd).map
        Text.lower) := by
  obtain ⟨numbers, -, hnames⟩ := exists_numbers_columnIndexes d c p table column
  obtain ⟨numbers', -, hnames'⟩ := exists_numbers_columnIndexes d c p table column'
  rw [hnames, hnames', List.map_map, List.map_map]
  intro name hname hname'
  obtain ⟨n, -, rfl⟩ := List.mem_map.mp hname
  obtain ⟨n', -, e⟩ := List.mem_map.mp hname'
  exact h (lower_shadowName_eq_iff.mp e).1.symm

/-- **The shadow columns of a table have different names**, letter case aside, if its columns do. -/
theorem nodup_shadowNames (d : Directory) (c : Config) (policy : Policy)
    (h : t.HasDistinctColumns) : ((shadowNames d c policy t).map Text.lower).Nodup := by
  rw [shadowNames_eq, List.map_flatMap, List.nodup_flatMap]
  refine ⟨fun column _ => ?_, (List.pairwise_map.mp h).imp disjoint_shadowNames⟩
  obtain ⟨numbers, hnodup, hnames⟩ :=
    exists_numbers_columnIndexes d c (policy.forDialect c.dialect) t.name column
  rw [hnames, List.map_map]
  exact hnodup.map fun _ _ e => (lower_shadowName_eq_iff.mp e).2

end DirectoryTables.Indexing
