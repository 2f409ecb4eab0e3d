import DirectoryTables.Indexing

/-!
# Plans — Indexes

Every statement of an index plan is about a planned table: it adds a column to it or an index
(`exists_indexes_of_mem`), and never creates a table.
-/

namespace DirectoryTables

/-- The statement adds a column or an index to the table. -/
def Statement.Indexes (table : String) : Statement → Prop
  | createTable _ => False
  | addColumn add => add.table = table
  | createIndex index => index.table = table

theorem Statement.Indexes.table_eq {statement : Statement} {table : String}
    (h : statement.Indexes table) : statement.table = table := by
  cases statement with
  | createTable => exact h.elim
  | addColumn => exact h
  | createIndex => exact h

namespace Indexing

variable {statement : Statement} {table column : String}

theorem indexes_of_mem_functionalIndexes {b : Backend} {p : DialectPolicy}
    (h : statement ∈ functionalIndexes b p table column) : statement.Indexes table := by
  obtain ⟨⟨template, position⟩, -, rfl⟩ := List.mem_map.mp h
  rfl

theorem indexes_of_mem_shadowIndexes {b : Backend} {c : Config}
    (h : statement ∈ shadowIndexes b c table column) : statement.Indexes table := by
  obtain ⟨position, -, h⟩ := List.mem_flatMap.mp h
  obtain rfl | h := List.mem_cons.mp h
  · rfl
  · obtain rfl := List.mem_singleton.mp h
    rfl

theorem indexes_of_mem_columnIndexes {d : Directory} {c : Config} {p : DialectPolicy}
    {column : Column} (h : statement ∈ columnIndexes d c p table column) :
    statement.Indexes table := by
  rw [columnIndexes] at h
  split at h
  · cases h
  · split at h
    · rw [jsonIndexes] at h
      split at h
      · exact indexes_of_mem_functionalIndexes h
      · exact indexes_of_mem_shadowIndexes h
      · cases h
    · obtain rfl := List.mem_singleton.mp h
      rfl

theorem indexes_of_mem_customIndexes {p : DialectPolicy} (h : statement ∈ customIndexes p table) :
    statement.Indexes table := by
  obtain ⟨⟨sql, position⟩, -, rfl⟩ := List.mem_map.mp h
  rfl

theorem indexes_of_mem_uniqueIndexes {c : Config} {t : Table} (h : statement ∈ uniqueIndexes c t) :
    statement.Indexes t.name := by
  rw [uniqueIndexes] at h
  split at h
  · obtain ⟨column, -, rfl⟩ := List.mem_map.mp h
    rfl
  · cases h

/-- A statement that indexes a table adds a column or an index to it. -/
theorem indexes_of_mem_forTable {d : Directory} {c : Config} {policy : Policy} {t : Table}
    (h : statement ∈ forTable d c policy t) : statement.Indexes t.name := by
  rw [forTable] at h
  obtain h | h := List.mem_append.mp h
  · obtain h | h := List.mem_append.mp h
    · obtain ⟨column, -, h⟩ := List.mem_flatMap.mp h
      exact indexes_of_mem_columnIndexes h
    · exact indexes_of_mem_customIndexes h
  · exact indexes_of_mem_uniqueIndexes h

/-- A statement of an index plan adds a column or an index to one of the tables. -/
theorem exists_indexes_of_mem {d : Directory} {c : Config} {policy : Policy} {tables : List Table}
    (h : statement ∈ forTables d c policy tables) : ∃ t ∈ tables, statement.Indexes t.name := by
  obtain ⟨t, ht, h⟩ := List.mem_flatMap.mp h
  exact ⟨t, ht, indexes_of_mem_forTable h⟩

end Indexing

end DirectoryTables
