import DirectoryTables.Proofs.Plan.IndexedAttributes
import Mathlib.Data.List.Flatten

/-!
# Plans — Index plans that grow

An index that is there is recognised by its name, so an index plan may grow, but what was in it has
to stay as it was.  Columns are selected by lists of names, and a longer list selects more of them;
what a column gets depends on whether it is selected, not on what else is.

* `DialectPolicy.SelectsMore`: a policy that differs from another in longer lists of fields.
* `Indexing.forTable_sublist`: longer lists only add to the index plan of a table, and what they add
  indexes columns that were not selected before.
-/

namespace DirectoryTables

/-- The names list all of the others, letter case aside. -/
def Text.ListsAll (names others : List String) : Prop :=
  ∀ n ∈ others, listsName names n = true

instance {names others : List String} : Decidable (Text.ListsAll names others) :=
  inferInstanceAs (Decidable (∀ n ∈ others, Text.listsName names n = true))

/-- A listed name is found in the longer list, in some spelling. -/
theorem Text.ListsAll.exists_mem {names others : List String} (h : ListsAll names others)
    {n : String} (hn : n ∈ others) : ∃ m ∈ names, lower m = lower n :=
  listsName_iff.mp (h n hn)

/-- The second policy differs from the first in the fields for all tables and for one table only,
and has those of the first among them. -/
structure DialectPolicy.SelectsMore (p p' : DialectPolicy) (table : String) : Prop where
  json : p'.common.json = p.common.json
  custom : p'.custom table = p.custom table
  fields : Text.ListsAll p'.common.fields p.common.fields
  tableFields : Text.ListsAll (p'.tableFields table) (p.tableFields table)

namespace Indexing

variable {d : Directory} {c : Config} {policy policy' : Policy} {p p' : DialectPolicy} {t : Table}
  {table column : String} {names : List String}

/-! ### Columns -/

theorem isMultivalued_congr {name other : String} (h : Text.lower name = Text.lower other) :
    d.isMultivalued name = d.isMultivalued other := by
  rw [Directory.isMultivalued, Directory.isMultivalued, Directory.attribute?,
    Directory.attribute?, Registry.find?_congr (Text.sameName_iff.mpr h)]

theorem columnIndexes_eq {column : Column} (h : Selects d c p table column.name) :
    columnIndexes d c p table column = selectedIndexes c p table column :=
  columnIndexes_of_selects (show Selects d (c.withIndexed c.indexedAttributes) p table _ from h)

/-- A selected column stays selected. -/
theorem Selects.of_selectsMore (hselects : Selects d c p table column)
    (hpolicy : p.SelectsMore p' table) (hindexed : Text.ListsAll names c.indexedAttributes) :
    Selects d (c.withIndexed names) p' table column := by
  obtain ⟨hne, name, hlisted, e⟩ := hselects
  refine ⟨hne, ?_⟩
  obtain hcommon | htable | ⟨hentry, hmulti⟩ := hlisted
  · obtain ⟨name', hname', e'⟩ := hpolicy.fields.exists_mem hcommon
    exact ⟨name', .inl hname', e'.trans e⟩
  · obtain ⟨name', hname', e'⟩ := hpolicy.tableFields.exists_mem htable
    exact ⟨name', .inr (.inl hname'), e'.trans e⟩
  · -- A lookup does not see the letter case, so the other spelling counts as well.
    obtain ⟨name', hname', e'⟩ := hindexed.exists_mem hentry
    exact ⟨name', .inr (.inr ⟨hname', (isMultivalued_congr e').trans hmulti⟩), e'.trans e⟩

/-- What a selected column gets does not depend on the lists of fields. -/
theorem selectedIndexes_of_selectsMore (hpolicy : p.SelectsMore p' table) (column : Column) :
    selectedIndexes c p' table column = selectedIndexes c p table column := by
  simp only [selectedIndexes, jsonIndexes, functionalIndexes, hpolicy.json]

/-- A column keeps its statements, if it had any. -/
theorem columnIndexes_sublist (hpolicy : p.SelectsMore p' table)
    (hindexed : Text.ListsAll names c.indexedAttributes) (column : Column) :
    (columnIndexes d c p table column).Sublist
      (columnIndexes d (c.withIndexed names) p' table column) := by
  by_cases hselects : Selects d c p table column.name
  · have hbefore : columnIndexes d c p table column = selectedIndexes c p table column :=
      columnIndexes_eq hselects
    have hafter : columnIndexes d (c.withIndexed names) p' table column =
        selectedIndexes c p' table column :=
      columnIndexes_of_selects (hselects.of_selectsMore hpolicy hindexed)
    rw [hbefore, hafter, selectedIndexes_of_selectsMore hpolicy]
  · rw [columnIndexes_of_not_selects hselects]
    exact List.nil_sublist _

/-- A statement for a column was there before, or the column was not selected before. -/
theorem mem_columnIndexes_of_selectsMore {column : Column} {statement : Statement}
    (hpolicy : p.SelectsMore p' table)
    (h : statement ∈ columnIndexes d (c.withIndexed names) p' table column) :
    statement ∈ columnIndexes d c p table column ∨
      ¬ Selects d c p table column.name ∧
        Selects d (c.withIndexed names) p' table column.name ∧
        statement ∈ selectedIndexes c p table column := by
  by_cases hafter : Selects d (c.withIndexed names) p' table column.name
  · rw [columnIndexes_of_selects hafter, selectedIndexes_of_selectsMore hpolicy] at h
    by_cases hbefore : Selects d c p table column.name
    · exact .inl (columnIndexes_eq hbefore ▸ h)
    · exact .inr ⟨hbefore, hafter, h⟩
  · rw [columnIndexes_of_not_selects hafter] at h
    cases h

/-! ### Tables -/

/-- What follows the columns does not depend on the lists of fields. -/
theorem customIndexes_of_selectsMore (hpolicy : p.SelectsMore p' table) :
    customIndexes p' table = customIndexes p table := by
  rw [customIndexes, customIndexes, hpolicy.custom]

/-- **Selecting more fields only adds to the index plan of a table.**  Lists that have all names of
those before, letter case aside, leave every statement as it was and in its order.  What is new
among the statements indexes a column that was not selected before. -/
theorem forTable_sublist
    (hpolicy : (policy.forDialect c.dialect).SelectsMore (policy'.forDialect c.dialect) t.name)
    (hindexed : Text.ListsAll names c.indexedAttributes) :
    (forTable d c policy t).Sublist (forTable d (c.withIndexed names) policy' t) ∧
    ∀ statement ∈ forTable d (c.withIndexed names) policy' t,
      statement ∈ forTable d c policy t ∨
        ∃ column ∈ t.columns,
          ¬ Selects d c (policy.forDialect c.dialect) t.name column.name ∧
          Selects d (c.withIndexed names) (policy'.forDialect c.dialect) t.name column.name ∧
          statement ∈ selectedIndexes c (policy.forDialect c.dialect) t.name column := by
  have hsplit : forTable d (c.withIndexed names) policy' t =
      t.columns.flatMap
        (columnIndexes d (c.withIndexed names) (policy'.forDialect c.dialect) t.name) ++
      customIndexes (policy.forDialect c.dialect) t.name ++ uniqueIndexes c t := by
    rw [← customIndexes_of_selectsMore hpolicy]
    rfl
  rw [hsplit, forTable]
  constructor
  · have hcolumns := List.Sublist.flatMap_right t.columns fun column _ =>
      columnIndexes_sublist (d := d) hpolicy hindexed column
    exact (hcolumns.append_right _).append_right _
  · intro statement hstatement
    obtain hstatement | hunique := List.mem_append.mp hstatement
    · obtain hcolumns | hcustom := List.mem_append.mp hstatement
      · obtain ⟨column, hcolumn, hmem⟩ := List.mem_flatMap.mp hcolumns
        obtain hold | hnew := mem_columnIndexes_of_selectsMore hpolicy hmem
        · exact .inl (List.mem_append_left _
            (List.mem_append_left _ (List.mem_flatMap.mpr ⟨column, hcolumn, hold⟩)))
        · exact .inr ⟨column, hcolumn, hnew⟩
      · exact .inl (List.mem_append_left _ (List.mem_append_right _ hcustom))
    · exact .inl (List.mem_append_right _ hunique)

/-- A policy with given fields for all tables, a template and an expression. -/
def uidPolicy (fields : List String) : Policy where
  mysql := {
    common := { fields, json := ["(CAST(\x7bfield\x7d->'$.v' AS CHAR(128) ARRAY))"] }
    tables := .ofPairs [("person", { custom := ["(lower(uid))"] })] }

/-- One more field, the old one in capitals, and an attribute that the directory indexes besides:
its index comes between those that were there. -/
theorem forTable_sublist_uidPolicy :
    let d : Directory := .ofDefinitions [{ names := ["mail"], multivalued := true }] []
    let person : Table :=
      { name := "person", columns := bookkeeping ++ [⟨"uid", .varchar 64⟩, ⟨"mail", .json⟩] }
    ((uidPolicy ["uid"]).forDialect .mysql).SelectsMore
        ((uidPolicy ["sn", "UID"]).forDialect .mysql) "person" ∧
      Text.ListsAll ["mail"] ({} : Config).indexedAttributes ∧
      forTable d {} (uidPolicy ["uid"]) person ≠
        forTable d (Config.withIndexed {} ["mail"]) (uidPolicy ["sn", "UID"]) person ∧
      (forTable d {} (uidPolicy ["uid"]) person).Sublist
        (forTable d (Config.withIndexed {} ["mail"]) (uidPolicy ["sn", "UID"]) person) := by
  intro d person
  have hpolicy : ((uidPolicy ["uid"]).forDialect .mysql).SelectsMore
      ((uidPolicy ["sn", "UID"]).forDialect .mysql) "person" :=
    ⟨rfl, rfl, by decide, by decide⟩
  have hindexed : Text.ListsAll ["mail"] ({} : Config).indexedAttributes := by decide
  refine ⟨hpolicy, hindexed, by decide +kernel, ?_⟩
  exact (forTable_sublist (c := {}) (t := person) hpolicy hindexed).1

end Indexing

end DirectoryTables
