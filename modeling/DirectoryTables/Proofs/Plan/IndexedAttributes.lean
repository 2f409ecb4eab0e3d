import DirectoryTables.Proofs.Plan.IndexNames
import DirectoryTables.Proofs.Plan.IndexPlan
import DirectoryTables.Proofs.Plan.Routing

/-!
# Plans — Attributes that the directory indexes

The list of the attributes that the directory itself indexes selects columns by the names as they
are written.  Whether an entry counts is a matter of a lookup, which finds an attribute by any of
its names; but the entry then selects the columns of the name it was written with, and columns are
named canonically.

* `Indexing.forTable_eq_iff`: two lists give a table the same index plan exactly if they select the
  same of its columns that can be indexed.
* `Compiler.renamed_entry_iff`: when an entry can be replaced by another name of its attribute.
* `Compiler.not_renamed_entry`: it cannot always; an entry by an alias selects nothing.
-/

namespace DirectoryTables

/-- The configuration with another list of attributes that the directory indexes. -/
def Config.withIndexed (c : Config) (names : List String) : Config :=
  { c with indexedAttributes := names }

namespace Indexing

open Statement

variable {d : Directory} {c : Config} {policy : Policy} {p : DialectPolicy} {t : Table}
  {table : String} {names names' : List String} {i : CreateIndex}

/-! ### What selected columns get -/

/-- What a column gets if it is selected. -/
def selectedIndexes (c : Config) (p : DialectPolicy) (table : String) (column : Column) :
    List Statement :=
  if column.type.isJsonCapable then jsonIndexes c.backend c p table column.name
  else [.createIndex (.plain (table ++ "_" ++ column.name ++ "Idx") table
    (column.keyPart c.backend c.textPrefixLength))]

theorem columnIndexes_of_selects {column : Column}
    (h : Selects d (c.withIndexed names) p table column.name) :
    columnIndexes d (c.withIndexed names) p table column = selectedIndexes c p table column :=
  if_neg (selects_iff.mp h)

theorem columnIndexes_of_not_selects {column : Column} (h : ¬ Selects d c p table column.name) :
    columnIndexes d c p table column = [] :=
  if_pos (not_not.mp fun hno => h (selects_iff.mpr hno))

/-- Lists that agree on a column, if it can be indexed, give it the same. -/
theorem columnIndexes_congr {column : Column}
    (h : selectedIndexes c p table column ≠ [] →
      (Selects d (c.withIndexed names) p table column.name ↔
        Selects d (c.withIndexed names') p table column.name)) :
    columnIndexes d (c.withIndexed names) p table column =
      columnIndexes d (c.withIndexed names') p table column := by
  by_cases hindexes : selectedIndexes c p table column = []
  · have hnothing : ∀ l, columnIndexes d (c.withIndexed l) p table column = [] := by
      intro l
      by_cases hselects : Selects d (c.withIndexed l) p table column.name
      · rw [columnIndexes_of_selects hselects, hindexes]
      · exact columnIndexes_of_not_selects hselects
    rw [hnothing, hnothing]
  · by_cases hselects : Selects d (c.withIndexed names) p table column.name
    · rw [columnIndexes_of_selects hselects,
        columnIndexes_of_selects ((h hindexes).mp hselects)]
    · rw [columnIndexes_of_not_selects hselects,
        columnIndexes_of_not_selects fun hselects' => hselects ((h hindexes).mpr hselects')]

/-- What a selected column gets, if anything, has an index in it. -/
theorem exists_index_of_selectedIndexes {column : Column}
    (h : selectedIndexes c p table column ≠ []) :
    ∃ i, .createIndex i ∈ selectedIndexes c p table column := by
  revert h
  rw [selectedIndexes]
  split
  · rw [jsonIndexes]
    split
    · intro h
      obtain ⟨statement, hs⟩ := List.exists_mem_of_ne_nil _ h
      obtain ⟨entry, -, rfl⟩ := List.mem_map.mp hs
      exact ⟨_, hs⟩
    · intro h
      obtain ⟨statement, hs⟩ := List.exists_mem_of_ne_nil _ h
      -- a shadow column comes with its index
      obtain ⟨position, hposition, -⟩ := List.mem_flatMap.mp hs
      exact ⟨_, List.mem_flatMap.mpr ⟨position, hposition,
        List.mem_cons_of_mem _ (List.mem_singleton_self _)⟩⟩
    · exact fun h => absurd rfl h
  · exact fun _ => ⟨_, List.mem_singleton_self _⟩

/-- An index is in the plan for one column of the table only. -/
theorem column_eq_of_mem {d' : Directory} {c' : Config} {p' : DialectPolicy}
    (h : t.HasDistinctColumns) {column column' : Column} (hcolumn : column ∈ t.columns)
    (hcolumn' : column' ∈ t.columns) (hi : .createIndex i ∈ columnIndexes d c p t.name column)
    (hi' : .createIndex i ∈ columnIndexes d' c' p' t.name column') : column = column' := by
  obtain ⟨mark, -, hname⟩ := exists_mark_of_mem_columnIndexes hi
  obtain ⟨mark', -, hname'⟩ := exists_mark_of_mem_columnIndexes hi'
  exact h.eq hcolumn hcolumn' (lower_column_eq_of_name (by rw [← hname, hname']))

/-- What the list of the directory decides in the index plan of a table. -/
theorem forTable_withIndexed_eq_iff :
    forTable d (c.withIndexed names) policy t = forTable d (c.withIndexed names') policy t ↔
      t.columns.flatMap (columnIndexes d (c.withIndexed names)
          (policy.forDialect c.dialect) t.name) =
        t.columns.flatMap (columnIndexes d (c.withIndexed names')
          (policy.forDialect c.dialect) t.name) := by
  simp only [forTable, List.append_assoc]
  exact List.append_left_inj _

/-- A selected column is told by its indexes. -/
theorem Selects.of_forTable_eq (hcolumns : t.HasDistinctColumns)
    (h : forTable d (c.withIndexed names) policy t = forTable d (c.withIndexed names') policy t)
    {column : Column} (hcolumn : column ∈ t.columns)
    (hindexes : selectedIndexes c (policy.forDialect c.dialect) t.name column ≠ [])
    (hselects : Selects d (c.withIndexed names) (policy.forDialect c.dialect) t.name column.name) :
    Selects d (c.withIndexed names') (policy.forDialect c.dialect) t.name column.name := by
  obtain ⟨i, hi⟩ := exists_index_of_selectedIndexes hindexes
  rw [← columnIndexes_of_selects hselects] at hi
  have hplanned := List.mem_flatMap.mpr ⟨column, hcolumn, hi⟩
  rw [forTable_withIndexed_eq_iff.mp h] at hplanned
  obtain ⟨column', hcolumn', hi'⟩ := List.mem_flatMap.mp hplanned
  obtain rfl := column_eq_of_mem hcolumns hcolumn hcolumn' hi hi'
  by_contra hno
  rw [columnIndexes_of_not_selects hno] at hi'
  cases hi'

/-- **Lists that give a table the same index plan.**  They select the same columns, of those that
can be indexed. -/
theorem forTable_eq_iff (hcolumns : t.HasDistinctColumns) :
    forTable d (c.withIndexed names) policy t = forTable d (c.withIndexed names') policy t ↔
      ∀ column ∈ t.columns,
        selectedIndexes c (policy.forDialect c.dialect) t.name column ≠ [] →
          (Selects d (c.withIndexed names) (policy.forDialect c.dialect) t.name column.name ↔
            Selects d (c.withIndexed names') (policy.forDialect c.dialect) t.name
              column.name) := by
  constructor
  · intro h column hcolumn hindexes
    exact ⟨Selects.of_forTable_eq hcolumns h hcolumn hindexes,
      Selects.of_forTable_eq hcolumns h.symm hcolumn hindexes⟩
  · intro h
    refine forTable_withIndexed_eq_iff.mpr (List.flatMap_congr fun column hcolumn => ?_)
    exact columnIndexes_congr (h column hcolumn)

/-! ### One entry of the list -/

/-- An entry selects the columns of its own name, if a lookup of it finds an attribute with several
values. -/
theorem selects_withIndexed_iff {before after : List String} {name column : String} :
    Selects d (c.withIndexed (before ++ name :: after)) p table column ↔
      Selects d (c.withIndexed (before ++ after)) p table column ∨
        column ≠ docId ∧ d.isMultivalued name = true ∧ Text.lower name = Text.lower column := by
  have hmem : ∀ n, n ∈ before ++ name :: after ↔ n ∈ before ++ after ∨ n = name := fun n => by
    simp only [List.mem_append, List.mem_cons]
    tauto
  constructor
  · rintro ⟨hne, n, hlisted | hlisted | ⟨hlisted, hmulti⟩, e⟩
    · exact .inl ⟨hne, n, .inl hlisted, e⟩
    · exact .inl ⟨hne, n, .inr (.inl hlisted), e⟩
    · obtain hlisted | rfl := (hmem n).mp hlisted
      · exact .inl ⟨hne, n, .inr (.inr ⟨hlisted, hmulti⟩), e⟩
      · exact .inr ⟨hne, hmulti, e⟩
  · rintro (⟨hne, n, hlisted | hlisted | ⟨hlisted, hmulti⟩, e⟩ | ⟨hne, hmulti, e⟩)
    · exact ⟨hne, n, .inl hlisted, e⟩
    · exact ⟨hne, n, .inr (.inl hlisted), e⟩
    · exact ⟨hne, n, .inr (.inr ⟨(hmem n).mpr (.inl hlisted), hmulti⟩), e⟩
    · exact ⟨hne, name, .inr (.inr ⟨(hmem name).mpr (.inr rfl), hmulti⟩), e⟩

/-- It takes one more entry to index the column: it can be indexed, and neither the policy nor the
entries of the list select it. -/
structure Awaits (d : Directory) (c : Config) (policy : Policy) (t : Table) (rest : List String)
    (column : Column) : Prop where
  listed : column ∈ t.columns
  ne_docId : column.name ≠ docId
  indexable : selectedIndexes c (policy.forDialect c.dialect) t.name column ≠ []
  unselected :
    ¬ Selects d (c.withIndexed rest) (policy.forDialect c.dialect) t.name column.name

/-- Entries that find the same attribute can be exchanged exactly if both or neither are the name of
each column that awaits an entry. -/
theorem forTable_renamed_iff (hcolumns : t.HasDistinctColumns) (before after : List String)
    {name other : String} (h : d.isMultivalued other = d.isMultivalued name) :
    forTable d (c.withIndexed (before ++ other :: after)) policy t =
        forTable d (c.withIndexed (before ++ name :: after)) policy t ↔
      (d.isMultivalued name = true → ∀ column, Awaits d c policy t (before ++ after) column →
        (Text.lower name = Text.lower column.name ↔
          Text.lower other = Text.lower column.name)) := by
  rw [forTable_eq_iff hcolumns]
  simp only [selects_withIndexed_iff, h]
  constructor
  · intro hall hmulti column hawaits
    have hiff := hall column hawaits.listed hawaits.indexable
    simpa [hawaits.unselected, hawaits.ne_docId, hmulti, iff_comm] using hiff
  · intro hall column hcolumn hindexes
    by_cases hselects : Selects d (c.withIndexed (before ++ after)) (policy.forDialect c.dialect)
        t.name column.name
    · simp [hselects]
    · refine or_congr_right (and_congr_right fun hne => and_congr_right fun hmulti => ?_)
      exact (hall hmulti column ⟨hcolumn, hne, hindexes, hselects⟩).symm

end Indexing

/-! ### Entries by other names -/

/-- Where lookups are exact, a name in the place of a canonical one is canonical itself. -/
theorem Directory.lower_eq_of_canonical {docs : List SchemaDocument} {d : Directory}
    (hdocs : ofDocuments docs = .ok d) (hexact : d.attributes.Exact) {n name : String}
    {a : Attribute} (hname : d.attribute? name = some a)
    (h : Text.lower name = Text.lower (d.canonical n)) : Text.lower name = Text.lower a.name := by
  have hfound : d.attribute? (d.canonical n) = some a := by
    rw [← hname]
    exact Registry.find?_congr (Text.sameName_iff.mpr h.symm)
  rw [h]
  cases hn : d.attribute? n with
  | none =>
    rw [canonical, hn, Option.map_none, Option.getD_none, hn] at hfound
    cases hfound
  | some b =>
    have hown : d.attribute? b.name = some b := by
      have hitem : b ∈ d.attributes.items := Registry.mem_items_of_find? hn
      exact (attribute?_eq_some_iff hexact).mpr
        ⟨hitem, Attribute.hasName_name (names_ne_nil hdocs hitem)⟩
    rw [canonical, hn, Option.map_some, Option.getD_some] at hfound ⊢
    rw [Option.some.inj (hown.symm.trans hfound)]

namespace Compiler

open Indexing

variable {c : Compiler} {plan : Plan} {t : Table}

/-- **When an entry of the list can be written otherwise.**  Another name of the same attribute
gives a planned table the same index plan, exactly if the attribute has a single value, or both or
neither of the names are the name of each column that awaits an entry, letter case aside.  For
documents whose definitions keep names a column of an attribute goes by the canonical name only, so
an entry by an alias does not select it. -/
theorem renamed_entry_iff {docs : List SchemaDocument}
    (hdocs : Directory.ofDocuments docs = .ok c.directory) (hplan : c.plan = .ok plan)
    (ht : t ∈ plan.tables) {before after : List String} {name other : String} {a : Attribute}
    (hlist : c.config.indexedAttributes = before ++ name :: after)
    (hname : c.directory.attribute? name = some a)
    (hother : c.directory.attribute? other = some a) :
    (forTable c.directory (c.config.withIndexed (before ++ other :: after)) c.policy t =
        forTable c.directory c.config c.policy t ↔
      (a.multivalued = true → ∀ column,
        Awaits c.directory c.config c.policy t (before ++ after) column →
          (Text.lower name = Text.lower column.name ↔
            Text.lower other = Text.lower column.name))) ∧
    (NamesKept (docs.flatMap (·.attributes)) →
      ∀ column ∈ t.columns, isBookkeeping column.name = false → ∀ entry b,
        c.directory.attribute? entry = some b → Text.lower entry = Text.lower column.name →
          Text.lower entry = Text.lower b.name) := by
  have hcolumns := Plan.hasDistinctColumns_of_planned hplan ht
  have hmulti : c.directory.isMultivalued name = a.multivalued := by
    rw [Directory.isMultivalued, hname, Option.any_some]
  have hmulti' : c.directory.isMultivalued other = c.directory.isMultivalued name := by
    rw [hmulti, Directory.isMultivalued, hother, Option.any_some]
  refine ⟨?_, fun hkept column hcolumn hattribute entry b hentry e => ?_⟩
  · have hconfig : c.config = c.config.withIndexed (before ++ name :: after) := by
      rw [← hlist]
      rfl
    have hiff : forTable c.directory (c.config.withIndexed (before ++ other :: after)) c.policy t =
        forTable c.directory (c.config.withIndexed (before ++ name :: after)) c.policy t ↔ _ :=
      forTable_renamed_iff hcolumns before after hmulti'
    rw [← hconfig, hmulti] at hiff
    exact hiff
  · obtain ⟨cls, -, htable⟩ := exists_of_mem_mapM (Plan.ofDirectory_eq_ok hplan).1 ht
    have htcls : Plan.IsTableOf c.directory c.config cls t := Plan.tableFor_eq_ok_iff.mp htable
    obtain hbook | ⟨-, n, -, hcanonical⟩ :=
      htcls.exists_column_iff.mp ⟨column, hcolumn, Text.sameName_self column.name⟩
    · rw [hattribute] at hbook
      cases hbook
    · exact Directory.lower_eq_of_canonical hdocs (Directory.exact_of_namesKept hdocs hkept) hentry
        (e.trans (Text.sameName_iff.mp hcanonical).symm)

/-- An attribute with an alias and several values. -/
def emailAttribute : Attribute where
  names := ["mail", "email"]
  multivalued := true

/-- A document with a class that has the attribute. -/
def emailDocument : SchemaDocument where
  attributes := [emailAttribute]
  classes := [{ names := ["person"], may := ["mail"] }]

/-- The compiler of `emailDocument` for a directory that indexes one attribute, on a version that
needs shadow columns. -/
def emailIndexed (entry : String) : Compiler where
  config := {
    version := some { major := 5, minor := 7, patch := 44 }
    shadowPositions := 1
    indexedAttributes := [entry] }
  directory := .ofDefinitions emailDocument.attributes emailDocument.classes

/-- The table of `emailDocument`. -/
def emailTable : Table where
  name := "person"
  columns := bookkeeping ++ [⟨"mail", .json⟩]

/-- The canonical name in another letter case. -/
theorem renamed_entry_iff_emailIndexed :
    Directory.ofDocuments [emailDocument] = .ok (emailIndexed "mail").directory ∧
      (emailIndexed "mail").plan = .ok { tables := [emailTable] } ∧
      (emailIndexed "mail").config.indexedAttributes = [] ++ "mail" :: [] ∧
      (emailIndexed "mail").directory.attribute? "mail" = some emailAttribute ∧
      (emailIndexed "mail").directory.attribute? "MAIL" = some emailAttribute ∧
      forTable (emailIndexed "mail").directory
          ((emailIndexed "mail").config.withIndexed ([] ++ "MAIL" :: []))
          (emailIndexed "mail").policy emailTable =
        forTable (emailIndexed "mail").directory (emailIndexed "mail").config
          (emailIndexed "mail").policy emailTable := by
  have hdocs : Directory.ofDocuments [emailDocument] = .ok (emailIndexed "mail").directory := rfl
  have hplan : (emailIndexed "mail").plan = .ok { tables := [emailTable] } := rfl
  have hlist : (emailIndexed "mail").config.indexedAttributes = [] ++ "mail" :: [] := rfl
  have hname : (emailIndexed "mail").directory.attribute? "mail" = some emailAttribute := rfl
  have hother : (emailIndexed "mail").directory.attribute? "MAIL" = some emailAttribute := rfl
  have hlower : Text.lower "mail" = Text.lower "MAIL" := by decide
  refine ⟨hdocs, hplan, hlist, hname, hother, ?_⟩
  exact (renamed_entry_iff hdocs hplan (List.mem_singleton_self _) hlist hname hother).1.mpr
    fun _ _ _ => by rw [hlower]

/-- An entry cannot always be replaced by an alias: the column is then left without an index. -/
theorem not_renamed_entry :
    ¬ ∀ docs (c : Compiler) plan t before name other after a,
      Directory.ofDocuments docs = .ok c.directory → c.plan = .ok plan → t ∈ plan.tables →
        c.config.indexedAttributes = before ++ name :: after →
          c.directory.attribute? name = some a → c.directory.attribute? other = some a →
            forTable c.directory (c.config.withIndexed (before ++ other :: after)) c.policy t =
              forTable c.directory c.config c.policy t := by
  intro h
  have hplan : (emailIndexed "mail").plan = .ok { tables := [emailTable] } := rfl
  have hlist : (emailIndexed "mail").config.indexedAttributes = [] ++ "mail" :: [] := rfl
  have hsame := h [emailDocument] (emailIndexed "mail") _ emailTable [] "mail" "email" []
    emailAttribute rfl hplan (List.mem_singleton_self _) hlist rfl rfl
  exact absurd hsame (by decide)

end Compiler

end DirectoryTables
