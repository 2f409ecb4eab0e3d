import DirectoryTables.Indexing
import DirectoryTables.Proofs.Plan.Tables
import DirectoryTables.Proofs.Typing.Lines

/-!
# Plans — Lines

Which plans are on one line: all of them, where documents give no other texts.  Every name in a plan
is the canonical name of a class or of an attribute, or a name that a class asks for; what indexes
are made of comes from these and from the policy.

* `Plan.oneLine_table`, `Plan.oneLine_subtable`: planned tables and subtables are on one line.
* `Indexing.oneLine_forTables`: so are the statements that index tables.
-/

namespace DirectoryTables

open Text

/-! ### Tables and subtables -/

/-- The name and the type of the column are on one line. -/
structure Column.OneLine (column : Column) : Prop where
  name : Unbroken column.name
  type : column.type.OneLine

theorem Column.OneLine.declaration {column : Column} (h : column.OneLine) :
    column.declaration.OneLine :=
  ⟨h.name, h.type, fun _ e => by cases e⟩

/-- The names and the types of the table are on one line. -/
structure Table.OneLine (t : Table) : Prop where
  name : Unbroken t.name
  columns : ∀ column ∈ t.columns, column.OneLine

/-- The names of the subtable and the type of its values are on one line. -/
structure Subtable.OneLine (s : Subtable) : Prop where
  parent : Unbroken s.parent
  values : s.values.OneLine

theorem Subtable.OneLine.name {s : Subtable} (h : s.OneLine) : Unbroken s.name :=
  unbroken_append.mpr ⟨unbroken_append.mpr ⟨h.parent, by decide⟩, h.values.name⟩

theorem oneLine_bookkeeping : ∀ column ∈ bookkeeping, column.OneLine := by
  simp only [bookkeeping, List.forall_mem_cons]
  exact ⟨⟨by decide, trivial⟩, ⟨by decide, trivial⟩, ⟨by decide, trivial⟩, fun _ h => by cases h⟩

theorem Directory.Resolves.oneLine {d : Directory} {names : List String}
    {classes : List ObjectClass} (h : d.Resolves names classes) (hd : d.OneLine) :
    ∀ cls ∈ classes, cls.OneLine := by
  intro cls hcls
  have hflip : List.Forall₂ (fun cls name => d.class? name = some cls) classes names :=
    List.Forall₂.flip (R := fun cls name => d.class? name = some cls) h
  obtain ⟨name, -, hname⟩ := exists_of_mem_forall₂ hflip hcls
  exact hd.class? hname

namespace Plan

variable {d : Directory} {c : Config} {cls : ObjectClass} {t : Table} {plan : Plan}

theorem unbroken_of_mem_askedNames (hd : d.OneLine) (hcls : cls.OneLine)
    {merged parents : List ObjectClass} (hmerged : ∀ source ∈ merged, source.OneLine)
    (hparents : ∀ source ∈ parents, source.OneLine) :
    ∀ n ∈ askedNames d cls merged parents, Unbroken n := by
  have hmay : ∀ {sources : List ObjectClass}, (∀ source ∈ sources, source.OneLine) →
      ∀ n ∈ sources.flatMap ObjectClass.may, Unbroken n := by
    intro sources h n hn
    obtain ⟨source, hsource, hn⟩ := List.mem_flatMap.mp hn
    exact (h source hsource).may n hn
  have halways : ∀ n ∈ alwaysNames d cls.name, Unbroken n := by
    intro n hn
    obtain ⟨a, ha, rfl⟩ := List.mem_map.mp hn
    exact (hd.attributes a (List.mem_of_mem_filter ha)).name
  simp only [askedNames, List.forall_mem_append]
  exact ⟨⟨⟨⟨hcls.may, hcls.included⟩, halways⟩, hmay hmerged⟩, hmay hparents⟩

theorem oneLine_of_isTableOf (hd : d.OneLine) (hc : c.OneLine) (hcls : cls.OneLine)
    (h : IsTableOf d c cls t) : t.OneLine := by
  obtain ⟨merged, parents, hmerged, hparents, hcolumns⟩ := h.columns
  refine ⟨h.name ▸ hcls.name, ?_⟩
  rw [hcolumns, List.forall_mem_append]
  refine ⟨oneLine_bookkeeping, fun column hcolumn => ?_⟩
  obtain ⟨n, hn, rfl⟩ := List.mem_map.mp hcolumn
  refine ⟨?_, Typing.oneLine_columnType hd hc n cls.name⟩
  -- A kept name is the canonical one of a name that the class asks for.
  have hfirst := List.mem_of_mem_filter (List.mem_of_mem_filter hn)
  rw [← distinctNames_eq_firstOccurrences] at hfirst
  obtain ⟨asked, hasked, rfl⟩ := List.mem_map.mp ((distinctNames_sublist _).subset hfirst)
  exact hd.canonical (unbroken_of_mem_askedNames hd hcls (hmerged.oneLine hd)
    (hparents.oneLine hd) asked hasked)

/-- **Planned tables are on one line**, where the documents are. -/
theorem oneLine_table (hd : d.OneLine) (hc : c.OneLine) (h : ofDirectory d c = .ok plan)
    (ht : t ∈ plan.tables) : t.OneLine := by
  obtain ⟨cls, hcls, htable⟩ := exists_of_mem_mapM (ofDirectory_eq_ok h).1 ht
  exact oneLine_of_isTableOf hd hc (hd.classes cls (List.mem_of_mem_filter hcls))
    (tableFor_eq_ok_iff.mp htable)

/-- **Planned subtables are on one line**, where the documents are. -/
theorem oneLine_subtable (hd : d.OneLine) (hc : c.OneLine) (h : ofDirectory d c = .ok plan)
    {s : Subtable} (hs : s ∈ plan.subtables) : s.OneLine := by
  obtain ⟨a, ha, -, hname, htype, t, ht, hparent⟩ := exists_route_of_subtable h hs
  refine ⟨hparent ▸ (oneLine_table hd hc h ht).name, ?_, ?_⟩
  · rw [Subtable.values, hname]
    exact (hd.attributes a ha).name
  · rw [Subtable.values, htype]
    exact Typing.oneLine_valueType hd hc _ _

end Plan

/-! ### Statements that create tables -/

theorem Table.OneLine.create {t : Table} (h : t.OneLine) (b : Backend) (personTable : String) :
    (t.create b personTable).OneLine where
  name := h.name
  columns := List.forall_mem_map.mpr fun column hc => (h.columns column hc).declaration
  primaryKey := fun column hc => by
    rw [List.mem_singleton.mp hc]
    decide
  unique := fun column hc => by
    rw [Table.create] at hc
    dsimp only at hc
    split at hc
    · obtain ⟨u, hu, rfl⟩ := List.mem_map.mp hc
      exact (h.columns u (List.mem_of_find?_eq_some (Option.mem_toList.mp hu))).name
    · cases hc
  parent := fun _ e => by cases e

theorem Subtable.OneLine.create {s : Subtable} (h : s.OneLine) : s.create.OneLine where
  name := h.name
  columns := by
    simp only [Subtable.create, List.forall_mem_cons]
    exact ⟨⟨by decide, trivial, fun _ e => by cases e⟩, ⟨by decide, trivial, fun _ e => by cases e⟩,
      h.values.declaration, fun _ hc => by cases hc⟩
  primaryKey := by
    simp only [Subtable.create, List.forall_mem_cons]
    exact ⟨by decide, by decide, fun _ hc => by cases hc⟩
  unique := fun _ hc => by cases hc
  parent := fun parent e => by cases e; exact h.parent

/-- An index on one column is on one line if its names are. -/
theorem CreateIndex.oneLine_plain {name table : String} {part : KeyPart} (hname : Unbroken name)
    (htable : Unbroken table) (hpart : Unbroken part.name) :
    (CreateIndex.plain name table part).OneLine :=
  ⟨hname, htable, fun p hp => by rw [List.mem_singleton.mp hp]; exact hpart⟩

theorem Subtable.OneLine.index {s : Subtable} (h : s.OneLine) (b : Backend) (n : UInt32) :
    (s.index b n).OneLine :=
  CreateIndex.oneLine_plain (unbroken_append.mpr ⟨h.name, by decide⟩) h.name h.values.name

/-! ### Statements that index tables -/

/-- The templates and the expressions of the policy are on one line. -/
structure DialectPolicy.OneLine (p : DialectPolicy) : Prop where
  templates : ∀ template ∈ p.common.json, Unbroken template
  expressions : ∀ entry ∈ p.tables.entries, ∀ sql ∈ entry.2.custom, Unbroken sql

theorem DialectPolicy.OneLine.custom {p : DialectPolicy} (h : p.OneLine) (table : String) :
    ∀ sql ∈ p.custom table, Unbroken sql := by
  rw [DialectPolicy.custom]
  cases ht : p.tables.get? table with
  | none => exact fun _ hs => by cases hs
  | some given => exact h.expressions _ (Dict.mem_of_get? ht)

theorem mem_substitute {first : Char} {rest replacement cs : List Char} {x : Char}
    (h : x ∈ substitute first rest replacement cs) : x ∈ replacement ∨ x ∈ cs := by
  fun_induction substitute first rest replacement cs with
  | case1 => exact .inr h
  | case2 c cs r hr ih =>
    rw [eq_append_of_afterPrefix? hr]
    rcases List.mem_append.mp h with h | h
    · exact .inl h
    · exact (ih h).imp_right (List.mem_append_right _)
  | case3 c cs hr ih =>
    rcases List.mem_cons.mp h with rfl | h
    · exact .inr List.mem_cons_self
    · exact (ih h).imp_right (List.mem_cons_of_mem c)

theorem unbroken_fillTemplate {template column : String} (htemplate : Unbroken template)
    (hcolumn : Unbroken column) : Unbroken (Policy.fillTemplate template column) := by
  rw [Policy.fillTemplate, unbroken_ofList]
  exact fun h => (mem_substitute h).elim hcolumn htemplate

namespace Indexing

variable {d : Directory} {c : Config} {p : DialectPolicy} {table column : String}

theorem oneLine_functionalIndexes (b : Backend) (hp : p.OneLine) (htable : Unbroken table)
    (hcolumn : Unbroken column) :
    ∀ statement ∈ functionalIndexes b p table column, statement.OneLine := by
  intro statement hs
  obtain ⟨⟨template, position⟩, hmem, rfl⟩ := List.mem_map.mp hs
  have htemplate := hp.templates template (List.fst_mem_of_mem_zipIdx hmem)
  refine ⟨?_, htable, unbroken_fillTemplate htemplate (b.unbroken_quote hcolumn)⟩
  simp +decide [CreateIndex.expression, htable, hcolumn, unbroken_decimal]

theorem unbroken_shadowName (hcolumn : Unbroken column) (position : Nat) :
    Unbroken (shadowName column position) := by
  simp +decide [shadowName, hcolumn, unbroken_decimal]

theorem oneLine_shadowIndexes (b : Backend) (hc : c.OneLine) (htable : Unbroken table)
    (hcolumn : Unbroken column) :
    ∀ statement ∈ shadowIndexes b c table column, statement.OneLine := by
  intro statement hs
  obtain ⟨position, -, hs⟩ := List.mem_flatMap.mp hs
  have hname := unbroken_shadowName hcolumn position
  obtain rfl | hs := List.mem_cons.mp hs
  · refine ⟨htable, hname, trivial, fun expression e => ?_⟩
    cases e
    simp +decide [b.unbroken_quote hcolumn, hc.jsonArrayPath, unbroken_decimal]
  · obtain rfl := List.mem_singleton.mp hs
    refine CreateIndex.oneLine_plain ?_ htable hname
    simp +decide [htable, hname]

theorem oneLine_columnIndexes (hc : c.OneLine) (hp : p.OneLine) (htable : Unbroken table)
    {column : Column} (hcolumn : column.OneLine) :
    ∀ statement ∈ columnIndexes d c p table column, statement.OneLine := by
  intro statement hs
  rw [columnIndexes] at hs
  split at hs
  · cases hs
  · split at hs
    · rw [jsonIndexes] at hs
      split at hs
      · exact oneLine_functionalIndexes _ hp htable hcolumn.name statement hs
      · exact oneLine_shadowIndexes _ hc htable hcolumn.name statement hs
      · cases hs
    · obtain rfl := List.mem_singleton.mp hs
      refine CreateIndex.oneLine_plain ?_ htable hcolumn.name
      simp +decide [htable, hcolumn.name]

theorem oneLine_customIndexes (hp : p.OneLine) (htable : Unbroken table) :
    ∀ statement ∈ customIndexes p table, statement.OneLine := by
  intro statement hs
  obtain ⟨⟨sql, position⟩, hmem, rfl⟩ := List.mem_map.mp hs
  refine ⟨?_, htable, hp.custom table sql (List.fst_mem_of_mem_zipIdx hmem)⟩
  simp +decide [CreateIndex.expression, htable, unbroken_decimal]

theorem oneLine_uniqueIndexes {t : Table} (ht : t.OneLine) :
    ∀ statement ∈ uniqueIndexes c t, statement.OneLine := by
  intro statement hs
  rw [uniqueIndexes] at hs
  split at hs
  · obtain ⟨column, hu, rfl⟩ := List.mem_map.mp hs
    have hcolumn := ht.columns column (List.mem_of_find?_eq_some (Option.mem_toList.mp hu))
    refine ⟨unbroken_append.mpr ⟨ht.name, by decide⟩, ht.name, fun p hp => ?_⟩
    rw [List.mem_singleton.mp hp]
    exact hcolumn.name
  · cases hs

/-- **Statements that index tables are on one line**, where tables, policy and configuration are. -/
theorem oneLine_forTables {policy : Policy} {tables : List Table} (hc : c.OneLine)
    (hp : (policy.forDialect c.dialect).OneLine) (h : ∀ t ∈ tables, t.OneLine) :
    ∀ statement ∈ forTables d c policy tables, statement.OneLine := by
  intro statement hs
  obtain ⟨t, ht, hs⟩ := List.mem_flatMap.mp hs
  rw [forTable] at hs
  rcases List.mem_append.mp hs with hs | hs
  · rcases List.mem_append.mp hs with hs | hs
    · obtain ⟨column, hcolumn, hs⟩ := List.mem_flatMap.mp hs
      exact oneLine_columnIndexes hc hp (h t ht).name ((h t ht).columns column hcolumn) statement hs
    · exact oneLine_customIndexes hp (h t ht).name statement hs
  · exact oneLine_uniqueIndexes (h t ht) statement hs

end Indexing

end DirectoryTables
