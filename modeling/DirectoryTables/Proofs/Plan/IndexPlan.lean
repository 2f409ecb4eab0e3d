import DirectoryTables.Proofs.Plan.Indexes
import Mathlib.Data.List.Forall2

/-!
# Plans — The index plan of a table

What the index plan has for a table, whatever the directory, the policy and the table
(`Indexing.forTable_exact`): first what each column gets, in their order, then an index for each
expression of the policy, at last the unique index of the person table on Spanner.

* `Selects` says which columns are indexed, `IndexesColumn` what a column gets.
* `IsExpressionIndex` and `IndexesPerson` say what comes after the columns.
* `Refers`: an index is keyed on columns of the table and on columns that a statement before it
  adds.  A server would refuse any other.
-/

namespace DirectoryTables

/-! ### Backends -/

/-- MySQL of the version indexes no expressions over arrays: it comes before 8.0.17. -/
def Version.LacksArrayIndexes (v : Version) : Prop :=
  v.major < 8 ∨ v.major = 8 ∧ v.minor = 0 ∧ v.patch < 17

theorem Version.isBefore_iff {a b : Version} :
    a.isBefore b = true ↔ a.major < b.major ∨ a.major = b.major ∧
      (a.minor < b.minor ∨ a.minor = b.minor ∧ a.patch < b.patch) := by
  rw [isBefore, beq_iff_eq, order, Ordering.then_eq_lt, Ordering.then_eq_lt]
  simp only [Std.compare_eq_lt, Std.compare_eq_iff_eq]

theorem Version.isBefore_functionalJsonIndexing_iff {v : Version} :
    v.isBefore Backend.functionalJsonIndexing = true ↔ v.LacksArrayIndexes := by
  have hminor : ¬ v.minor < 0 := UInt32.not_lt_zero
  rw [isBefore_iff, LacksArrayIndexes]
  simp only [Backend.functionalJsonIndexing, hminor, false_or]

namespace Config

/-- The database indexes expressions over JSON columns. -/
def IndexesArrays (c : Config) : Prop :=
  c.dialect = .pgsql ∨ c.dialect = .mysql ∧ ∀ v, c.version = some v → ¬ v.LacksArrayIndexes

/-- The database is a MySQL that indexes no expressions over arrays. -/
def NeedsShadows (c : Config) : Prop :=
  c.dialect = .mysql ∧ ∃ v, c.version = some v ∧ v.LacksArrayIndexes

theorem jsonIndexing_cases (c : Config) :
    c.backend.jsonIndexing = .functional ∧ c.IndexesArrays ∨
      c.backend.jsonIndexing = .shadowColumns ∧ c.NeedsShadows ∨
      c.backend.jsonIndexing = .unsupported ∧ c.dialect = .spanner := by
  cases hd : c.dialect with
  | pgsql => exact .inl ⟨by simp [Backend.jsonIndexing, backend, hd], .inl hd⟩
  | spanner => exact .inr (.inr ⟨by simp [Backend.jsonIndexing, backend, hd], rfl⟩)
  | mysql =>
    cases hv : c.version with
    | none =>
      refine .inl ⟨by simp [Backend.jsonIndexing, backend, hd, hv], .inr ⟨hd, fun v e => ?_⟩⟩
      rw [hv] at e
      cases e
    | some v =>
      by_cases hold : v.isBefore Backend.functionalJsonIndexing = true
      · refine .inr (.inl ⟨by simp [Backend.jsonIndexing, backend, hd, hv, hold], hd, v, hv, ?_⟩)
        exact Version.isBefore_functionalJsonIndexing_iff.mp hold
      · refine .inl ⟨by simp [Backend.jsonIndexing, backend, hd, hv, hold], .inr ⟨hd, ?_⟩⟩
        intro w e
        rw [hv] at e
        cases e
        exact fun h => hold (Version.isBefore_functionalJsonIndexing_iff.mpr h)

theorem jsonIndexing_eq_shadowColumns_iff {c : Config} :
    c.backend.jsonIndexing = .shadowColumns ↔ c.NeedsShadows := by
  obtain ⟨e, hbackend⟩ | ⟨e, hbackend⟩ | ⟨e, hbackend⟩ := c.jsonIndexing_cases <;> rw [e]
  · refine iff_of_false JsonIndexing.noConfusion fun ⟨hmysql, v, hv, hlacks⟩ => ?_
    obtain hpgsql | ⟨-, hhas⟩ := hbackend
    · rw [hmysql] at hpgsql
      cases hpgsql
    · exact hhas v hv hlacks
  · exact iff_of_true rfl hbackend
  · refine iff_of_false JsonIndexing.noConfusion fun h => ?_
    rw [h.1] at hbackend
    cases hbackend

end Config

namespace Indexing

variable {d : Directory} {c : Config} {p : DialectPolicy} {t : Table} {table : String}
  {columns : List String} {ss ss' : List Statement}

/-! ### Columns -/

/-- A column other than `docId` is selected that the policy names for all tables or for this one,
or that is an attribute with several values which the directory indexes, letter case aside. -/
structure Selects (d : Directory) (c : Config) (p : DialectPolicy) (table column : String) :
    Prop where
  ne_docId : column ≠ docId
  listed : ∃ name, (name ∈ p.common.fields ∨ name ∈ p.tableFields table ∨
      name ∈ c.indexedAttributes ∧ d.isMultivalued name = true) ∧
    Text.lower name = Text.lower column

theorem isSelected_iff {column : String} :
    isSelected d c p table column = true ↔
      ∃ name, (name ∈ p.common.fields ∨ name ∈ p.tableFields table ∨
          name ∈ c.indexedAttributes ∧ d.isMultivalued name = true) ∧
        Text.lower name = Text.lower column := by
  simp only [isSelected, Bool.or_eq_true, Text.listsName_iff, List.mem_filter, or_and_right,
    exists_or, or_assoc]

theorem selects_iff {column : String} :
    Selects d c p table column ↔
      ¬ (column = docId || !isSelected d c p table column) = true := by
  rw [Bool.or_eq_true, decide_eq_true_iff, not_or, Bool.not_eq_true, Bool.not_eq_false',
    isSelected_iff]
  exact ⟨fun h => ⟨h.ne_docId, h.listed⟩, fun h => ⟨h.1, h.2⟩⟩

/-- The part of a key is the column: a prefix of it exactly if it is a text column of MySQL. -/
structure IsKeyPart (c : Config) (column : Column) (part : KeyPart) : Prop where
  name : part.name = column.name
  prefixLength : ∀ n, part.prefixLength = some n ↔
    c.dialect = .mysql ∧ column.type.isText = true ∧ n = c.textPrefixLength

/-- The index over a template of the policy, filled with the column. -/
def IsTemplateIndex (c : Config) (table column template : String) (statement : Statement) : Prop :=
  ∃ name, statement = .createIndex (.expression name table
    (Policy.fillTemplate template (c.backend.quote column)) .jsonPath)

/-- A column generated from one position of the array in a column, and then its index. -/
def IsShadowPair (c : Config) (table column : String) (position : Nat) (pair : List Statement) :
    Prop :=
  ∃ name, ∃ shadow : ColumnDef,
    shadow.type = .varchar c.shadowSize ∧ shadow.notNull = false ∧
    shadow.generated = some (c.backend.quote column ++ "->>'" ++ c.jsonArrayPath ++ "[" ++
      Text.decimal position ++ "]'") ∧
    pair = [.addColumn { table, column := shadow },
      .createIndex (.plain name table { name := shadow.name })]

/-- What a column of a table gets. -/
inductive IndexesColumn (d : Directory) (c : Config) (p : DialectPolicy) (table : String)
    (column : Column) : List Statement → Prop
  /-- A column that is not selected gets nothing. -/
  | unselected (h : ¬ Selects d c p table column.name) : IndexesColumn d c p table column []
  /-- A column without JSON gets one index, keyed on it. -/
  | plain {name : String} {part : KeyPart} (h : Selects d c p table column.name)
      (htype : column.type.isJsonCapable = false) (hpart : IsKeyPart c column part) :
      IndexesColumn d c p table column [.createIndex (.plain name table part)]
  /-- A JSON column gets an index for each template. -/
  | templates {statements : List Statement} (h : Selects d c p table column.name)
      (htype : column.type.isJsonCapable = true) (hbackend : c.IndexesArrays)
      (hstatements : List.Forall₂ (IsTemplateIndex c table column.name) p.common.json statements) :
      IndexesColumn d c p table column statements
  /-- A JSON column of an old MySQL gets a pair for each of the first positions. -/
  | shadows {pairs : List (List Statement)} (h : Selects d c p table column.name)
      (htype : column.type.isJsonCapable = true) (hbackend : c.NeedsShadows)
      (hpairs : List.Forall₂ (IsShadowPair c table column.name)
        (List.range c.shadowPositions.toNat) pairs) :
      IndexesColumn d c p table column pairs.flatten
  /-- A JSON column of Spanner gets nothing. -/
  | unsupported (h : Selects d c p table column.name)
      (htype : column.type.isJsonCapable = true) (hbackend : c.dialect = .spanner) :
      IndexesColumn d c p table column []

theorem isKeyPart_keyPart (c : Config) (column : Column) :
    IsKeyPart c column (column.keyPart c.backend c.textPrefixLength) where
  name := rfl
  prefixLength n := by
    have hprefix : c.backend.needsTextPrefix = true ↔ c.dialect = .mysql := beq_iff_eq
    rw [Column.keyPart, ite_eq_iff, Bool.and_eq_true, hprefix]
    constructor
    · rintro (⟨⟨htext, hdialect⟩, e⟩ | ⟨-, e⟩)
      · cases e
        exact ⟨hdialect, htext, rfl⟩
      · cases e
    · rintro ⟨hdialect, htext, rfl⟩
      exact .inl ⟨⟨htext, hdialect⟩, rfl⟩

/-- A statement for each member of a list, its position apart. -/
theorem forall₂_map_zipIdx {α β : Type} {R : α → β → Prop} {f : α × Nat → β}
    (h : ∀ a n, R a (f (a, n))) (as : List α) (n : Nat) :
    List.Forall₂ R as ((as.zipIdx n).map f) := by
  induction as generalizing n with
  | nil => exact .nil
  | cons a as ih => exact .cons (h a n) (ih (n + 1))

theorem indexesColumn_columnIndexes (d : Directory) (c : Config) (p : DialectPolicy)
    (table : String) (column : Column) :
    IndexesColumn d c p table column (columnIndexes d c p table column) := by
  rw [columnIndexes]
  split
  · next h => exact .unselected fun hselects => selects_iff.mp hselects h
  · next h =>
    have hselects := selects_iff.mpr h
    split
    · next htype =>
      rw [jsonIndexes]
      obtain ⟨e, hbackend⟩ | ⟨e, hbackend⟩ | ⟨e, hbackend⟩ := c.jsonIndexing_cases <;> rw [e]
      · exact .templates hselects htype hbackend (forall₂_map_zipIdx (fun _ _ => ⟨_, rfl⟩) _ 0)
      · refine .shadows hselects htype hbackend (List.forall₂_map_right_iff.mpr ?_)
        exact List.forall₂_same.mpr fun _ _ => ⟨_, _, rfl, rfl, rfl, rfl⟩
      · exact .unsupported hselects htype hbackend
    · next htype =>
      exact .plain hselects (eq_false_of_ne_true htype) (isKeyPart_keyPart c column)

/-! ### After the columns -/

/-- The index over an expression of the policy, as it is. -/
def IsExpressionIndex (table sql : String) (statement : Statement) : Prop :=
  ∃ name, statement = .createIndex (.expression name table sql .custom)

/-- What the table gets as the person table. -/
inductive IndexesPerson (c : Config) (t : Table) : List Statement → Prop
  /-- On Spanner, one unique index on `uid`. -/
  | unique {name : String} {column : Column} (hdialect : c.dialect = .spanner)
      (hperson : t.name = c.personTable) (hcolumn : t.column? uid = some column) :
      IndexesPerson c t [.createIndex (.unique name t.name column.name)]
  /-- Nothing in other tables and on other backends, or without the column. -/
  | nothing (h : c.dialect = .spanner → t.name = c.personTable → t.column? uid = none) :
      IndexesPerson c t []

theorem indexesPerson_uniqueIndexes (c : Config) (t : Table) :
    IndexesPerson c t (uniqueIndexes c t) := by
  have hinline : c.backend.hasInlineUnique = false ↔ c.dialect = .spanner := by
    cases hd : c.dialect <;> simp [Backend.hasInlineUnique, Config.backend, hd]
  simp only [uniqueIndexes, Bool.and_eq_true, Bool.not_eq_true', hinline, beq_iff_eq]
  split
  · next h =>
    cases hcolumn : t.column? uid with
    | none => exact .nothing fun _ _ => hcolumn
    | some column => exact .unique h.1 h.2 hcolumn
  · next h => exact .nothing fun hdialect hperson => absurd ⟨hdialect, hperson⟩ h

/-! ### References -/

/-- An index among the statements is keyed on some given columns, and on columns of its table that
a statement before it adds. -/
def Refers (columns : List String) (statements : List Statement) : Prop :=
  ∀ before i after, statements = before ++ .createIndex i :: after →
    ∀ parts, i.key = .columns parts → ∀ part ∈ parts, part.name ∈ columns ∨
      ∃ add, .addColumn add ∈ before ∧ add.table = i.table ∧ add.column.name = part.name

theorem refers_nil (columns : List String) : Refers columns [] :=
  fun before i after e => absurd e.symm (by simp)

theorem Refers.append (h : Refers columns ss) (h' : Refers columns ss') :
    Refers columns (ss ++ ss') := by
  intro before i after e parts hkey part hpart
  obtain ⟨rest, rfl, hss'⟩ | ⟨rest, rfl, hrest⟩ := List.append_eq_append_iff.mp e
  · obtain hcolumn | ⟨add, hadd, hname⟩ := h' rest i after hss' parts hkey part hpart
    · exact .inl hcolumn
    · exact .inr ⟨add, List.mem_append_right _ hadd, hname⟩
  · cases rest with
    | cons s rest =>
      obtain ⟨rfl, -⟩ := List.cons.inj hrest
      exact h before i rest rfl parts hkey part hpart
    | nil =>
      obtain hcolumn | ⟨add, hadd, -⟩ := h' [] i after hrest.symm parts hkey part hpart
      · exact .inl hcolumn
      · cases hadd

theorem Refers.flatMap {α : Type} {as : List α} {f : α → List Statement}
    (h : ∀ a ∈ as, Refers columns (f a)) : Refers columns (as.flatMap f) := by
  induction as with
  | nil => exact refers_nil columns
  | cons a as ih =>
    rw [List.flatMap_cons]
    exact (h a List.mem_cons_self).append (ih fun a ha => h a (List.mem_cons_of_mem _ ha))

/-- Indexes that are each keyed on the given columns alone. -/
theorem Refers.of_forall (h : ∀ i, .createIndex i ∈ ss → ∀ parts, i.key = .columns parts →
    ∀ part ∈ parts, part.name ∈ columns) : Refers columns ss := by
  rintro before i after rfl parts hkey part hpart
  exact .inl (h i (List.mem_append_right _ List.mem_cons_self) parts hkey part hpart)

/-- The index of a shadow column is keyed on the column added right before it. -/
theorem refers_shadowIndexes (columns : List String) (b : Backend) (c : Config)
    (table column : String) : Refers columns (shadowIndexes b c table column) := by
  refine .flatMap fun position _ before i after e parts hkey part hpart => ?_
  cases before with
  | nil => cases (List.cons.inj e).1
  | cons s before =>
    obtain ⟨rfl, hindex⟩ := List.cons.inj e
    obtain ⟨rfl, hindex⟩ | ⟨-, hindex⟩ := List.singleton_eq_append_iff.mp hindex
    · cases hindex
      cases hkey
      obtain rfl := List.mem_singleton.mp hpart
      exact .inr ⟨_, List.mem_cons_self, rfl, rfl⟩
    · cases hindex

theorem refers_columnIndexes (d : Directory) (c : Config) (p : DialectPolicy) (table : String)
    {column : Column} (h : column.name ∈ columns) :
    Refers columns (columnIndexes d c p table column) := by
  rw [columnIndexes]
  split
  · exact refers_nil columns
  · split
    · rw [jsonIndexes]
      split
      · refine .of_forall fun i hi parts hkey => ?_
        obtain ⟨⟨template, position⟩, -, e⟩ := List.mem_map.mp hi
        cases e
        cases hkey
      · exact refers_shadowIndexes columns c.backend c table column.name
      · exact refers_nil columns
    · refine .of_forall fun i hi parts hkey part hpart => ?_
      cases List.mem_singleton.mp hi
      cases hkey
      obtain rfl := List.mem_singleton.mp hpart
      exact h

theorem refers_customIndexes (columns : List String) (p : DialectPolicy) (table : String) :
    Refers columns (customIndexes p table) := by
  refine .of_forall fun i hi parts hkey => ?_
  obtain ⟨⟨sql, position⟩, -, e⟩ := List.mem_map.mp hi
  cases e
  cases hkey

theorem refers_uniqueIndexes (c : Config) (t : Table) :
    Refers (t.columns.map Column.name) (uniqueIndexes c t) := by
  refine .of_forall fun i hi parts hkey part hpart => ?_
  rw [uniqueIndexes] at hi
  split at hi
  · obtain ⟨column, hcolumn, e⟩ := List.mem_map.mp hi
    cases e
    cases hkey
    obtain rfl := List.mem_singleton.mp hpart
    exact List.mem_map_of_mem (List.mem_of_find?_eq_some (Option.mem_toList.mp hcolumn))
  · cases hi

/-! ### The whole plan of a table -/

/-- **The index plan of a table.**  It is what each column gets, an index for each expression of the
policy and what the person table gets, in this order.  Every statement adds a column or an index to
the table, and an index is keyed on columns of the table or on such as are added before it. -/
theorem forTable_exact (d : Directory) (c : Config) (policy : Policy) (t : Table) :
    (∃ blocks customs uniques, forTable d c policy t = blocks.flatten ++ customs ++ uniques ∧
      List.Forall₂ (IndexesColumn d c (policy.forDialect c.dialect) t.name) t.columns blocks ∧
      List.Forall₂ (IsExpressionIndex t.name) ((policy.forDialect c.dialect).custom t.name)
        customs ∧
      IndexesPerson c t uniques) ∧
    (∀ statement ∈ forTable d c policy t, statement.Indexes t.name) ∧
    Refers (t.columns.map Column.name) (forTable d c policy t) := by
  refine ⟨⟨t.columns.map (columnIndexes d c (policy.forDialect c.dialect) t.name),
    customIndexes (policy.forDialect c.dialect) t.name, uniqueIndexes c t, ?_, ?_, ?_,
    indexesPerson_uniqueIndexes c t⟩, fun _ => indexes_of_mem_forTable, ?_⟩
  · rw [forTable, List.flatMap]
  · exact List.forall₂_map_right_iff.mpr
      (List.forall₂_same.mpr fun column _ => indexesColumn_columnIndexes d c _ t.name column)
  · exact forall₂_map_zipIdx (fun _ _ => ⟨_, rfl⟩) _ 0
  · refine (Refers.append (.flatMap fun column hcolumn => ?_) ?_).append ?_
    · exact refers_columnIndexes d c _ t.name (List.mem_map_of_mem hcolumn)
    · exact refers_customIndexes _ _ t.name
    · exact refers_uniqueIndexes c t

end Indexing

end DirectoryTables
